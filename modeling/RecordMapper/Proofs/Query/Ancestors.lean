import Mathlib.Data.List.Basic
import Mathlib.Data.List.Induction
import RecordMapper.Proofs.Ordered
import RecordMapper.Proofs.Query.Layout

/-!
# Types with their ancestors

The query of a record type is built from the far end of its chain: each type joins what its
ancestor has built, with the ancestor's columns selected. Every descriptor is looked at on the
way, the type's own first, so the query exists if and only if all of them are valid, and
otherwise the error is that of the nearest one that is not (`ofChain_eq`).

What comes of the joins is flat. The clauses follow the chain, each from a type to its own
ancestor (`joins_chained`), and the columns stand in the opposite order, the farthest
ancestor's first (`names_chained`). With tables that can be told apart no column is
taken for one of the type's own table, which is then selected whole.
-/

namespace RecordMapper

open Query

/-! ## Valid descriptors -/

namespace Descriptor

/-- There is a table, and a primary key whose columns all have names. -/
structure Valid (d : Descriptor) : Prop where
  table : d.table ≠ ""
  key : d.primaryKey ≠ []
  named : ∀ column ∈ d.primaryKey, column ≠ ""

theorem valid_iff (d : Descriptor) :
    d.Valid ↔ d.table ≠ "" ∧ d.primaryKey ≠ [] ∧ ∀ column ∈ d.primaryKey, column ≠ "" :=
  ⟨fun h => ⟨h.table, h.key, h.named⟩, fun h => ⟨h.1, h.2.1, h.2.2⟩⟩

instance (d : Descriptor) : Decidable d.Valid := decidable_of_iff _ d.valid_iff.symm

/-- What an invalid descriptor is refused for. -/
def fault (d : Descriptor) : Error :=
  if d.table = "" then .missingTable d.name else .missingKey d.name

theorem kind_fault (d : Descriptor) : d.fault.kind = .unconfigured := by
  rw [fault]
  split <;> rfl

theorem validate_eq (d : Descriptor) :
    d.validate = if d.Valid then .ok () else .error d.fault := by
  rw [validate, fault]
  by_cases htable : d.table = ""
  · have hinvalid : ¬ d.Valid := fun h => h.table htable
    simp [htable, hinvalid]
  · have hkey : (d.primaryKey.isEmpty || d.primaryKey.any String.isEmpty) = true ↔ ¬ d.Valid := by
      simp [valid_iff, htable, or_iff_not_imp_left]
    by_cases hvalid : d.Valid
    · simp [htable, hvalid, Bool.eq_false_iff.mpr fun h => hkey.mp h hvalid]
    · simp [htable, hvalid, hkey.mpr hvalid]

end Descriptor

/-- The descriptors of a type and of its ancestors, nearest first. -/
def Model.chain (m : Model) : List Descriptor :=
  m.toDescriptor :: m.ancestors.map Ancestor.toDescriptor

namespace Select

/-! ## The query of a chain -/

/-- The type, with its chain of ancestors joined. -/
def chained (d : Descriptor) : List Ancestor → Select
  | [] => { ofTable d.table with model := some ⟨d, []⟩ }
  | parent :: rest =>
      { ofTable d.table with model := some ⟨d, parent :: rest⟩ }.joinOn
        (.query ((chained parent.toDescriptor rest).select parent.columns))
        parent.localKey parent.foreignKey

/-- A chain gives its query, or the fault of the first descriptor that is not valid. -/
theorem ofChain_eq : ∀ (ancestors : List Ancestor) (d : Descriptor),
    ofChain d ancestors
      = match (d :: ancestors.map Ancestor.toDescriptor).find? (fun d => !decide d.Valid) with
        | none => .ok (chained d ancestors)
        | some invalid => .error invalid.fault
  | [], d => by
      rw [ofChain, d.validate_eq]
      by_cases hvalid : d.Valid <;> simp [hvalid, chained] <;> rfl
  | parent :: rest, d => by
      rw [ofChain, d.validate_eq, List.find?_cons]
      by_cases hvalid : d.Valid
      · rw [if_pos hvalid, ofChain_eq rest parent.toDescriptor]
        simp only [hvalid, List.map_cons, decide_true, Bool.not_true]
        cases (parent.toDescriptor :: rest.map Ancestor.toDescriptor).find?
          (fun d => !decide d.Valid) <;> rfl
      · simp [hvalid]
        rfl

/-- The clause that joins an ancestor to the type right before it. -/
def ancestorClause (child : Descriptor) (parent : Ancestor) : Join :=
  ⟨parent.table, parent.localKey, parent.foreignKey, child.table⟩

/-- The declared columns of the ancestors, the farthest first, each column once. -/
def inheritedColumns (ancestors : List Ancestor) : List String :=
  ancestors.reverse.flatMap fun a => a.columns.eraseDups.map fun column => a.table ++ "." ++ column

@[simp] theorem table_chained (d : Descriptor) (ancestors : List Ancestor) :
    (chained d ancestors).table = d.table := by
  cases ancestors <;> rfl

@[simp] theorem model_chained (d : Descriptor) (ancestors : List Ancestor) :
    (chained d ancestors).model = some ⟨d, ancestors⟩ := by
  cases ancestors <;> rfl

theorem orders_chained (d : Descriptor) (ancestors : List Ancestor) :
    (chained d ancestors).orders = ∅ := by
  cases ancestors <;> rfl

theorem limit_chained (d : Descriptor) (ancestors : List Ancestor) :
    (chained d ancestors).limit = none := by
  cases ancestors <;> rfl

/-- No type has a condition to hand on. -/
theorem filter_chained : ∀ (ancestors : List Ancestor) (d : Descriptor),
    (chained d ancestors).filter = ∅
  | [], _ => rfl
  | parent :: rest, d => by
      have hparent : (chained parent.toDescriptor rest).filter = ∅ := filter_chained rest _
      show Filter.append ∅ .and (chained parent.toDescriptor rest).filter.root = ∅
      rw [hparent]
      rfl

theorem joins_chained : ∀ (ancestors : List Ancestor) (d : Descriptor),
    (chained d ancestors).joins
      = List.zipWith ancestorClause (d :: ancestors.map Ancestor.toDescriptor) ancestors
  | [], _ => rfl
  | parent :: rest, d => by
      rw [List.map_cons, List.zipWith_cons_cons, ← joins_chained rest]
      show [] ++ joinClause _ (chained parent.toDescriptor rest).table _ _ :: _ = _
      rw [table_chained]
      rfl

/-! ## Columns of tables that can be told apart -/

/-- A column without a point, and the table in front of it, can be read off the qualified name. -/
theorem qualified_inj {table table' column column' : String} (htable : '.' ∉ table.toList)
    (hcolumn : '.' ∉ column.toList) (h : table ++ "." ++ column = table' ++ "." ++ column') :
    table = table' ∧ column = column' := by
  have hchars : table.toList ++ '.' :: column.toList = table'.toList ++ '.' :: column'.toList := by
    have hlists := congrArg String.toList h
    simpa using hlists
  obtain ⟨ht, -, hc⟩ := (List.append_cons_inj_of_notMem htable hcolumn).mp hchars
  exact ⟨String.toList_inj.mp ht, String.toList_inj.mp hc⟩

/-- The tables of the chain are distinct and without points, and all columns of the ancestors have
names without points. -/
structure Distinguished (d : Descriptor) (ancestors : List Ancestor) : Prop where
  tables : ((d :: ancestors.map Ancestor.toDescriptor).map Descriptor.table).Nodup
  undotted : ∀ a ∈ ancestors, '.' ∉ a.table.toList
  columns : ∀ a ∈ ancestors, ∀ column ∈ a.columns, column ≠ "" ∧ '.' ∉ column.toList

theorem Distinguished.parent {d : Descriptor} {parent : Ancestor} {rest : List Ancestor}
    (h : Distinguished d (parent :: rest)) : Distinguished parent.toDescriptor rest where
  tables := (List.nodup_cons.mp h.tables).2
  undotted a ha := h.undotted a (List.mem_cons_of_mem _ ha)
  columns a ha := h.columns a (List.mem_cons_of_mem _ ha)

theorem Distinguished.table_ne {d : Descriptor} {ancestors : List Ancestor}
    (h : Distinguished d ancestors) {a : Ancestor} (ha : a ∈ ancestors) : d.table ≠ a.table := by
  intro heq
  refine (List.nodup_cons.mp h.tables).1 (heq ▸ ?_)
  exact List.mem_map.mpr ⟨_, List.mem_map.mpr ⟨a, ha, rfl⟩, rfl⟩

theorem mem_inheritedColumns {ancestors : List Ancestor} {name : String} :
    name ∈ inheritedColumns ancestors
      ↔ ∃ a ∈ ancestors, ∃ column ∈ a.columns, a.table ++ "." ++ column = name := by
  simp [inheritedColumns]

theorem inheritedColumns_cons (parent : Ancestor) (rest : List Ancestor) :
    inheritedColumns (parent :: rest) = inheritedColumns rest
      ++ parent.columns.eraseDups.map fun column => parent.table ++ "." ++ column := by
  simp [inheritedColumns]

/-- Without a point, a column that is selected becomes one of the table. -/
theorem map_qualifyName {table : String} {columns : List String}
    (h : ∀ column ∈ columns, column ≠ "" ∧ '.' ∉ column.toList) :
    (columns.filter fun name => !name.isEmpty).map (Filter.qualifyName table)
      = columns.map fun column => table ++ "." ++ column := by
  have hall : columns.filter (fun name => !name.isEmpty) = columns := by
    rw [List.filter_eq_self]
    intro column hcolumn
    simpa using (h column hcolumn).1
  rw [hall]
  refine List.map_congr_left fun column hcolumn => ?_
  have hbare : Filter.isQualified column = false := by
    simpa [Filter.isQualified] using (h column hcolumn).2
  rw [Filter.qualifyName, hbare]
  rfl

theorem names_chained_cons (d : Descriptor) (parent : Ancestor) (rest : List Ancestor) :
    (chained d (parent :: rest)).columns.names
      = ((chained parent.toDescriptor rest).columns.names
          ++ (parent.columns.filter fun name => !name.isEmpty).map
            (Filter.qualifyName parent.table)).eraseDups := by
  show (NameSet.insertAll ∅ ((chained parent.toDescriptor rest).select
    parent.columns).columns.names).names = _
  have hnodup := ((chained parent.toDescriptor rest).select parent.columns).columns.nodup
  rw [NameSet.names_insertAll]
  show ([] ++ _ : List String).eraseDups = _
  rw [List.nil_append, eraseDups_of_nodup hnodup, select, NameSet.names_insertAll, table_chained]

theorem eraseDups_map_of_injective {f : String → String} (hf : Function.Injective f)
    (names : List String) : (names.map f).eraseDups = names.eraseDups.map f := by
  induction names using List.reverseRecOn with
  | nil => rfl
  | append_singleton names name ih =>
      rw [List.map_append, List.map_singleton, List.eraseDups_append, List.eraseDups_append,
        List.map_append, ih]
      by_cases hmem : name ∈ names <;> simp [List.removeAll, hmem, hf.eq_iff, List.eraseDups_cons]

/-- Tables that differ have no column in common. -/
theorem Distinguished.removeAll {d : Descriptor} {parent : Ancestor} {rest : List Ancestor}
    (h : Distinguished d (parent :: rest)) :
    (parent.columns.map fun column => parent.table ++ "." ++ column).removeAll
        (inheritedColumns rest)
      = parent.columns.map fun column => parent.table ++ "." ++ column := by
  have hparent := List.mem_cons_self (a := parent) (l := rest)
  rw [List.removeAll, List.filter_eq_self]
  intro name hname
  obtain ⟨column, hcolumn, rfl⟩ := List.mem_map.mp hname
  suffices hnew : parent.table ++ "." ++ column ∉ inheritedColumns rest by simpa using hnew
  rw [mem_inheritedColumns]
  rintro ⟨a, ha, other, -, heq⟩
  have hundotted := (h.columns parent hparent column hcolumn).2
  have hsame := qualified_inj (h.undotted parent hparent) hundotted heq.symm
  exact h.parent.table_ne ha hsame.1

theorem names_chained : ∀ {ancestors : List Ancestor} {d : Descriptor},
    Distinguished d ancestors → (chained d ancestors).columns.names = inheritedColumns ancestors
  | [], _, _ => rfl
  | parent :: rest, d, h => by
      have ih := names_chained h.parent
      have honce : (inheritedColumns rest).eraseDups = inheritedColumns rest := by
        rw [← ih]
        exact eraseDups_of_nodup (chained _ rest).columns.nodup
      have hinj : Function.Injective fun column => parent.table ++ "." ++ column :=
        fun _ _ heq => (String.append_right_inj _).mp heq
      rw [names_chained_cons, map_qualifyName (h.columns parent List.mem_cons_self), ih,
        List.eraseDups_append, honce, h.removeAll, eraseDups_map_of_injective hinj,
        inheritedColumns_cons]

/-- No inherited column is taken for one of the type's own table. -/
theorem selectsOwn_chained {d : Descriptor} {ancestors : List Ancestor}
    (h : Distinguished d ancestors) : selectsOwn (chained d ancestors) = false := by
  rw [selectsOwn, names_chained h, table_chained, List.any_eq_false]
  intro name hname hown
  obtain ⟨a, ha, column, hcolumn, rfl⟩ := mem_inheritedColumns.mp hname
  obtain ⟨rest, hrest⟩ := List.isPrefixOf_iff_prefix.mp hown
  have hchars : a.table.toList ++ '.' :: column.toList = d.table.toList ++ '.' :: rest := by
    simpa using hrest.symm
  have hsame := (List.append_cons_inj_of_notMem (h.undotted a ha)
    (h.columns a ha column hcolumn).2).mp hchars
  exact h.table_ne ha (String.toList_inj.mp hsame.1.symm)

/-! ## The statement -/

theorem root_chained (d : Descriptor) (ancestors : List Ancestor) :
    (chained d ancestors).filter.root = none := by
  rw [filter_chained]
  rfl

theorem headText_chained {d : Descriptor} {ancestors : List Ancestor}
    (h : Distinguished d ancestors) :
    headText (chained d ancestors) = "SELECT SQL_CALC_FOUND_ROWS "
      ++ String.intercalate ", " ((quote d.table ++ ".*") :: (inheritedColumns ancestors).map quote)
      ++ " FROM " ++ quote d.table
      ++ String.join ((List.zipWith ancestorClause (d :: ancestors.map Ancestor.toDescriptor)
        ancestors).map joinText) := by
  have hcolumns : columnList (chained d ancestors)
      = (quote d.table ++ ".*") :: (inheritedColumns ancestors).map quote := by
    rw [columnList, selectsOwn_chained h, names_chained h, table_chained]
    exact List.singleton_append
  unfold headText
  rw [hcolumns, joins_chained, table_chained]

theorem build_chained (d : Descriptor) (ancestors : List Ancestor) :
    (chained d ancestors).build = ⟨headText (chained d ancestors), ∅⟩ := by
  have htail : tailText (chained d ancestors) = "" := by
    rw [tailText, orderText, orders_chained, limitText, limit_chained]
    rfl
  rw [build, root_chained, htail, String.append_empty]

/-! ## Record types -/

theorem ofModel_eq (m : Model) :
    ofModel m = match m.chain.find? (fun d => !decide d.Valid) with
      | none => .ok (chained m.toDescriptor m.ancestors)
      | some invalid => .error invalid.fault :=
  ofChain_eq m.ancestors m.toDescriptor

theorem ofModel_eq_ok_iff {m : Model} {q : Select} :
    ofModel m = .ok q ↔ (∀ d ∈ m.chain, d.Valid) ∧ q = chained m.toDescriptor m.ancestors := by
  have hvalid : m.chain.find? (fun d => !decide d.Valid) = none ↔ ∀ d ∈ m.chain, d.Valid := by
    simp [List.find?_eq_none]
  rw [ofModel_eq, ← hvalid]
  cases m.chain.find? (fun d => !decide d.Valid) with
  | none => simp [eq_comm]
  | some invalid => simp

theorem ofModel_eq_error_iff {m : Model} {e : Error} :
    ofModel m = .error e ↔ ∃ earlier d later, m.chain = earlier ++ d :: later
      ∧ (∀ d' ∈ earlier, d'.Valid) ∧ ¬ d.Valid ∧ e = d.fault := by
  rw [ofModel_eq]
  constructor
  · intro h
    cases hfind : m.chain.find? (fun d => !decide d.Valid) with
    | none =>
        rw [hfind] at h
        cases h
    | some invalid =>
        rw [hfind] at h
        obtain ⟨hinvalid, earlier, later, hchain, hvalid⟩ := List.find?_eq_some_iff_append.mp hfind
        exact ⟨earlier, invalid, later, hchain, by simpa using hvalid, by simpa using hinvalid,
          (Except.error.inj h).symm⟩
  · rintro ⟨earlier, d, later, hchain, hvalid, hinvalid, rfl⟩
    have hfind : m.chain.find? (fun d => !decide d.Valid) = some d :=
      List.find?_eq_some_iff_append.mpr
        ⟨by simpa using hinvalid, earlier, later, hchain, by simpa using hvalid⟩
    rw [hfind]

/-- For a record type with any chain of ancestors:

* there is a query if and only if every descriptor of the chain is valid;
* otherwise the error is a missing configuration and names the nearest invalid descriptor;
* the query is bound to the type and joins each ancestor once, in the order of the chain, on the
  local key of the ancestor and the foreign key of the type right before it, and has neither a
  condition nor an order nor a limit;
* if the tables are distinct, neither they nor the ancestors' columns have points, and the columns
  have names, its statement selects the type's own table whole and then the distinct declared
  columns of the ancestors, the farthest first, each with its own table. -/
theorem query_of_chain (m : Model) :
    ((∃ q, ofModel m = .ok q) ↔ ∀ d ∈ m.chain, d.Valid)
      ∧ (∀ e, ofModel m = .error e ↔ ∃ earlier d later, m.chain = earlier ++ d :: later
        ∧ (∀ d' ∈ earlier, d'.Valid) ∧ ¬ d.Valid
        ∧ e = if d.table = "" then .missingTable d.name else .missingKey d.name)
      ∧ (∀ e, ofModel m = .error e → e.kind = .unconfigured)
      ∧ ∀ q, ofModel m = .ok q →
        let joins := List.zipWith (fun (child : Descriptor) (a : Ancestor) =>
          (⟨a.table, a.localKey, a.foreignKey, child.table⟩ : Join)) m.chain m.ancestors
        let columns := m.ancestors.reverse.flatMap fun a =>
          a.columns.eraseDups.map fun column => a.table ++ "." ++ column
        q.table = m.table ∧ q.model = some m ∧ q.joins = joins ∧ q.filter.root = none
          ∧ q.orders = ∅ ∧ q.limit = none
          ∧ ((m.chain.map Descriptor.table).Nodup → (∀ d ∈ m.chain, '.' ∉ d.table.toList) →
            (∀ a ∈ m.ancestors, ∀ column ∈ a.columns, column ≠ "" ∧ '.' ∉ column.toList) →
            q.build = ⟨"SELECT SQL_CALC_FOUND_ROWS "
              ++ String.intercalate ", " ((quote m.table ++ ".*") :: columns.map quote)
              ++ " FROM " ++ quote m.table ++ String.join (joins.map joinText), ∅⟩) := by
  refine ⟨?_, fun e => ofModel_eq_error_iff, fun e h => ?_, fun q h => ?_⟩
  · simp [ofModel_eq_ok_iff]
  · obtain ⟨-, d, -, -, -, -, rfl⟩ := ofModel_eq_error_iff.mp h
    exact d.kind_fault
  · obtain ⟨-, rfl⟩ := ofModel_eq_ok_iff.mp h
    refine ⟨table_chained _ _, model_chained _ _, joins_chained _ _, root_chained _ _,
      orders_chained _ _, limit_chained _ _, fun htables hundotted hcolumns => ?_⟩
    have hdistinct : Distinguished m.toDescriptor m.ancestors :=
      ⟨htables, fun a ha => hundotted _ (List.mem_cons_of_mem _ (List.mem_map_of_mem ha)), hcolumns⟩
    rw [build_chained, headText_chained hdistinct]
    rfl

/-- A type with two ancestors, one of which declares a column twice; and the same with the farthest
table missing. -/
theorem query_of_chain_of_two_ancestors :
    let thing : Ancestor := ⟨⟨"Thing", "thing", ["id"], ["id", "label", "id"]⟩, "id", "thing_id"⟩
    let animal : Ancestor := ⟨⟨"Animal", "animal", ["id"], ["id", "legs"]⟩, "id", "animal_id"⟩
    let cat : Model := ⟨⟨"Cat", "cat", ["id"], ["id", "name"]⟩, [animal, thing]⟩
    let nowhere : Ancestor := { thing with table := "" }
    (∀ d ∈ cat.chain, d.Valid) ∧ (cat.chain.map Descriptor.table).Nodup
      ∧ (∀ d ∈ cat.chain, '.' ∉ d.table.toList)
      ∧ (∀ a ∈ cat.ancestors, ∀ column ∈ a.columns, column ≠ "" ∧ '.' ∉ column.toList)
      ∧ (∃ q, ofModel cat = .ok q ∧ q.build.sql = "SELECT SQL_CALC_FOUND_ROWS "
        ++ "`cat`.*, `thing`.`id`, `thing`.`label`, `animal`.`id`, `animal`.`legs` FROM `cat`"
        ++ " INNER JOIN `animal` ON `animal`.`id` = `cat`.`animal_id`"
        ++ " INNER JOIN `thing` ON `thing`.`id` = `animal`.`thing_id`")
      ∧ ofModel { cat with ancestors := [animal, nowhere] } = .error (.missingTable "Thing") := by
  intro thing animal cat nowhere
  have hvalid : ∀ d ∈ cat.chain, d.Valid := by decide
  have htables : (cat.chain.map Descriptor.table).Nodup := by decide
  have hundotted : ∀ d ∈ cat.chain, '.' ∉ d.table.toList := by decide
  have hcolumns : ∀ a ∈ cat.ancestors, ∀ column ∈ a.columns, column ≠ "" ∧ '.' ∉ column.toList := by
    decide
  refine ⟨hvalid, htables, hundotted, hcolumns, ?_, ?_⟩
  · obtain ⟨hok, -, -, hquery⟩ := query_of_chain cat
    obtain ⟨q, hq⟩ := hok.mpr hvalid
    obtain ⟨-, -, -, -, -, -, hbuild⟩ := hquery q hq
    refine ⟨q, hq, ?_⟩
    rw [hbuild htables hundotted hcolumns]
    decide +kernel
  · obtain ⟨-, herror, -⟩ := query_of_chain { cat with ancestors := [animal, nowhere] }
    exact (herror _).mpr ⟨[cat.toDescriptor, animal.toDescriptor], nowhere.toDescriptor, [], rfl,
      by decide, by decide, rfl⟩

end Select

end RecordMapper
