import Mathlib.Data.List.Forall2
import RecordMapper.Blog.Basic
import RecordMapper.Engine.Recorded
import RecordMapper.Engine.Scripted
import RecordMapper.Proofs.Query.Ancestors
import RecordMapper.Proofs.Query.Inlining
import RecordMapper.Proofs.Query.Nesting
import RecordMapper.Proofs.Session

/-!
# The row of a record

Finding, saving and deleting each work out for themselves which row is meant: saving from a key
filter, deleting from a list of values, and finding from the key filter again with its columns
made to belong to the table. All three go back to the values of the key columns: an identifier is
put together out of them, and the key filter (`exists_keyFilter_identifier`) and the delete
(`deleteValues_identifier`) take it apart again, for a key of one column, whose value may be a
list itself, as for a key of several.

Without all the values there is no identifier, and then nothing is asked of the engine.
-/

namespace RecordMapper

open Session

/-! ## Filters that pin columns to values -/

namespace Filter.Node

/-- Comparisons under AND and under no other connective. -/
def Conjunctive : Node → Prop
  | .comparison _ _ _ => True
  | .logical op left right => op = .and ∧ left.Conjunctive ∧ right.Conjunctive

/-- The columns are to equal the values, all of them, in this order, and nothing else is asked. -/
structure Pins (pairs : List (String × Value)) (node : Node) : Prop where
  conjunctive : node.Conjunctive
  comparisons : node.comparisons = pairs.map fun p => .binary p.1 "=" p.2

theorem Pins.binary (column : String) (v : Value) :
    (Node.binary column "=" v).Pins [(column, v)] :=
  ⟨trivial, rfl⟩

theorem Pins.and {pairs pairs' : List (String × Value)} {left right : Node}
    (hleft : left.Pins pairs) (hright : right.Pins pairs') :
    (logical .and left right).Pins (pairs ++ pairs') where
  conjunctive := ⟨rfl, hleft.conjunctive, hright.conjunctive⟩
  comparisons := by
    rw [Node.comparisons, hleft.comparisons, hright.comparisons, List.map_append]

theorem Pins.joinKeys {pairs : List (String × Value)} {node : Node} (h : node.Pins pairs) :
    ∀ more : List (String × Value), (Descriptor.joinKeys node more).Pins (pairs ++ more) := by
  intro more
  induction more generalizing pairs node with
  | nil =>
      rw [List.append_nil]
      exact h
  | cons p more ih =>
      have hall := ih (h.and (.binary p.1 p.2))
      rwa [List.append_assoc, List.singleton_append] at hall

theorem conjunctive_qualify {table : String} {node : Node} (h : node.Conjunctive) :
    (node.qualify table).Conjunctive := by
  induction node with
  | comparison field operator operand => trivial
  | logical op left right ihl ihr => exact ⟨h.1, ihl h.2.1, ihr h.2.2⟩

theorem comparisons_qualify (table : String) (node : Node) :
    (node.qualify table).comparisons = node.comparisons.map (qualify table) := by
  induction node with
  | comparison field operator operand => rfl
  | logical op left right ihl ihr =>
      rw [qualify, comparisons, ihl, ihr, comparisons, List.map_append]

theorem operators_eq_flatMap (node : Node) :
    node.operators = node.comparisons.flatMap operators := by
  induction node with
  | comparison field operator operand => rfl
  | logical op left right ihl ihr => rw [operators, ihl, ihr, comparisons, List.flatMap_append]

theorem operands_eq_flatMap (node : Node) :
    Query.operands node = node.comparisons.flatMap Query.operands := by
  induction node with
  | comparison field operator operand => exact (List.append_nil _).symm
  | logical op left right ihl ihr =>
      rw [Query.operands, ihl, ihr, comparisons, List.flatMap_append]

theorem Pins.eq_of_mem_operators {pairs : List (String × Value)} {node : Node} (h : node.Pins pairs)
    {op : String} (hop : op ∈ node.operators) : op = "=" := by
  rw [operators_eq_flatMap, h.comparisons, List.flatMap_map, List.mem_flatMap] at hop
  obtain ⟨p, -, hmem⟩ := hop
  exact List.mem_singleton.mp hmem

theorem Pins.operands {pairs : List (String × Value)} {node : Node} (h : node.Pins pairs) :
    Query.operands node = pairs.map Prod.snd := by
  rw [operands_eq_flatMap, h.comparisons, List.flatMap_map, List.map_eq_flatMap]
  rfl

/-- The same values for the columns of the table. -/
theorem Pins.qualify {pairs : List (String × Value)} {node : Node} (h : node.Pins pairs)
    (table : String) :
    (node.qualify table).Pins (pairs.map fun p => (qualifyName table p.1, p.2)) where
  conjunctive := conjunctive_qualify h.conjunctive
  comparisons := by
    rw [comparisons_qualify, h.comparisons, List.map_map, List.map_map]
    rfl

end Filter.Node

/-! ## Key values -/

namespace Descriptor

/-- The fields have a value other than null in every key column. -/
def HasKey (d : Descriptor) (fields : Fields) : Prop :=
  ∀ column ∈ d.primaryKey, ∃ v, fields.get? column = some v ∧ v.isNull = false

/-- The fields have these values in the key columns, and none of them is null. -/
def KeyedBy (d : Descriptor) (fields : Fields) (values : List Value) : Prop :=
  List.Forall₂ (fun column v => fields.get? column = some v ∧ v.isNull = false) d.primaryKey values

theorem KeyedBy.length_eq {d : Descriptor} {fields : Fields} {values : List Value}
    (h : d.KeyedBy fields values) : values.length = d.primaryKey.length :=
  (List.Forall₂.length_eq h).symm

theorem keyValues?_eq_some_iff {d : Descriptor} {fields : Fields} {values : List Value} :
    d.keyValues? fields = some values ↔ d.KeyedBy fields values := by
  have hvalue : ∀ column v, (fields.get? column).filter (fun v => !v.isNull) = some v
      ↔ fields.get? column = some v ∧ v.isNull = false := by
    intro column v
    rw [Option.filter_eq_some_iff, Bool.not_eq_true']
  rw [keyValues?, KeyedBy]
  generalize d.primaryKey = columns
  induction columns generalizing values with
  | nil =>
      rw [List.mapM_nil, List.forall₂_nil_left_iff]
      exact ⟨fun h => (Option.some.inj h).symm, fun h => congrArg some h.symm⟩
  | cons column rest ih =>
      rw [List.mapM_cons, Option.bind_eq_bind, Option.bind_eq_some_iff, List.forall₂_cons_left_iff]
      constructor
      · rintro ⟨v, hv, h⟩
        obtain ⟨vs, hvs, h⟩ := Option.bind_eq_some_iff.mp h
        exact ⟨v, vs, (hvalue column v).mp hv, ih.mp hvs, (Option.some.inj h).symm⟩
      · rintro ⟨v, vs, hv, hvs, rfl⟩
        exact ⟨v, (hvalue column v).mpr hv, Option.bind_eq_some_iff.mpr ⟨vs, ih.mpr hvs, rfl⟩⟩

/-- There are key values if every key column is there and not null. -/
theorem exists_keyedBy_iff {d : Descriptor} {fields : Fields} :
    (∃ values, d.KeyedBy fields values) ↔ d.HasKey fields := by
  unfold KeyedBy HasKey
  generalize d.primaryKey = columns
  induction columns with
  | nil => exact ⟨fun _ column hcolumn => absurd hcolumn List.not_mem_nil, fun _ => ⟨[], .nil⟩⟩
  | cons column rest ih =>
      rw [List.forall_mem_cons, ← ih]
      constructor
      · rintro ⟨_, hall⟩
        cases hall with
        | cons hv hrest => exact ⟨⟨_, hv⟩, _, hrest⟩
      · rintro ⟨⟨v, hv⟩, values, hrest⟩
        exact ⟨v :: values, .cons hv hrest⟩

/-! ## Identifiers -/

/-- The identifier with these key values: one value is the identifier itself, also if it is a list,
and several are put into a list. -/
def identifier : List Value → Value
  | [v] => v
  | values => .list values

theorem id?_of_keyedBy {d : Descriptor} {fields : Fields} {values : List Value}
    (h : d.KeyedBy fields values) : d.id? fields = some (identifier values) := by
  rw [id?, keyValues?_eq_some_iff.mpr h]
  rfl

theorem id?_of_not_keyedBy {d : Descriptor} {fields : Fields}
    (h : ¬ ∃ values, d.KeyedBy fields values) : d.id? fields = none := by
  cases hvalues : d.keyValues? fields with
  | none => rw [id?, hvalues]; rfl
  | some values => exact absurd ⟨values, keyValues?_eq_some_iff.mp hvalues⟩ h

theorem KeyedBy.identifier_notNull {d : Descriptor} {fields : Fields} {values : List Value}
    (h : d.KeyedBy fields values) : (identifier values).isNull = false := by
  match values with
  | [] => rfl
  | [v] =>
      obtain ⟨_, _, hv, -, -⟩ := List.forall₂_cons_right_iff.mp h
      exact hv.2
  | _ :: _ :: _ => rfl

/-- The key filter takes the identifier apart again. -/
theorem exists_keyFilter_identifier {d : Descriptor} (hvalid : d.Valid) {values : List Value}
    (hlength : values.length = d.primaryKey.length) :
    ∃ key, d.keyFilter (identifier values) = .ok key ∧ key.Pins (d.primaryKey.zip values) := by
  have hok : d.validate = .ok () := by rw [validate_eq, if_pos hvalid]
  obtain ⟨name, table, primaryKey, columns⟩ := d
  match primaryKey, values, hlength with
  | [], _, _ => exact absurd rfl hvalid.key
  | [column], [v], _ =>
      refine ⟨.binary column "=" v, ?_, .binary column v⟩
      unfold keyFilter
      rw [hok]
      rfl
  | column :: column' :: rest, v :: v' :: vs, hlength =>
      have hrest : (v' :: vs).length = (column' :: rest).length := Nat.succ.inj hlength
      refine ⟨joinKeys (.binary column "=" v) ((column' :: rest).zip (v' :: vs)), ?_,
        (Filter.Node.Pins.binary column v).joinKeys _⟩
      unfold keyFilter
      rw [hok]
      exact if_pos hrest

end Descriptor

namespace RecordType

variable {σ ρ : Type}

/-- So does a delete, if the key has several columns. -/
theorem deleteValues_identifier (t : RecordType ρ) {values : List Value}
    (hvalid : t.model.toDescriptor.Valid) (hlength : values.length = t.model.primaryKey.length) :
    t.deleteValues (Descriptor.identifier values) = values := by
  match values with
  | [] => exact absurd (List.length_eq_zero_iff.mp hlength.symm) hvalid.key
  | [v] =>
      have hone : ¬ 1 < t.model.primaryKey.length := by simp [← hlength]
      rw [Descriptor.identifier]
      cases v <;> simp [deleteValues, hone]
  | v :: v' :: vs =>
      have hseveral : 1 < t.model.primaryKey.length := by simp [← hlength]
      exact if_pos hseveral

end RecordType

/-! ## What the engine is asked -/

section Calls

variable {σ : Type}

/-- The row count is asked for by a statement, or by no call at all. -/
theorem Engine.calls_foundRows (db : Engine σ) (x : List Call × σ) :
    ∃ later, (db.recorded.foundRows.outcome x).2.1 = x.1 ++ later
      ∧ (later = [] ∨ later = [.query foundRowsSql]) := by
  have hcounter : db.recorded.counter = db.counter.map Session.beside := rfl
  rw [foundRows, hcounter]
  cases db.counter with
  | some count => exact ⟨[], (List.append_nil _).symm, .inl rfl⟩
  | none =>
      refine ⟨[.query foundRowsSql], ?_, .inr rfl⟩
      show ((db.recorded.query foundRowsSql >>= _).outcome x).2.1 = _
      rw [state_bind]
      · rfl
      · intro rows y
        cases total? rows <;> rfl

theorem Select.calls_execute (db : Engine σ) (q : Select) (x : List Call × σ) :
    ∃ later, ((q.execute db.recorded).outcome x).2.1
        = x.1 ++ .query (q.build.toSql db.escape) :: later
      ∧ (later = [] ∨ later = [.query Engine.foundRowsSql]) := by
  let sql := q.build.toSql db.escape
  have hquery : (db.recorded.query sql).outcome x = (((db.query sql).outcome x.2).1,
      (x.1 ++ [.query sql], ((db.query sql).outcome x.2).2)) := rfl
  rw [execute]
  show ∃ later, ((db.recorded.query sql >>= _).outcome x).2.1 = _ ∧ _
  rw [outcome_bind, hquery]
  cases ((db.query sql).outcome x.2).1 with
  | error e => exact ⟨[], rfl, .inl rfl⟩
  | ok rows =>
      obtain ⟨later, hlater, hasked⟩ := Engine.calls_foundRows db
        (x.1 ++ [.query sql], ((db.query sql).outcome x.2).2)
      refine ⟨later, ?_, hasked⟩
      dsimp only
      rw [state_bind (fun _ _ => rfl), hlater, List.append_assoc, List.singleton_append]

end Calls

/-- The query, asked for the one row that this is true of. -/
def Select.forKey (q : Select) (key : Filter.Node) : Select :=
  ((q.andWhere (some key)).withOffset 0).withLimit 1

/-! ## What the query shows -/

namespace Query

theorem tailText_forKey {q : Select} (horders : q.orders = ∅) (key : Filter.Node) :
    tailText (q.forKey key) = " LIMIT 0, 1" := by
  have hnone : (q.forKey key).orders = ∅ := horders
  have horder : orderText (q.forKey key) = "" := by
    rw [orderText, hnone]
    rfl
  have hlimit : limitText (q.forKey key) = " LIMIT " ++ (0 : Nat).repr ++ ", " ++ (1 : Nat).repr :=
    rfl
  rw [tailText, horder, hlimit]
  decide

theorem shownNames_forKey {q : Select} (horders : q.orders = ∅) {key node : Filter.Node}
    (hroot : (q.forKey key).filter.root = some node) :
    shownNames (q.forKey key) = headNames q ++ node.fields := by
  have hkeys : (q.forKey key).orders.keys = [] := by
    show q.orders.keys = []
    rw [horders]
    rfl
  rw [shownNames, Filter.fields, hroot, hkeys, List.append_nil]
  rfl

/-- The statement for the one row compares the columns with the values, and asks for nothing else,
unless some name that it shows looks like one of its placeholders. -/
theorem toSql_forKey_iff {q : Select} (horders : q.orders = ∅) {key node : Filter.Node}
    (hroot : (q.forKey key).filter.root = some node) {pairs : List (String × Value)}
    (hpins : node.Pins pairs) (escape : Value → String) :
    (q.forKey key).build.toSql escape
        = headText q ++ " WHERE " ++ inlinedCondition escape node ++ " LIMIT 0, 1"
      ↔ ∀ name ∈ shownNames (q.forKey key),
        ¬ Mentions (IsPlaceholder pairs.length) name.toList := by
  have hops : ∀ op ∈ (q.forKey key).filter.operatorTexts, ':' ∉ op.toList := by
    rw [Filter.operatorTexts, hroot]
    intro op hop
    rw [hpins.eq_of_mem_operators hop]
    decide
  have hbound : (bound (q.forKey key)).length = pairs.length := by
    rw [bound, hroot]
    simp only [hpins.operands, List.length_map]
  have hinlined : (q.forKey key).inlined escape
      = headText q ++ " WHERE " ++ inlinedCondition escape node ++ " LIMIT 0, 1" := by
    rw [Select.inlined, hroot, ← tailText_forKey horders key]
    rfl
  rw [← hinlined, toSql_build_eq_iff escape _ hops, known_valueTexts_eq, hbound]

end Query

namespace RecordType

variable {σ ρ : Type} [Entity ρ] {t : RecordType ρ} {db : Engine σ}

/-! ## Saving and deleting -/

omit [Entity ρ] in
theorem outcome_react {r : ρ} (hhooks : ∀ e, (t.handle e).outcome r = (.ok (), r)) (e : Event)
    (s : σ) : (t.react e).outcome (r, s) = (.ok (), (r, s)) := by
  show (((t.handle e).outcome r).1, (((t.handle e).outcome r).2, s)) = _
  rw [hhooks]

omit [Entity ρ] in
/-- A change of the row with the event behind it. -/
theorem outcome_change {r : ρ} (hhooks : ∀ e, (t.handle e).outcome r = (.ok (), r))
    (change : Session σ UInt64) (e : Event) (s : σ) :
    (do
      let affected ← change.beside
      t.react e
      pure affected : Session (ρ × σ) UInt64).outcome (r, s)
      = ((change.outcome s).1, (r, (change.outcome s).2)) := by
  obtain ⟨result, s', hchange⟩ := change.exists_outcome s
  rw [outcome_bind, outcome_beside, hchange]
  cases result with
  | error e => rfl
  | ok affected => exact outcome_bind_of_ok (outcome_react hhooks e s') _

section Changes

variable {r : ρ} (hhooks : ∀ e, (t.handle e).outcome r = (.ok (), r)) (db : Engine σ) (s : σ)
include hhooks

omit [Entity ρ] in
/-- The event in front leaves the record to what follows. -/
theorem outcome_react_own (e : Event) {α : Type} (f : ρ → Session (ρ × σ) α) :
    (do
      t.react e
      let r ← Session.own
      f r).outcome (r, s) = (f r).outcome (r, s) := by
  rw [outcome_bind_of_ok (outcome_react hhooks e s), outcome_bind, outcome_own]

theorem outcome_save {id : Value} (hid : Entity.id? r = some id) {key : Filter.Node}
    (hkey : t.model.keyFilter id = .ok key) :
    let updated := (db.update t.model.table (Entity.fields r) key).outcome s
    (t.save db).outcome (r, s) = (updated.1, (r, updated.2)) := by
  rw [save, outcome_react_own hhooks]
  simp only [hid]
  rw [outcome_bind, outcome_settle, hkey]
  exact outcome_change hhooks _ _ _

theorem outcome_delete {id : Value} (hid : Entity.id? r = some id) :
    let deleted := (db.delete t.model.table t.model.primaryKey (t.deleteValues id)).outcome s
    (t.delete db).outcome (r, s) = (deleted.1, (r, deleted.2)) := by
  rw [delete, outcome_react_own hhooks]
  simp only [hid]
  exact outcome_change hhooks _ _ _

theorem outcome_save_of_none (hid : Entity.id? r = none) :
    (t.save db).outcome (r, s) = (.error (.unidentified "save" t.model.name), (r, s)) := by
  rw [save, outcome_react_own hhooks]
  simp only [hid]
  rfl

theorem outcome_save_of_error {id : Value} (hid : Entity.id? r = some id) {e : Error}
    (hkey : t.model.keyFilter id = .error e) :
    (t.save db).outcome (r, s) = (.error e, (r, s)) := by
  rw [save, outcome_react_own hhooks]
  simp only [hid]
  rw [outcome_bind, outcome_settle, hkey]

theorem outcome_delete_of_none (hid : Entity.id? r = none) :
    (t.delete db).outcome (r, s) = (.error (.unidentified "delete" t.model.name), (r, s)) := by
  rw [delete, outcome_react_own hhooks]
  simp only [hid]
  rfl

end Changes

/-! ## Finding -/

omit [Entity ρ] in
theorem root_forKey {q : Select} (hselect : t.select = .ok q) (key : Filter.Node) :
    (q.forKey key).filter.root = some (key.qualify t.model.table) := by
  obtain ⟨-, rfl⟩ := Select.ofModel_eq_ok_iff.mp hselect
  show ((Select.chained _ _).filter.append .and _).root = _
  rw [Filter.append_of_root_none (Select.root_chained _ _), Select.table_chained]
  rfl

omit [Entity ρ] in
theorem model_forKey {q : Select} (hselect : t.select = .ok q) (key : Filter.Node) :
    (q.forKey key).model = some t.model := by
  obtain ⟨-, rfl⟩ := Select.ofModel_eq_ok_iff.mp hselect
  exact Select.model_chained _ _

omit [Entity ρ] in
theorem table_select {q : Select} (hselect : t.select = .ok q) : q.table = t.model.table := by
  obtain ⟨-, rfl⟩ := Select.ofModel_eq_ok_iff.mp hselect
  exact Select.table_chained _ _

omit [Entity ρ] in
theorem orders_select {q : Select} (hselect : t.select = .ok q) : q.orders = ∅ := by
  obtain ⟨-, rfl⟩ := Select.ofModel_eq_ok_iff.mp hselect
  exact Select.orders_chained _ _

/-- Null and the empty text name no record. -/
theorem nameless_iff {id : Value} :
    (id.isNull || id.asText? == some "") = true ↔ id.isNull = true ∨ id = .text "" := by
  have htext : id.asText? = some "" ↔ id = .text "" := by
    cases id <;> simp [Value.asText?]
  simp [htext]

/-- Null and the empty text aside, the identifier is looked up. -/
theorem outcome_find {id : Value} (hnull : id.isNull = false) (htext : id ≠ .text "")
    {key : Filter.Node} (hkey : t.model.keyFilter id = .ok key) (db : Engine σ) (s : σ) :
    (t.find db id).outcome s = (do
      let q ← Session.settle t.select
      match ← (q.andWhere (some key)).first db t.toLoader with
      | some r => pure r
      | none => throw (.noSuchRecord t.model.name id.key) : Session σ ρ).outcome s := by
  have hgiven : ¬ (id.isNull || id.asText? == some "") = true := by
    rw [nameless_iff]
    simp [hnull, htext]
  unfold find
  dsimp only
  rw [if_neg hgiven, hkey]
  rfl

theorem calls_find {q : Select} (hselect : t.select = .ok q) {id : Value}
    (hnull : id.isNull = false) (htext : id ≠ .text "") {key : Filter.Node}
    (hkey : t.model.keyFilter id = .ok key) (db : Engine σ) (x : List Call × σ) :
    ∃ later, ((t.find db.recorded id).outcome x).2.1
        = x.1 ++ .query ((q.forKey key).build.toSql db.escape) :: later
      ∧ (later = [] ∨ later = [.query Engine.foundRowsSql]) := by
  have hlast : ∀ (found : Option ρ) (y : List Call × σ), ((match found with
      | some r => pure r
      | none => throw (.noSuchRecord t.model.name id.key) : Session _ ρ).outcome y).2 = y := by
    intro found y
    cases found <;> rfl
  have hstate : ((t.find db.recorded id).outcome x).2
      = (((q.forKey key).execute db.recorded).outcome x).2 := by
    rw [outcome_find hnull htext hkey, hselect, outcome_bind, outcome_settle]
    dsimp only
    rw [state_bind hlast, Select.first, state_bind fun _ _ => rfl]
    show (((q.forKey key).get db.recorded t.toLoader).outcome x).2 = _
    rw [Select.get_eq_fetch (model_forKey hselect key), Select.fetch, state_bind]
    exact fun found y => congrArg Prod.snd (outcome_settle _ y)
  rw [hstate]
  exact Select.calls_execute db (q.forKey key) x

/-! ## One row -/

/-- A type with a table and a key, whose events leave the record alone as they do by default.

If every key column of the record is there and not null, these values make the identifier, and
three operations go by them. Saving makes one call, which updates the record's table with all of its
fields, where the key columns have the values. Deleting makes one call, with the key columns and the
values. Finding the identifier asks for the same columns of the table with the same values, all of
them and nothing else, and apart from the row count that is its only call; the text of the
statement says so unless a name in it looks like a placeholder. If an ancestor has no
table or no key there is nothing to ask, and it makes none.

If a key column is missing or null, saving and deleting are misused, and make no call. -/
theorem addresses_one_row (db : Engine σ) (t : RecordType ρ)
    (hvalid : t.model.toDescriptor.Valid) (r : ρ) (hr : Entity.model r = t.model)
    (hhooks : ∀ e, (t.handle e).outcome r = (.ok (), r)) (calls : List Call) (s : σ) :
    let table := t.model.table
    let columns := t.model.primaryKey
    let identified := ∀ column ∈ columns, ∃ v, Entity.get? r column = some v ∧ v.isNull = false
    (identified → ∃ values id key,
        List.Forall₂ (fun column v => Entity.get? r column = some v) columns values
          ∧ Entity.id? r = some id ∧ t.model.keyFilter id = .ok key
          ∧ key.Pins (columns.zip values)
          ∧ (let updated := (db.update table (Entity.fields r) key).outcome s
            (t.save db.recorded).outcome (r, (calls, s))
              = (updated.1, (r, (calls ++ [.update table (Entity.fields r) key], updated.2))))
          ∧ (let deleted := (db.delete table columns values).outcome s
            (t.delete db.recorded).outcome (r, (calls, s))
              = (deleted.1, (r, (calls ++ [.delete table columns values], deleted.2))))
          ∧ (id ≠ .text "" →
            ((∀ d ∈ t.model.chain, d.Valid) → ∃ q later, t.select = .ok q
              ∧ (q.forKey key).filter.root = some (key.qualify table)
              ∧ (key.qualify table).Pins
                ((columns.map (Filter.qualifyName table)).zip values)
              ∧ ((t.find db.recorded id).outcome (calls, s)).2.1
                = calls ++ .query ((q.forKey key).build.toSql db.escape) :: later
              ∧ (later = [] ∨ later = [.query Engine.foundRowsSql])
              ∧ ((q.forKey key).build.toSql db.escape = Query.headText q ++ " WHERE "
                  ++ Query.inlinedCondition db.escape (key.qualify table) ++ " LIMIT 0, 1"
                ↔ ∀ name ∈ Query.shownNames (q.forKey key),
                  ¬ Query.Mentions (Query.IsPlaceholder columns.length) name.toList))
            ∧ (¬ (∀ d ∈ t.model.chain, d.Valid) → ∃ e, t.select = .error e
              ∧ (t.find db.recorded id).outcome (calls, s) = (.error e, (calls, s)))))
      ∧ (¬ identified →
        (t.save db.recorded).outcome (r, (calls, s))
            = (.error (.unidentified "save" t.model.name), (r, (calls, s)))
          ∧ (t.delete db.recorded).outcome (r, (calls, s))
            = (.error (.unidentified "delete" t.model.name), (r, (calls, s)))) := by
  intro table columns identified
  have hid : Entity.id? r = t.model.id? (Entity.fields r) := by rw [Entity.id?, hr]
  constructor
  · intro hidentified
    obtain ⟨values, hvalues⟩ := Descriptor.exists_keyedBy_iff.mpr hidentified
    have hlength := hvalues.length_eq
    let id := Descriptor.identifier values
    have hown : Entity.id? r = some id := hid.trans (Descriptor.id?_of_keyedBy hvalues)
    have hnull : id.isNull = false := hvalues.identifier_notNull
    obtain ⟨key, hkey, hpins⟩ := Descriptor.exists_keyFilter_identifier hvalid hlength
    refine ⟨values, id, key, hvalues.imp fun _ _ h => h.1, hown, hkey, hpins, ?_, ?_,
      fun htext => ⟨fun hchain => ?_, fun hchain => ?_⟩⟩
    · exact outcome_save hhooks db.recorded (calls, s) hown hkey
    · have hdelete := outcome_delete hhooks db.recorded (calls, s) hown
      rw [deleteValues_identifier t hvalid hlength] at hdelete
      exact hdelete
    · have hselect : t.select = .ok _ := Select.ofModel_eq_ok_iff.mpr ⟨hchain, rfl⟩
      obtain ⟨later, hcalls, hlater⟩ := calls_find hselect hnull htext hkey db (calls, s)
      have hroot := root_forKey hselect key
      have hqualified : (key.qualify table).Pins
          ((columns.map (Filter.qualifyName table)).zip values) := by
        rw [List.zip_map_left]
        exact hpins.qualify table
      have hcount : ((columns.map (Filter.qualifyName table)).zip values).length
          = columns.length := by
        rw [List.length_zip, List.length_map, hlength, Nat.min_self]
      have hsql := Query.toSql_forKey_iff (orders_select hselect) hroot hqualified db.escape
      rw [hcount] at hsql
      exact ⟨_, later, hselect, hroot, hqualified, hcalls, hlater, hsql⟩
    · cases hselect : t.select with
      | ok q => exact absurd (Select.ofModel_eq_ok_iff.mp hselect).1 hchain
      | error e =>
          refine ⟨e, rfl, ?_⟩
          rw [outcome_find hnull htext hkey, hselect]
          rfl
  · intro hidentified
    have hnone : Entity.id? r = none := by
      rw [hid]
      exact Descriptor.id?_of_not_keyedBy fun h => hidentified (Descriptor.exists_keyedBy_iff.mp h)
    exact ⟨outcome_save_of_none hhooks db.recorded (calls, s) hnone,
      outcome_delete_of_none hhooks db.recorded (calls, s) hnone⟩

open Blog

/-- A membership, whose key has two columns. -/
theorem addresses_one_row_of_membership :
    let t := Kind.membership.recordType
    let fields : Fields :=
      .ofList [("role", .text "owner"), ("user_id", .int 4), ("group_id", .int 3)]
    let r : Record := ⟨.membership, fields, []⟩
    let id : Value := .list [.int 3, .int 4]
    t.model.toDescriptor.Valid ∧ Entity.model r = t.model
      ∧ (∀ e, (t.handle e).outcome r = (.ok (), r))
      ∧ (∀ column ∈ t.model.primaryKey,
        ∃ v, Entity.get? r column = some v ∧ v.isNull = false)
      ∧ id ≠ .text "" ∧ (∀ d ∈ t.model.chain, d.Valid)
      ∧ ∃ key, Entity.id? r = some id
        ∧ key.comparisons = [.binary "group_id" "=" (.int 3), .binary "user_id" "=" (.int 4)]
        ∧ (t.save Script.engine.recorded).outcome (r, ([], { affected := 1 }))
          = (.ok 1, (r, ([.update "membership" fields key], { affected := 1 })))
        ∧ (t.delete Script.engine.recorded).outcome (r, ([], { affected := 1 }))
          = (.ok 1, (r, ([.delete "membership" ["group_id", "user_id"] [.int 3, .int 4]],
              { affected := 1 })))
        ∧ ∃ later, ((t.find Script.engine.recorded id).outcome ([], { affected := 1 })).2.1
            = .query ("SELECT SQL_CALC_FOUND_ROWS `membership`.* FROM `membership` "
              ++ "WHERE (`membership`.`group_id` = '3' AND `membership`.`user_id` = '4') "
              ++ "LIMIT 0, 1") :: later
          ∧ (later = [] ∨ later = [.query "SELECT FOUND_ROWS() AS total;"]) := by
  intro t fields r id
  have hvalid : t.model.toDescriptor.Valid := by decide
  have hhooks : ∀ e, (t.handle e).outcome r = (.ok (), r) := fun e => rfl
  have hidentified : ∀ column ∈ t.model.primaryKey,
      ∃ v, Entity.get? r column = some v ∧ v.isNull = false :=
    List.forall_mem_cons.mpr ⟨⟨.int 3, rfl, rfl⟩, List.forall_mem_singleton.mpr ⟨.int 4, rfl, rfl⟩⟩
  have htext : id ≠ .text "" := nofun
  have hchain : ∀ d ∈ t.model.chain, d.Valid := List.forall_mem_singleton.mpr hvalid
  obtain ⟨hrow, -⟩ :=
    addresses_one_row Script.engine t hvalid r rfl hhooks [] { affected := 1 }
  obtain ⟨values, id', key', hvalues, hid, hkey, hpins, hsave, hdelete, hfind⟩ := hrow hidentified
  obtain ⟨v, rest, hv, hrest, rfl⟩ := List.forall₂_cons_left_iff.mp hvalues
  obtain ⟨v', rest', hv', hrest', rfl⟩ := List.forall₂_cons_left_iff.mp hrest
  obtain rfl : Value.int 3 = v := Option.some.inj hv
  obtain rfl : Value.int 4 = v' := Option.some.inj hv'
  cases hrest'
  obtain rfl : id = id' := Option.some.inj hid
  obtain ⟨q', later, hselect, -, -, hcalls, hlater, hsql⟩ := (hfind htext).1 hchain
  let q := Select.chained t.model.toDescriptor []
  let key : Filter.Node :=
    .logical .and (.binary "group_id" "=" (.int 3)) (.binary "user_id" "=" (.int 4))
  obtain rfl : q = q' := Except.ok.inj hselect
  obtain rfl : key = key' := Except.ok.inj hkey
  have hnames : ∀ name ∈ Query.shownNames (q.forKey key), (!name.toList.contains ':') = true :=
    List.all_eq_true.mp (by decide +kernel)
  have hwritten := hsql.mpr fun name hname =>
    Query.not_mentions_of_no_colon (by simpa using hnames name hname)
  have hstatement : Query.headText q ++ " WHERE "
      ++ Query.inlinedCondition Script.engine.escape (key.qualify t.model.table) ++ " LIMIT 0, 1"
      = "SELECT SQL_CALC_FOUND_ROWS `membership`.* FROM `membership` "
        ++ "WHERE (`membership`.`group_id` = '3' AND `membership`.`user_id` = '4') "
        ++ "LIMIT 0, 1" := by decide +kernel
  rw [hwritten, hstatement] at hcalls
  exact ⟨hvalid, rfl, hhooks, hidentified, htext, hchain, key, hid, hpins.comparisons, hsave,
    hdelete, later, hcalls, hlater⟩

end RecordType

end RecordMapper
