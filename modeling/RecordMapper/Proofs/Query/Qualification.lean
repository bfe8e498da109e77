import RecordMapper.Proofs.Filter.Tree
import RecordMapper.Proofs.Ordered
import RecordMapper.Proofs.Query.Reachable

/-!
# Names belong to a table from the start

A bare name is made to belong to the table of the query that it is given to, as soon as it is
given, and a name with a point is taken as it stands. After that no operation looks at it
again. A query that is joined hands over its columns and its condition as they are, and
nothing is ever taken out of either. So all names have a point, which leaves nothing for a
second qualification to do, and what was given to a query is found in every query that comes
of it (`Later`), through whatever joins, as a part of the condition whose shape, operators and
operands are those given (`qualified_where_given`).
-/

namespace RecordMapper

namespace Filter

/-! ## Qualified names -/

theorem isQualified_iff {name : String} : isQualified name = true ↔ '.' ∈ name.toList := by
  rw [isQualified, List.contains_iff_mem]

theorem qualifyName_eq (table name : String) :
    qualifyName table name = if '.' ∈ name.toList then name else table ++ "." ++ name := by
  simp only [qualifyName, isQualified_iff]

theorem point_mem_qualifyName (table name : String) : '.' ∈ (qualifyName table name).toList := by
  rw [qualifyName_eq]
  split
  · next h => exact h
  · simp

theorem qualifyName_of_point {name : String} (h : '.' ∈ name.toList) (table : String) :
    qualifyName table name = name := by
  rw [qualifyName_eq, if_pos h]

namespace Node

/-- The tree without its fields: the shape, the operators and the operands. -/
def unnamed : Node → Node
  | .comparison _ operator operand => .comparison "" operator operand
  | .logical op left right => .logical op left.unnamed right.unnamed

theorem unnamed_qualify (table : String) (node : Node) :
    (node.qualify table).unnamed = node.unnamed := by
  induction node with
  | comparison field operator operand => rfl
  | logical op left right ihl ihr => rw [qualify, unnamed, ihl, ihr, unnamed]

/-- A tree whose fields all belong to tables is not changed by any table. -/
theorem qualify_of_points {node : Node} (h : ∀ field ∈ node.fields, '.' ∈ field.toList)
    (table : String) : node.qualify table = node := by
  induction node with
  | comparison field operator operand =>
      rw [qualify, qualifyName_of_point (h field (List.mem_singleton_self field))]
  | logical op left right ihl ihr =>
      rw [qualify, ihl fun field hfield => h field (List.mem_append_left _ hfield),
        ihr fun field hfield => h field (List.mem_append_right _ hfield)]

theorem point_mem_of_mem_fields_qualify {table field : String} {node : Node}
    (h : field ∈ (node.qualify table).fields) : '.' ∈ field.toList := by
  rw [fields_qualify] at h
  obtain ⟨name, -, rfl⟩ := List.mem_map.mp h
  exact point_mem_qualifyName table name

/-- `part` stands somewhere in the tree. -/
inductive Within (part : Node) : Node → Prop
  | whole : Within part part
  | left {op : Connective} {left right : Node} : Within part left →
      Within part (.logical op left right)
  | right {op : Connective} {left right : Node} : Within part right →
      Within part (.logical op left right)

theorem Within.trans {part node whole : Node} (h : part.Within node) (h' : node.Within whole) :
    part.Within whole := by
  induction h' with
  | whole => exact h
  | left _ ih => exact .left ih
  | right _ ih => exact .right ih

end Node

theorem qualify_of_points {f : Filter} (h : ∀ field ∈ f.fields, '.' ∈ field.toList)
    (table : String) : f.qualify table = f := by
  obtain ⟨root⟩ := f
  cases root with
  | none => rfl
  | some node =>
      exact congrArg (fun node => (⟨some node⟩ : Filter)) (Node.qualify_of_points h table)

/-- The condition of `f`, if it has one, stands in that of `f'`. -/
def Within (f f' : Filter) : Prop :=
  ∀ root, f.root = some root → ∃ root', f'.root = some root' ∧ root.Within root'

theorem Within.refl (f : Filter) : f.Within f := fun root h => ⟨root, h, .whole⟩

theorem Within.trans {f f' f'' : Filter} (h : f.Within f') (h' : f'.Within f'') :
    f.Within f'' := by
  intro root hroot
  obtain ⟨root', hroot', hpart⟩ := h root hroot
  obtain ⟨root'', hroot'', hpart'⟩ := h' root' hroot'
  exact ⟨root'', hroot'', hpart.trans hpart'⟩

theorem within_append (f : Filter) (op : Connective) (node : Option Node) :
    f.Within (f.append op node) := by
  cases node with
  | none => exact .refl f
  | some node =>
      intro root hroot
      rw [append, push, hroot]
      exact ⟨_, rfl, .left .whole⟩

/-- What is pushed stands in the filter, as its root or below it. -/
theorem root_within_append (f : Filter) (op : Connective) (node : Option Node) :
    (Filter.mk node).Within (f.append op node) := by
  rintro root rfl
  rw [append, push]
  cases f.root with
  | none => exact ⟨root, rfl, .whole⟩
  | some before => exact ⟨.logical op before root, rfl, .right .whole⟩

end Filter

namespace Select

open RecordMapper.Filter

/-! ## All names -/

theorem mem_columns_select {q : Select} {names : List String} {name : String} :
    name ∈ (q.select names).columns.names ↔ name ∈ q.columns.names
      ∨ ∃ given ∈ names, given ≠ "" ∧ name = qualifyName q.table given := by
  rw [select, NameSet.mem_names_insertAll]
  refine or_congr Iff.rfl ?_
  simp only [List.mem_map, List.mem_filter, Bool.not_eq_true', String.isEmpty_eq_false_iff]
  constructor
  · rintro ⟨given, ⟨hmem, hne⟩, rfl⟩
    exact ⟨given, hmem, hne, rfl⟩
  · rintro ⟨given, hmem, hne, rfl⟩
    exact ⟨given, ⟨hmem, hne⟩, rfl⟩

theorem fields_append_qualified (q : Select) (op : Connective) (node : Option Node) :
    (q.append op node).filter.fields
      = q.filter.fields ++ (node.elim [] Node.fields).map (qualifyName q.table) := by
  rw [append, fields_append]
  cases node with
  | none => rfl
  | some node => exact congrArg (q.filter.fields ++ ·) (node.fields_qualify q.table)

/-- Every field of the condition and every column has a point. -/
def Pointed (q : Select) : Prop :=
  (∀ field ∈ q.filter.fields, '.' ∈ field.toList) ∧ ∀ name ∈ q.columns.names, '.' ∈ name.toList

theorem Pointed.append {q : Select} (h : Pointed q) (op : Connective) (node : Option Node) :
    Pointed (q.append op node) := by
  refine ⟨fun field hfield => ?_, h.2⟩
  rw [fields_append_qualified, List.mem_append] at hfield
  rcases hfield with hfield | hfield
  · exact h.1 field hfield
  · obtain ⟨name, -, rfl⟩ := List.mem_map.mp hfield
    exact point_mem_qualifyName q.table name

theorem kept_pointed : Kept Pointed where
  ofTable table model := by
    constructor
    · intro field h
      cases h
    · intro name h
      cases h
  select {q} names h := by
    refine ⟨h.1, fun name hname => ?_⟩
    rcases mem_columns_select.mp hname with hname | ⟨given, -, -, rfl⟩
    · exact h.2 name hname
    · exact point_mem_qualifyName q.table given
  append op node h := h.append op node
  joinTable _ _ _ h := h
  joinQuery {q other} localKey foreignKey h hother := by
    refine ⟨fun field hfield => ?_, fun name hname => ?_⟩
    · rw [joinOn, fields_append, List.mem_append] at hfield
      exact hfield.elim (h.1 field) (hother.1 field)
    · rw [joinOn, NameSet.mem_names_insertAll] at hname
      exact hname.elim (h.2 name) (hother.2 name)
  order _ _ h := h
  withOffset _ h := h
  withLimit _ h := h
  paginate p h := h.append .and p.filter.root

/-! ## Later queries -/

/-- The query comes of `q` by operations, on it or on the queries that it was joined into. -/
inductive Later (q : Select) : Select → Prop
  | refl : Later q q
  | select {q' : Select} (names : List String) : Later q q' → Later q (q'.select names)
  | andWhere {q' : Select} (node : Option Node) : Later q q' → Later q (q'.andWhere node)
  | orWhere {q' : Select} (node : Option Node) : Later q q' → Later q (q'.orWhere node)
  | joinOn {q' : Select} (target : JoinTarget) (localKey foreignKey : String) : Later q q' →
      Later q (q'.joinOn target localKey foreignKey)
  | joinedInto {q' : Select} (base : Select) (localKey foreignKey : String) : Later q q' →
      Later q (base.joinOn (.query q') localKey foreignKey)
  | order {q' : Select} (field : String) (direction : Query.Direction) : Later q q' →
      Later q (q'.order field direction)
  | withOffset {q' : Select} (offset : Nat) : Later q q' → Later q (q'.withOffset offset)
  | withLimit {q' : Select} (limit : Int) : Later q q' → Later q (q'.withLimit limit)
  | paginate {q' : Select} (p : Pagination) : Later q q' → Later q (q'.paginate p)

/-- `q'` has all columns of `q`, and its condition contains that of `q`. -/
structure Keeps (q q' : Select) : Prop where
  columns : ∀ name ∈ q.columns.names, name ∈ q'.columns.names
  filter : q.filter.Within q'.filter

theorem Keeps.refl (q : Select) : Keeps q q := ⟨fun _ h => h, .refl q.filter⟩

theorem Keeps.trans {q q' q'' : Select} (h : Keeps q q') (h' : Keeps q' q'') : Keeps q q'' :=
  ⟨fun name hname => h'.columns name (h.columns name hname), h.filter.trans h'.filter⟩

theorem keeps_append (q : Select) (op : Connective) (node : Option Node) :
    Keeps q (q.append op node) :=
  ⟨fun _ h => h, within_append q.filter op _⟩

theorem keeps_joinOn (q : Select) (target : JoinTarget) (localKey foreignKey : String) :
    Keeps q (q.joinOn target localKey foreignKey) := by
  cases target with
  | table _ => exact ⟨fun _ h => h, .refl q.filter⟩
  | query other =>
      exact ⟨fun _ h => NameSet.mem_names_insertAll.mpr (.inl h), within_append q.filter .and _⟩

/-- A query that is joined is taken over whole. -/
theorem keeps_joined (base q : Select) (localKey foreignKey : String) :
    Keeps q (base.joinOn (.query q) localKey foreignKey) :=
  ⟨fun _ h => NameSet.mem_names_insertAll.mpr (.inr h),
    root_within_append base.filter .and q.filter.root⟩

theorem Later.keeps {q q' : Select} (h : Later q q') : Keeps q q' := by
  induction h with
  | refl => exact .refl q
  | select names _ ih =>
      exact ih.trans ⟨fun name hname => mem_columns_select.mpr (.inl hname), .refl _⟩
  | andWhere node _ ih => exact ih.trans (keeps_append _ .and node)
  | orWhere node _ ih => exact ih.trans (keeps_append _ .or node)
  | joinOn target localKey foreignKey _ ih =>
      exact ih.trans (keeps_joinOn _ target localKey foreignKey)
  | joinedInto base localKey foreignKey _ ih =>
      exact ih.trans (keeps_joined base _ localKey foreignKey)
  | order _ _ _ ih => exact ⟨ih.columns, ih.filter⟩
  | withOffset _ _ ih => exact ⟨ih.columns, ih.filter⟩
  | withLimit _ _ ih => exact ⟨ih.columns, ih.filter⟩
  | paginate p _ ih =>
      have hkept := ih.trans (keeps_append _ .and p.filter.root)
      exact ⟨hkept.columns, hkept.filter⟩

/-! ## Given names -/

/-- The query right after a condition was given to `q`, by a page or by itself. -/
inductive Given (q : Select) (node : Node) : Select → Prop
  | andWhere : Given q node (q.andWhere (some node))
  | orWhere : Given q node (q.orWhere (some node))
  | paginate (p : Pagination) : p.filter.root = some node → Given q node (q.paginate p)

theorem Given.within {q q' : Select} {node : Node} (h : Given q node q') :
    ∃ root, q'.filter.root = some root ∧ (node.qualify q.table).Within root := by
  have happend : ∀ op, ∃ root, (q.append op (some node)).filter.root = some root
      ∧ (node.qualify q.table).Within root :=
    fun op => root_within_append q.filter op (some (node.qualify q.table)) _ rfl
  cases h with
  | andWhere => exact happend .and
  | orWhere => exact happend .or
  | paginate p hp =>
      rw [Select.paginate, hp]
      exact happend .and

/-- In any query that can be built, all fields of the condition and all columns have a point, and
no table changes the condition by qualifying it again.

A bare name is given the table of the query, and a name with a point is left alone. The columns that
a selection adds are the names given to it, so treated, apart from the empty text, which is no
name. They are columns of every later query. A condition that is given to the query, by
itself or by a page, is part of the condition of every later query, its fields so treated in
their places, and its shape, operators and operands as they were. -/
theorem qualified_where_given {q : Select} (h : Reachable q) :
    ((∀ field ∈ q.filter.fields, '.' ∈ field.toList)
        ∧ (∀ name ∈ q.columns.names, '.' ∈ name.toList)
        ∧ ∀ table, q.filter.qualify table = q.filter)
      ∧ (∀ table name, qualifyName table name
        = if '.' ∈ name.toList then name else table ++ "." ++ name)
      ∧ (∀ names name, name ∈ (q.select names).columns.names
        ↔ name ∈ q.columns.names ∨ ∃ given ∈ names, given ≠ "" ∧ name = qualifyName q.table given)
      ∧ (∀ names q', Later (q.select names) q' → ∀ given ∈ names, given ≠ "" →
        qualifyName q.table given ∈ q'.columns.names)
      ∧ ∀ node q₁ q', Given q node q₁ → Later q₁ q' →
        ∃ part root : Node, q'.filter.root = some root ∧ part.Within root
          ∧ part.fields = node.fields.map (qualifyName q.table) ∧ part.unnamed = node.unnamed
          ∧ ∀ table, part.qualify table = part := by
  have hpointed : Pointed q := kept_pointed.of_reachable h
  refine ⟨⟨hpointed.1, hpointed.2, qualify_of_points hpointed.1⟩, qualifyName_eq,
    fun names name => mem_columns_select, fun names q' hlater given hmem hne => ?_,
    fun node q₁ q' hgiven hlater => ?_⟩
  · exact hlater.keeps.columns _ (mem_columns_select.mpr (.inr ⟨given, hmem, hne, rfl⟩))
  · obtain ⟨root₁, hroot₁, hpart⟩ := hgiven.within
    obtain ⟨root, hroot, hwithin⟩ := hlater.keeps.filter root₁ hroot₁
    exact ⟨node.qualify q.table, root, hroot, hpart.trans hwithin, node.fields_qualify q.table,
      node.unnamed_qualify q.table,
      Node.qualify_of_points fun field => Node.point_mem_of_mem_fields_qualify⟩

/-- Three tables with a column of one name, joined one into the other, and a page on top. -/
theorem qualified_where_given_of_nested :
    let tags := (ofTable "tag").andWhere (some (.binary "kind" "=" (.int 1)))
    let posts := ((ofTable "post").joinOn (.query (tags.select ["label"])) "post_id" "id").orWhere
      (some (.unary "kind" "IS NULL"))
    let q := ((ofTable "author").joinOn (.query posts) "author_id" "id").paginate
      ⟨⟨some (.binary "kind" "=" (.int 2))⟩, ∅, 0, none⟩
    q.filter.fields = ["tag.kind", "post.kind", "author.kind"]
      ∧ q.columns.names = ["tag.label"]
      ∧ (∀ table, q.filter.qualify table = q.filter)
      ∧ "tag.label" ∈ q.columns.names
      ∧ ∃ part root : Node, q.filter.root = some root ∧ part.Within root
        ∧ part.fields = ["tag.kind"] ∧ part.unnamed = .binary "" "=" (.int 1) := by
  intro tags posts q
  have htags : Reachable tags := .andWhere _ (.ofTable "tag")
  have hposts : Reachable posts :=
    .orWhere _ (.joinQuery _ _ (.ofTable "post") (.select _ htags))
  have hq : Reachable q := .paginate _ (.joinQuery _ _ (.ofTable "author") hposts)
  have hlater : Later (tags.select ["label"]) q :=
    .paginate _ (.joinedInto _ _ _ (.orWhere _ (.joinedInto _ _ _ .refl)))
  have hlater' : Later tags q :=
    .paginate _ (.joinedInto _ _ _ (.orWhere _ (.joinedInto _ _ _ (.select _ .refl))))
  obtain ⟨-, -, -, hselected, -⟩ := qualified_where_given htags
  obtain ⟨-, -, -, -, hgiven⟩ := qualified_where_given (.ofTable "tag")
  obtain ⟨part, root, hroot, hpart, hfields, hshape, -⟩ :=
    hgiven (.binary "kind" "=" (.int 1)) tags q .andWhere hlater'
  exact ⟨by decide, by decide, (qualified_where_given hq).1.2.2,
    hselected ["label"] q hlater "label" (List.mem_singleton_self _) (by decide),
    part, root, hroot, hpart, hfields, hshape⟩

end Select

end RecordMapper
