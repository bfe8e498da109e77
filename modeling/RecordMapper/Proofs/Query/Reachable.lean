import RecordMapper.Pagination

/-!
# Queries that can be built

A query begins as one on a table, or as the one of a record type, and is then changed by the
operations, the joined queries having been built in the same way. What holds of the
first and is kept by each operation holds of all of them. The query of a record
type is itself built by joins, so nothing has to be shown of it but for the query that
is bound to the type and says nothing yet (`Kept.of_reachable`).
-/

namespace RecordMapper.Select

open Query

/-- The query is the outcome of operations, also within the queries that it joins. -/
inductive Reachable : Select → Prop
  | ofTable (table : String) : Reachable (.ofTable table)
  | ofModel {m : Model} {q : Select} : ofModel m = .ok q → Reachable q
  | select {q : Select} (names : List String) : Reachable q → Reachable (q.select names)
  | andWhere {q : Select} (node : Option Filter.Node) : Reachable q → Reachable (q.andWhere node)
  | orWhere {q : Select} (node : Option Filter.Node) : Reachable q → Reachable (q.orWhere node)
  | joinTable {q : Select} (table localKey foreignKey : String) : Reachable q →
      Reachable (q.joinOn (.table table) localKey foreignKey)
  | joinQuery {q other : Select} (localKey foreignKey : String) : Reachable q → Reachable other →
      Reachable (q.joinOn (.query other) localKey foreignKey)
  | order {q : Select} (field : String) (direction : Direction) : Reachable q →
      Reachable (q.order field direction)
  | withOffset {q : Select} (offset : Nat) : Reachable q → Reachable (q.withOffset offset)
  | withLimit {q : Select} (limit : Int) : Reachable q → Reachable (q.withLimit limit)
  | paginate {q : Select} (p : Pagination) : Reachable q → Reachable (q.paginate p)

theorem Reachable.join_table {q : Select} (h : Reachable q) (table key : String) :
    Reachable (q.join (.table table) key) :=
  .joinTable table key key h

/-- What holds of a query on a table, bound to a record type or not, and is kept by each
operation. -/
structure Kept (P : Select → Prop) : Prop where
  ofTable : ∀ table model, P { Select.ofTable table with model := model }
  select : ∀ {q} names, P q → P (q.select names)
  append : ∀ {q} op node, P q → P (q.append op node)
  joinTable : ∀ {q} table localKey foreignKey, P q →
    P (q.joinOn (.table table) localKey foreignKey)
  joinQuery : ∀ {q other} localKey foreignKey, P q → P other →
    P (q.joinOn (.query other) localKey foreignKey)
  order : ∀ {q} field direction, P q → P (q.order field direction)
  withOffset : ∀ {q} offset, P q → P (q.withOffset offset)
  withLimit : ∀ {q} limit, P q → P (q.withLimit limit)
  paginate : ∀ {q} p, P q → P (q.paginate p)

variable {P : Select → Prop}

theorem Kept.of_ofChain (h : Kept P) : ∀ {ancestors : List Ancestor} {d : Descriptor} {q : Select},
    ofChain d ancestors = .ok q → P q
  | [], d, q, hq => by
      rw [ofChain] at hq
      cases hvalid : d.validate with
      | error e =>
          rw [hvalid] at hq
          cases hq
      | ok _ =>
          rw [hvalid] at hq
          cases hq
          exact h.ofTable d.table _
  | parent :: rest, d, q, hq => by
      rw [ofChain] at hq
      cases hvalid : d.validate with
      | error e =>
          rw [hvalid] at hq
          cases hq
      | ok _ =>
          cases hinherited : ofChain parent.toDescriptor rest with
          | error e =>
              rw [hvalid, hinherited] at hq
              cases hq
          | ok inherited =>
              rw [hvalid, hinherited] at hq
              cases hq
              -- the type joins what its ancestor has built, not the ancestor's table
              have hparent := h.select parent.columns (h.of_ofChain hinherited)
              exact h.joinQuery _ _ (h.ofTable d.table _) hparent

theorem Kept.of_reachable (h : Kept P) {q : Select} (hq : Reachable q) : P q := by
  induction hq with
  | ofTable table => exact h.ofTable table none
  | ofModel hm => exact h.of_ofChain hm
  | select names _ ih => exact h.select names ih
  | andWhere node _ ih => exact h.append .and node ih
  | orWhere node _ ih => exact h.append .or node ih
  | joinTable table localKey foreignKey _ ih => exact h.joinTable table localKey foreignKey ih
  | joinQuery localKey foreignKey _ _ ih ihother => exact h.joinQuery localKey foreignKey ih ihother
  | order field direction _ ih => exact h.order field direction ih
  | withOffset offset _ ih => exact h.withOffset offset ih
  | withLimit limit _ ih => exact h.withLimit limit ih
  | paginate p _ ih => exact h.paginate p ih

end RecordMapper.Select
