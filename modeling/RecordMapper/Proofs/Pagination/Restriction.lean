import Mathlib
import RecordMapper.Proofs.Filter.Truth
import RecordMapper.Proofs.Pagination.Request
import RecordMapper.Proofs.Query.Layout

/-!
# A request only restricts

A query that has a condition already keeps it, whatever page is applied to it: the
conditions of the request are joined to the whole of it by AND
(`root_paginate`). So no request selects a row that the query would not select. In
the statement the earlier condition stands as it stood before, its placeholders
with the same numbers, and the values filed so far are still the first.
-/

namespace RecordMapper

open Query

namespace Query

theorem numbered_append : ∀ (first : Nat) (vs ws : List Value),
    numbered first (vs ++ ws) = numbered first vs ++ numbered (first + vs.length) ws
  | first, [], ws => rfl
  | first, v :: rest, ws => by
      rw [List.cons_append, numbered, numbered, numbered_append (first + 1) rest ws,
        List.cons_append, List.length_cons, Nat.add_right_comm, Nat.add_assoc]

end Query

namespace Select

variable {q : Select} {base : Filter.Node} (hbase : q.filter.root = some base) (p : Pagination)
include hbase

theorem root_paginate : (q.paginate p).filter.root
    = some (p.filter.root.elim base fun node => .logical .and base (node.qualify q.table)) := by
  rw [paginate, append]
  cases p.filter.root with
  | none => exact hbase
  | some node =>
      show ((q.filter.push .and (node.qualify q.table)).root) = _
      rw [Filter.push, hbase]
      rfl

theorem eval_paginate {root : Filter.Node} (hroot : (q.paginate p).filter.root = some root)
    {truth : String → String → Option Value → Truth} (h : root.eval truth = .holds) :
    base.eval truth = .holds := by
  rw [root_paginate hbase] at hroot
  obtain rfl := Option.some.inj hroot
  cases hsent : p.filter.root with
  | none =>
      rw [hsent] at h
      exact h
  | some node =>
      rw [hsent] at h
      exact (Filter.Node.eval_and_eq_holds_iff.mp h).1

/-- The condition of the page, in which the earlier one stands unchanged. -/
theorem sql_paginate : (q.paginate p).build.sql = headText q ++ " WHERE "
    ++ (p.filter.root.elim (condition 1 base) fun node =>
      "(" ++ condition 1 base ++ " AND "
        ++ condition (1 + (operands base).length) (node.qualify q.table) ++ ")")
    ++ tailText (q.paginate p) := by
  have hhead : headText (q.paginate p) = headText q := rfl
  rw [sql_build_of_some (root_paginate hbase p), hhead]
  cases p.filter.root with
  | none => rfl
  | some node =>
      have hand : " " ++ Connective.and.keyword ++ " " = " AND " := by decide
      rw [Option.elim_some, Option.elim_some, condition, ← hand]
      simp only [String.append_assoc]

theorem bound_prefix_paginate : bound q <+: bound (q.paginate p) := by
  rw [bound, bound, hbase, root_paginate hbase]
  cases p.filter.root with
  | none => exact List.prefix_rfl
  | some node => exact List.prefix_append _ _

theorem values_prefix_paginate :
    q.build.values.entries <+: (q.paginate p).build.values.entries := by
  rw [entries_values_build, entries_values_build]
  obtain ⟨sent, hsent⟩ := bound_prefix_paginate hbase p
  rw [← hsent, numbered_append]
  exact List.prefix_append _ _

end Select

open Pagination

/-- The page that a request asks for only restricts a query that has a condition. The tree
of the request is the encoded one and the field pairs under AND; it is joined to the
whole of the earlier tree, which therefore has to hold of every row that is still
selected, whether or not comparisons may be unknown; the statement shows the earlier
condition as it was, inside one more group if the request has conditions, and what was
filed for it is filed first. -/
theorem paginate_restricts {config : PaginationConfig} {pairs : List (String × String)}
    {p : Pagination} (hp : ofPairs config pairs = .ok p) {q : Select} {base : Filter.Node}
    (hbase : q.filter.root = some base) :
    (∃ sent, requestedFilter pairs = .ok sent
        ∧ p.filter = Filter.conjunction (sent.root.toList ++ fieldTests pairs))
      ∧ ∃ root, (q.paginate p).filter.root = some root
        ∧ root = p.filter.root.elim base (fun node => .logical .and base (node.qualify q.table))
        ∧ (∀ truth, root.eval truth = .holds → base.eval truth = .holds)
        ∧ (∀ truth, root.test truth = true → base.test truth = true)
        ∧ q.build.sql = headText q ++ " WHERE " ++ condition 1 base ++ tailText q
        ∧ (q.paginate p).build.sql = headText q ++ " WHERE "
            ++ (p.filter.root.elim (condition 1 base) fun node =>
              "(" ++ condition 1 base ++ " AND "
                ++ condition (1 + (operands base).length) (node.qualify q.table) ++ ")")
            ++ tailText (q.paginate p)
        ∧ q.build.values.entries <+: (q.paginate p).build.values.entries := by
  have hroot := Select.root_paginate hbase p
  refine ⟨filter_of_ofPairs hp, _, hroot, rfl, fun truth => Select.eval_paginate hbase p hroot,
    fun truth h => ?_, sql_build_of_some hbase, Select.sql_paginate hbase p,
    Select.values_prefix_paginate hbase p⟩
  rw [← Truth.ofBool_eq_holds_iff, ← Filter.Node.eval_ofBool] at h ⊢
  exact Select.eval_paginate hbase p hroot h

/-- A request for the rows of all organisations, by an encoded OR and a field pair, against
a query for those of one or of none. -/
theorem paginate_restricts_foreign_rows :
    let q := ((Select.ofTable "post").andWhere (some (.binary "org" "=" (.int 7)))).orWhere
      (some (.unary "org" "IS NULL"))
    let pairs := [("state", "NULL"),
      ("filter", "eyJPUiI6W3siPSI6WyJvcmciLDhdfSx7IiE9IjpbIm9yZyIsOF19XX0=")]
    ∃ p, ofPairs default pairs = .ok p
      ∧ p.filter.root = some (.logical .and
          (.logical .or (.binary "org" "=" (.int 8)) (.binary "org" "!=" (.int 8)))
          (.unary "state" "IS NULL"))
      ∧ ∃ root, (q.paginate p).filter.root = some root ∧ ∀ truth, root.eval truth = .holds →
          (truth "post.org" "=" (some (.int 7))).or (truth "post.org" "IS NULL" none)
            = .holds := by
  intro q pairs
  have hsent : requestedFilter pairs = .ok ⟨some
      (.logical .or (.binary "org" "=" (.int 8)) (.binary "org" "!=" (.int 8)))⟩ := by
    cbv
  obtain ⟨p, hp⟩ : ∃ p, ofPairs default pairs = .ok p :=
    ⟨_, ofPairs_eq_ok_iff.mpr ⟨_, _, rfl, hsent, rfl⟩⟩
  have hbase : q.filter.root = some (.logical .or (.binary "post.org" "=" (.int 7))
      (.unary "post.org" "IS NULL")) := rfl
  obtain ⟨⟨sent, hsent', hfilter⟩, root, hroot, -, htrue, -⟩ := paginate_restricts hp hbase
  cases hsent.symm.trans hsent'
  exact ⟨p, hp, congrArg Filter.root hfilter, root, hroot, htrue⟩

end RecordMapper
