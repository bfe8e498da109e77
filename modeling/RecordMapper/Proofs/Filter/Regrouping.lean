import Mathlib.Logic.Relation
import RecordMapper.Proofs.Filter.Grammar
import RecordMapper.Proofs.Items

/-!
# Groups of many operands

A group in transport lists any number of operands, and a filter that is built joins one
condition at a time to all of those before it. Reading a group is that: the operands are read in
order, and the first that cannot be read decides the error
(`ofJson_groupJson_eq_error_iff`). What is read of the first operands is all that the rest is
joined to (`ofMore_append`), so these may as well be sent as a group of their own, and as what a
group gives depends on its operands only through what they give, this may be done anywhere in a
filter.
-/

namespace RecordMapper.Filter.Node

/-- The JSON of a group with these operands. -/
def groupJson (c : Connective) (sent : List Json) : Json := .obj [(c.keyword, .arr sent)]

/-- The first operands of a group, one at least, are put into a group of their own or taken
out of it, in the whole filter or in an operand of a group. -/
inductive Regroups : Json → Json → Prop
  | here (c : Connective) {sent : List Json} (more : List Json) (some : sent ≠ []) :
      Regroups (groupJson c (groupJson c sent :: more)) (groupJson c (sent ++ more))
  | within (c : Connective) (before after : List Json) {j j' : Json} (inner : Regroups j j') :
      Regroups (groupJson c (before ++ j :: after)) (groupJson c (before ++ j' :: after))

/-! ## Operands in order -/

theorem ofMore_eq (c : Connective) : ∀ (sent : List Json) (left : Node),
    ofMore c left sent = (sent.mapM ofJson).map (·.foldl (.logical c) left)
  | [], _ => rfl
  | j :: rest, left => by
      rw [ofMore]
      cases hj : ofJson j with
      | error e =>
          rw [mapM_cons_of_error hj]
          rfl
      | ok right =>
          rw [mapM_cons_of_ok hj]
          dsimp only
          rw [ofMore_eq c rest]
          cases rest.mapM ofJson <;> rfl

theorem ofJson_groupJson (c : Connective) (sent : List Json) :
    ofJson (groupJson c sent) = ofGroup c c.keyword sent := by
  rw [groupJson, ofJson_comparison, connective?_keyword]

theorem ofJson_groupJson_cons (c : Connective) (j : Json) (rest : List Json) :
    ofJson (groupJson c (j :: rest)) = (ofJson j).bind fun first => ofMore c first rest := by
  rw [ofJson_groupJson, ofGroup]
  cases ofJson j <;> rfl

theorem ofJson_groupJson_eq_error_iff (c : Connective) {sent : List Json} (hsent : sent ≠ [])
    {e : Error} : ofJson (groupJson c sent) = .error e ↔ sent.mapM ofJson = .error e := by
  obtain ⟨j, rest, rfl⟩ := List.exists_cons_of_ne_nil hsent
  rw [ofJson_groupJson_cons]
  cases hj : ofJson j with
  | error e' =>
      rw [mapM_cons_of_error hj]
      simp [Except.bind]
  | ok first =>
      rw [mapM_cons_of_ok hj]
      show ofMore c first rest = _ ↔ _
      rw [ofMore_eq]
      cases rest.mapM ofJson <;> simp [Except.map]

/-- What is read is what pushing the operands in order makes out of nothing. -/
theorem ofJson_groupJson_eq_ok_iff (c : Connective) {sent : List Json} (hsent : sent ≠ [])
    {node : Node} : ofJson (groupJson c sent) = .ok node
      ↔ ∃ nodes, ReadAll sent nodes
        ∧ (nodes.foldl (fun f node => f.push c node) (∅ : Filter)).root = some node := by
  rw [ofJson_groupJson, ofGroup_eq_ok_iff]
  constructor
  · rintro ⟨first, rest, hread, rfl⟩
    exact ⟨first :: rest, hread, root_foldl_push c rest first⟩
  · rintro ⟨nodes, hread, hroot⟩
    cases hread with
    | nil => exact absurd rfl hsent
    | @cons _ first _ rest hfirst hrest =>
        refine ⟨first, rest, .cons hfirst hrest, ?_⟩
        have hfold := root_foldl_push c rest first
        exact Option.some.inj (hroot.symm.trans hfold)

/-! ## Regrouping -/

theorem ofMore_append (c : Connective) (more : List Json) : ∀ (sent : List Json) (left : Node),
    ofMore c left (sent ++ more) = (ofMore c left sent).bind fun node => ofMore c node more
  | [], _ => rfl
  | j :: rest, left => by
      rw [List.cons_append, ofMore, ofMore]
      cases ofJson j with
      | error e => rfl
      | ok right => exact ofMore_append c more rest (.logical c left right)

/-- The first operands may be sent as a group of their own. -/
theorem ofJson_regrouped (c : Connective) {sent : List Json} (hsent : sent ≠ [])
    (more : List Json) :
    ofJson (groupJson c (groupJson c sent :: more)) = ofJson (groupJson c (sent ++ more)) := by
  obtain ⟨j, rest, rfl⟩ := List.exists_cons_of_ne_nil hsent
  rw [List.cons_append, ofJson_groupJson_cons, ofJson_groupJson_cons, ofJson_groupJson_cons]
  cases ofJson j with
  | error e => rfl
  | ok first => exact (ofMore_append c more rest first).symm

/-- A group gives the same if its operands do. -/
theorem ofJson_groupJson_congr (c : Connective) {j j' : Json} (h : ofJson j = ofJson j')
    (before after : List Json) :
    ofJson (groupJson c (before ++ j :: after)) = ofJson (groupJson c (before ++ j' :: after)) := by
  cases before with
  | nil => rw [List.nil_append, List.nil_append, ofJson_groupJson_cons, ofJson_groupJson_cons, h]
  | cons first rest =>
      rw [List.cons_append, List.cons_append, ofJson_groupJson_cons, ofJson_groupJson_cons]
      congr 1
      funext left
      rw [ofMore_append, ofMore_append]
      congr 1
      funext node
      rw [ofMore, ofMore, h]

theorem Regroups.ofJson_eq {j j' : Json} (h : Regroups j j') : ofJson j = ofJson j' := by
  induction h with
  | here c more hsome => exact ofJson_regrouped c hsome more
  | within c before after _ ih => exact ofJson_groupJson_congr c ih before after

/-! ## Groups -/

/-- A group with operands:

* has the error of the first operand that cannot be read, if there is one;
* is otherwise the root of the filter that has the operands pushed to it one after the other,
  from an empty one on;
* gives the same tree or the same error if some of its first operands are sent as a group of
  their own, and so does every filter that has the group somewhere within it, however often this
  is done or undone in it. -/
theorem groups_as_pushes (c : Connective) {sent : List Json} (hsent : sent ≠ []) :
    (∀ e, ofJson (groupJson c sent) = .error e ↔ ∃ before j after, sent = before ++ j :: after
        ∧ ofJson j = .error e ∧ ∀ earlier ∈ before, ∃ node, ofJson earlier = .ok node)
      ∧ (∀ node, ofJson (groupJson c sent) = .ok node ↔ ∃ nodes, ReadAll sent nodes
        ∧ (nodes.foldl (fun f node => f.push c node) (∅ : Filter)).root = some node)
      ∧ (∀ more,
        ofJson (groupJson c (groupJson c sent :: more)) = ofJson (groupJson c (sent ++ more)))
      ∧ ∀ j j', Relation.EqvGen Regroups j j' → ofJson j = ofJson j' := by
  refine ⟨fun e => ?_, fun node => ofJson_groupJson_eq_ok_iff c hsent, ofJson_regrouped c hsent,
    fun j j' h => ?_⟩
  · rw [ofJson_groupJson_eq_error_iff c hsent, mapM_eq_error_iff]
  · induction h with
    | rel j j' h => exact h.ofJson_eq
    | refl j => rfl
    | symm j j' _ ih => exact ih.symm
    | trans j j' j'' _ _ ih ih' => exact ih.trans ih'

/-- Three operands, the first two of which are sent as a group within another one; and the same
with a second operand that is no filter. -/
theorem groups_as_pushes_of_three :
    let test := fun column => Json.obj [("=", .arr [.str column, .int 1])]
    let node := fun column => Node.binary column "=" (.int 1)
    let flat := groupJson .and [test "a", test "b", test "c"]
    let nested := groupJson .or [test "d",
      groupJson .and [groupJson .and [test "a", test "b"], test "c"]]
    [test "a", test "b", test "c"] ≠ []
      ∧ ofJson flat = .ok (.logical .and (.logical .and (node "a") (node "b")) (node "c"))
      ∧ ofJson nested = ofJson (groupJson .or [test "d", flat])
      ∧ ofJson (groupJson .and [test "a", .int 7, .null]) = .error (.notAFilter "7") := by
  intro test node flat nested
  have htest : ∀ column, ofJson (test column) = .ok (node column) := fun column =>
    Lax.ofJson (.binary (names_self_iff.mpr (by decide)) rfl trivial)
  have hsome : [test "a", test "b", test "c"] ≠ [] := List.cons_ne_nil _ _
  have hpair : [test "a", test "b"] ≠ [] := List.cons_ne_nil _ _
  have hwrong : [test "a", .int 7, .null] ≠ [] := List.cons_ne_nil _ _
  obtain ⟨-, hok, -, hregroups⟩ := groups_as_pushes .and hsome
  obtain ⟨herror, -⟩ := groups_as_pushes .and hwrong
  refine ⟨hsome, (hok _).mpr ⟨[node "a", node "b", node "c"], ?_, rfl⟩, ?_, (herror _).mpr ?_⟩
  · exact .cons (htest "a") (.cons (htest "b") (.cons (htest "c") .nil))
  · exact hregroups _ _ (.rel _ _ (.within .or [test "d"] [] (.here .and [test "c"] hpair)))
  · exact ⟨[test "a"], .int 7, [.null], rfl, rfl,
      fun earlier h => ⟨node "a", List.mem_singleton.mp h ▸ htest "a"⟩⟩

end RecordMapper.Filter.Node
