import RecordMapper.Proofs.Hydration.Walk

/-!
# Recursion by the depth counter

A record is expanded by recursion on the levels that are left below it, while a pass counts
the records around the one at hand. `visitRecord` is the visit of a record as the counter
decides it, with no levels told from outside. The two are the same
(`serialize_eq_visitRecord`), because whatever happens within a visit, an error too, the
counter is back where it was when the visit ends.

So the visits cannot go on for ever, whatever the records: with as many visits one within
the other as there are levels, and one more, none is left that would go further
(`outcome_unrolled`).
-/

namespace RecordMapper

/-- The pass stands at this depth, and has this limit. -/
structure Pass.At (maxDepth depth : Nat) (p : Pass) : Prop where
  maxDepth : p.maxDepth = maxDepth
  depth : p.depth = depth

theorem Pass.At.levels_eq {maxDepth depth : Nat} {p : Pass} (h : p.At maxDepth depth) :
    p.levels = maxDepth - (depth + 1) := by
  rw [levels, h.maxDepth, h.depth]

theorem Pass.At.deeper {maxDepth depth : Nat} {p : Pass} (h : p.At maxDepth depth) :
    p.deeper.At maxDepth (depth + 1) :=
  ⟨h.maxDepth, congrArg (· + 1) h.depth⟩

theorem Pass.At.shallower {maxDepth depth : Nat} {p : Pass} (h : p.At maxDepth (depth + 1)) :
    p.shallower.At maxDepth depth :=
  ⟨h.maxDepth, congrArg (· - 1) h.depth⟩

namespace Hydration

open Session

variable {σ ρ α : Type}

/-! ## Visits -/

section Visits

variable [Entity ρ] (db : Engine σ) (schema : Schema σ ρ)

/-- A record at the present depth of the pass: its stored fields, and before the last level
its relations, `visit` hydrating the records that they lead to. -/
def visitRecord (visit : ρ → Expansion σ Json) (r : ρ) : Expansion σ Json := do
  let pass ← Session.own
  if pass.depth + 1 < pass.maxDepth then do
    let members ← addRelations (relationJson db schema visit r) (relationNames pass r)
      (storedMembers r)
    pure (.obj members)
  else pure (.obj (storedMembers r))

/-- So many visits, one within the other; `beyond` stands for whatever lies further in. -/
def unrolled (beyond : ρ → Expansion σ Json) : Nat → ρ → Expansion σ Json
  | 0 => beyond
  | n + 1 => visitRecord db schema (unrolled beyond n)

end Visits

/-! ## Coming back to a place -/

/-- From a pass at this place both do the same, and come back to the place. -/
def SameAt (maxDepth depth : Nat) (act act' : Expansion σ α) : Prop :=
  ∀ x, x.1.At maxDepth depth →
    act'.outcome x = act.outcome x ∧ (act.outcome x).2.1.At maxDepth depth

variable {maxDepth depth : Nat}

theorem compositional_sameAt (maxDepth depth : Nat) :
    Compositional fun α (act act' : Expansion σ α) => SameAt maxDepth depth act act' where
  pure _ _ hx := ⟨rfl, hx⟩
  bind {α β act act' f f'} hact hf x hx := by
    obtain ⟨hsame, hback⟩ := hact x hx
    obtain ⟨result, x', h⟩ := act.exists_outcome x
    rw [h] at hsame hback
    rw [outcome_bind, outcome_bind, hsame, h]
    cases result with
    | ok a => exact hf a x' hback
    | error e => exact ⟨rfl, hback⟩

theorem sameAt_own : SameAt maxDepth depth (own : Expansion σ Pass) own :=
  fun _ hx => ⟨rfl, hx⟩

theorem sameAt_beside (act : Session σ α) :
    SameAt maxDepth depth (act.beside : Expansion σ α) act.beside :=
  fun _ hx => ⟨rfl, hx⟩

/-- The one change of the counter, made and taken back around `act`. -/
theorem sameAt_within {act act' : Expansion σ α} (h : SameAt maxDepth (depth + 1) act act') :
    SameAt maxDepth depth (within Pass.deeper Pass.shallower act)
      (within Pass.deeper Pass.shallower act') := by
  intro x hx
  obtain ⟨hsame, hback⟩ := h (x.1.deeper, x.2) hx.deeper
  rw [outcome_within, outcome_within, hsame]
  exact ⟨rfl, hback.shallower⟩

variable [Entity ρ] (db : Engine σ) (schema : Schema σ ρ)

theorem sameAt_relationJson {expand expand' : ρ → Expansion σ Json}
    (h : ∀ r, SameAt maxDepth (depth + 1) (expand r) (expand' r)) (r : ρ) (relation : String) :
    SameAt maxDepth depth (relationJson db schema expand r relation)
      (relationJson db schema expand' r relation) := by
  have hplace := compositional_sameAt (σ := σ) maxDepth depth
  have hvalue : ∀ resolved, SameAt maxDepth depth
      (within Pass.deeper Pass.shallower (normalize db schema expand resolved))
      (within Pass.deeper Pass.shallower (normalize db schema expand' resolved)) :=
    fun resolved => sameAt_within <|
      (compositional_sameAt maxDepth (depth + 1)).normalize (fun _ => sameAt_beside _) h resolved
  refine hplace.bind sameAt_own fun pass => ?_
  cases (memoKey? r relation).bind pass.lookup? with
  | some j => exact hplace.pure j
  | none =>
      refine hplace.bind (sameAt_beside _) fun resolved => hplace.bind (hvalue resolved) fun j => ?_
      cases memoKey? r relation with
      | none => exact hplace.pure j
      | some key => exact fun x hx => ⟨rfl, hx.maxDepth, hx.depth⟩

/-- The levels that are left decide as the counter does, if they do so one level down. -/
theorem sameAt_visitRecord {visit : ρ → Expansion σ Json}
    (h : ∀ levels, maxDepth - (depth + 1) = levels + 1 →
      ∀ r, SameAt maxDepth (depth + 1) (expandRecord db schema levels r) (visit r)) (r : ρ) :
    SameAt maxDepth depth (expandRecord db schema (maxDepth - (depth + 1)) r)
      (visitRecord db schema visit r) := by
  intro x hx
  rw [visitRecord, outcome_bind, outcome_own]
  simp only [hx.maxDepth, hx.depth]
  have hplace := compositional_sameAt (σ := σ) maxDepth depth
  cases hlevels : maxDepth - (depth + 1) with
  | zero =>
      rw [if_neg (by omega)]
      exact ⟨rfl, hx⟩
  | succ levels =>
      rw [if_pos (by omega)]
      have hmembers := hplace.addRelations
        (sameAt_relationJson db schema (h levels hlevels) r)
        (relationNames x.1 r) (storedMembers r)
      exact hplace.bind hmembers (fun members => hplace.pure (Json.obj members)) x hx

theorem sameAt_unrolled (beyond : ρ → Expansion σ Json) : ∀ (n depth : Nat) (r : ρ),
    maxDepth - (depth + 1) < n →
      SameAt maxDepth depth (expandRecord db schema (maxDepth - (depth + 1)) r)
        (unrolled db schema beyond n r)
  | n + 1, depth, r, hn => by
      refine sameAt_visitRecord db schema (fun levels hlevels r => ?_) r
      obtain rfl : levels = maxDepth - (depth + 1 + 1) := by omega
      exact sameAt_unrolled beyond n (depth + 1) r (by omega)

theorem sameAt_serialize (r : ρ) :
    SameAt maxDepth depth (expandRecord db schema (maxDepth - (depth + 1)) r)
      (serialize db schema r) := by
  intro x hx
  -- any innermost visit will do, as none is reached
  have hback := (sameAt_unrolled db schema (fun _ => pure .null)
    _ depth r (Nat.lt_succ_self _) x hx).2
  refine ⟨?_, hback⟩
  rw [← hx.levels_eq]
  rfl

/-! ## Calls -/

/-- Hydrating a record is to visit it, and to hydrate in turn the records that its relations
lead to. -/
theorem serialize_eq_visitRecord (r : ρ) :
    serialize db schema r = visitRecord db schema (serialize db schema) r := by
  apply ext_outcome
  intro x
  have hx : x.1.At x.1.maxDepth x.1.depth := ⟨rfl, rfl⟩
  have hvisit : SameAt x.1.maxDepth x.1.depth _ (visitRecord db schema (serialize db schema) r) :=
    sameAt_visitRecord db schema (fun levels hlevels r' => by
      obtain rfl : levels = x.1.maxDepth - (x.1.depth + 1 + 1) := by omega
      exact sameAt_serialize db schema r') r
  exact (sameAt_serialize db schema r x hx).1.trans (hvisit x hx).1.symm

/-- No visit goes further in than there are levels, so nothing depends on what lies there. -/
theorem outcome_unrolled (beyond : ρ → Expansion σ Json)
    {n : Nat} {x : Pass × σ} (h : x.1.levels < n) (r : ρ) :
    (unrolled db schema beyond n r).outcome x = (serialize db schema r).outcome x := by
  have hx : x.1.At x.1.maxDepth x.1.depth := ⟨rfl, rfl⟩
  have hunrolled := (sameAt_unrolled db schema beyond n x.1.depth r h x hx).1
  exact hunrolled.trans (sameAt_serialize db schema r x hx).1.symm

/-- A call on a pass comes back to where it began, whether it answers or fails. -/
theorem at_run (request : Request ρ) (x : Pass × σ) :
    ((request.run db schema).outcome x).2.1.At x.1.maxDepth x.1.depth := by
  have hx : x.1.At x.1.maxDepth x.1.depth := ⟨rfl, rfl⟩
  have hplace := compositional_sameAt (σ := σ) x.1.maxDepth x.1.depth
  have hrecord : ∀ r, SameAt x.1.maxDepth x.1.depth (serialize db schema r)
      (serialize db schema r) := by
    intro r y hy
    obtain ⟨hsame, hback⟩ := sameAt_serialize db schema r y hy
    rw [hsame]
    exact ⟨rfl, hback⟩
  cases request with
  | one r => exact (hrecord r x hx).2
  | all s =>
      exact (hplace.bind (hplace.arrayOf hrecord s.items) (fun js => hplace.pure (Json.arr js))
        x hx).2

/-! ## The last level -/

/-- The stored fields of a record, or of each record of a set. -/
def Request.stored : Request ρ → Json
  | .one r => .obj (storedMembers r)
  | .all s => .arr (s.items.map fun r => .obj (storedMembers r))

theorem outcome_serialize_of_last {x : Pass × σ} (h : x.1.levels = 0) (r : ρ) :
    (serialize db schema r).outcome x = (.ok (.obj (storedMembers r)), x) := by
  rw [serialize, outcome_bind, outcome_own]
  simp only [h]
  rfl

theorem outcome_arrayOf_of_last {x : Pass × σ} (h : x.1.levels = 0) : ∀ rs : List ρ,
    (arrayOf (serialize db schema) rs).outcome x
      = (.ok (rs.map fun r => .obj (storedMembers r)), x)
  | [] => rfl
  | r :: rest => by
      rw [arrayOf, outcome_bind_of_ok (outcome_serialize_of_last db schema h r),
        outcome_bind_of_ok (outcome_arrayOf_of_last h rest)]
      rfl

/-- With no level below them, records are answered for from what they store: engine and
accessors do not come into it, and the pass stays as it is. -/
theorem runAll_of_last {x : Pass × σ}
    (h : x.1.levels = 0) : ∀ requests : List (Request ρ),
    runAll db schema requests x = (requests.map fun request => .ok request.stored, x)
  | [] => rfl
  | request :: rest => by
      have hfirst : (request.run db schema).outcome x = (.ok request.stored, x) := by
        cases request with
        | one r => exact outcome_serialize_of_last db schema h r
        | all s => exact outcome_bind_of_ok (outcome_arrayOf_of_last db schema h s.items) _
      rw [runAll, hfirst]
      simp only [runAll_of_last h rest, List.map_cons]

end Hydration

end RecordMapper
