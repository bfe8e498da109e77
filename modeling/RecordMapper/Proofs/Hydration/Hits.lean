import RecordMapper.Proofs.Hydration.Lasting

/-!
# Hits of the memo

A hit is a relation that was answered out of the memo. Calls on a pass show no
hits, so there is a second walk that writes them down: it gets each relation as
the library does, after a note of what the memo will serve. That the log belongs
to what the library does is shown by forgetting it (`erases_walkRequest`).
-/

namespace RecordMapper.Hydration

open Session

variable {σ τ ρ α : Type} [Entity ρ]

/-! ## Hits -/

/-- An answer out of the memo. -/
structure Hit (ρ : Type) where
  record : ρ
  relation : String
  /-- The levels left below the records that the relation leads to. -/
  levels : Nat
  served : Json

/-- Gets a relation as the library does, with a note first if the memo has it. -/
def relationNoted (db : Engine σ) (schema : Schema σ ρ) : Step (List (Hit ρ) × σ) ρ :=
  fun levels expand r relation => do
    let pass ← Session.own
    match (memoKey? r relation).bind pass.lookup? with
    | some j => (Session.modifyOwn fun log => log ++ [⟨r, relation, levels, j⟩]).beside
    | none => pure ()
    relationJson (db.beside (List (Hit ρ))) (schema.beside (List (Hit ρ))) expand r relation

/-- The hits of a call, in order. -/
def Request.hits (db : Engine σ) (schema : Schema σ ρ) (request : Request ρ) (x : Pass × σ) :
    List (Hit ρ) :=
  ((request.walk (relationNoted db schema)).outcome (x.1, ([], x.2))).2.2.1

/-- Expanding the relation without a memo, in a pass with the relation lists of `p`, gives
what was served. -/
def Hit.Faithful (db : Engine σ) (schema : Schema σ ρ) (p : Pass) (h : Hit ρ) : Prop :=
  ∀ y : Pass × σ, p.SameNames y.1 →
    ((expandFresh db schema h.levels (walk (expandFresh db schema) h.levels) h.record
      h.relation).outcome y).1 = .ok h.served

/-! ## Forgetting the log -/

/-- `noted` does what `act` does, whatever stands beside the database. -/
def Erases (act : Expansion σ α) (noted : Expansion (τ × σ) α) : Prop :=
  ∀ x, act.outcome (x.1, x.2.2)
    = ((noted.outcome x).1, ((noted.outcome x).2.1, (noted.outcome x).2.2.2))

theorem erases_beside (act : Session σ α) :
    Erases (act.beside : Expansion σ α) (act.beside.beside : Expansion (τ × σ) α) :=
  fun _ => rfl

theorem erases_own : Erases (own : Expansion σ Pass) (own : Expansion (τ × σ) Pass) :=
  fun _ => rfl

theorem erases_getDynamic (db : Engine σ) (schema : Schema σ ρ) (q : Select) :
    Erases ((q.getDynamic db schema).beside : Expansion σ (ResultSet ρ))
      ((q.getDynamic (db.beside τ) (schema.beside τ)).beside : Expansion (τ × σ) _) := by
  rw [q.getDynamic_beside]
  exact erases_beside (q.getDynamic db schema)

theorem compositional_erases :
    Compositional fun α (act : Expansion σ α) (noted : Expansion (τ × σ) α) =>
      Erases act noted where
  pure _ _ := rfl
  bind {α β act noted f f'} hact hf x := by
    have h := hact x
    rw [outcome_bind, outcome_bind, h]
    obtain ⟨result, x', hx⟩ := noted.exists_outcome x
    rw [hx]
    cases result with
    | ok a => exact hf a x'
    | error e => rfl

theorem erases_within {act : Expansion σ α} {noted : Expansion (τ × σ) α} (h : Erases act noted)
    (enter leave : Pass → Pass) : Erases (within enter leave act) (within enter leave noted) := by
  intro x
  have hinner := h (enter x.1, x.2)
  rw [outcome_within, outcome_within, hinner]

theorem erases_expandFresh (db : Engine σ) (schema : Schema σ ρ) (levels : Nat)
    {expand : ρ → Expansion σ Json} {expand' : ρ → Expansion (τ × σ) Json}
    (h : ∀ r, Erases (expand r) (expand' r)) (r : ρ) (relation : String) :
    Erases (expandFresh db schema levels expand r relation)
      (expandFresh (db.beside τ) (schema.beside τ) levels expand' r relation) :=
  compositional_erases.bind (erases_beside (schema.resolve r relation)) fun resolved =>
    erases_within (compositional_erases.normalize (erases_getDynamic db schema) h resolved)
      Pass.deeper Pass.shallower

/-- Relations are got alike by two schemas that load the same, if the accessors of one do what those
of the other do. -/
theorem erases_relationJson {db : Engine σ} {schema : Schema σ ρ} {schema' : Schema (τ × σ) ρ}
    (hload : schema'.load = schema.load)
    (hresolve : ∀ r relation, Erases (schema.resolve r relation).beside
      (schema'.resolve r relation).beside)
    {expand : ρ → Expansion σ Json} {expand' : ρ → Expansion (τ × σ) Json}
    (h : ∀ r, Erases (expand r) (expand' r)) (r : ρ) (relation : String) :
    Erases (relationJson db schema expand r relation)
      (relationJson (db.beside τ) schema' expand' r relation) := by
  have hquery : ∀ q : Select, Erases ((q.getDynamic db schema).beside : Expansion σ _)
      (q.getDynamic (db.beside τ) schema').beside := by
    intro q
    have hsame : q.getDynamic (db.beside τ) schema'
        = q.getDynamic (db.beside τ) (schema.beside τ) := by
      rw [Select.getDynamic, hload]
      rfl
    rw [hsame]
    exact erases_getDynamic db schema q
  rw [relationJson, relationJson]
  refine compositional_erases.bind erases_own fun pass => ?_
  cases (memoKey? r relation).bind pass.lookup? with
  | some j => exact compositional_erases.pure j
  | none =>
      refine compositional_erases.bind (hresolve r relation) fun resolved => ?_
      have hvalue := compositional_erases.normalize hquery h resolved
      refine compositional_erases.bind (erases_within hvalue _ _) fun j => ?_
      cases memoKey? r relation with
      | none => exact compositional_erases.pure j
      | some key => exact fun _ => rfl

theorem outcome_relationNoted_of_hit {db : Engine σ} {schema : Schema σ ρ} {r : ρ}
    {relation : String} {x : Pass × (List (Hit ρ) × σ)} {j : Json}
    (h : (memoKey? r relation).bind x.1.lookup? = some j) (levels : Nat)
    (expand : ρ → Expansion (List (Hit ρ) × σ) Json) :
    (relationNoted db schema levels expand r relation).outcome x
      = (.ok j, (x.1, (x.2.1 ++ [⟨r, relation, levels, j⟩], x.2.2))) := by
  rw [relationNoted, outcome_bind, outcome_own]
  simp only [h]
  let log := x.2.1 ++ [⟨r, relation, levels, j⟩]
  exact outcome_relationJson_of_hit (x := (x.1, (log, x.2.2))) h expand

theorem outcome_relationNoted_of_miss {db : Engine σ} {schema : Schema σ ρ} {r : ρ}
    {relation : String} {x : Pass × (List (Hit ρ) × σ)}
    (h : (memoKey? r relation).bind x.1.lookup? = none) (levels : Nat)
    (expand : ρ → Expansion (List (Hit ρ) × σ) Json) :
    (relationNoted db schema levels expand r relation).outcome x
      = (relationJson (db.beside (List (Hit ρ))) (schema.beside (List (Hit ρ))) expand r
          relation).outcome x := by
  rw [relationNoted, outcome_bind, outcome_own]
  simp only [h]

/-- Writing down hits changes nothing but the log. -/
theorem outcome_relationNoted_eq (db : Engine σ) (schema : Schema σ ρ) (levels : Nat)
    (expand : ρ → Expansion (List (Hit ρ) × σ) Json) (r : ρ) (relation : String)
    (x : Pass × (List (Hit ρ) × σ)) :
    ((relationNoted db schema levels expand r relation).outcome x).1
        = ((relationJson (db.beside _) (schema.beside _) expand r relation).outcome x).1
      ∧ ((relationNoted db schema levels expand r relation).outcome x).2.1
        = ((relationJson (db.beside _) (schema.beside _) expand r relation).outcome x).2.1 := by
  cases hfound : (memoKey? r relation).bind x.1.lookup? with
  | some j =>
      rw [outcome_relationNoted_of_hit hfound, outcome_relationJson_of_hit hfound]
      exact ⟨rfl, rfl⟩
  | none =>
      rw [outcome_relationNoted_of_miss hfound]
      exact ⟨rfl, rfl⟩

theorem lasting_relationNoted {db : Engine σ} {schema : Schema σ ρ} (hdb : db.Steady)
    (hschema : schema.Steady) (levels : Nat) {expand : ρ → Expansion (List (Hit ρ) × σ) Json}
    (h : ∀ r, Lasting Pass.Extends (expand r)) (r : ρ) (relation : String) :
    Lasting Pass.Extends (relationNoted db schema levels expand r relation) := by
  have hjson := lasting_relationJson (hdb.beside (List (Hit ρ))) (hschema.beside (List (Hit ρ)))
    h r relation
  have hsame := outcome_relationNoted_eq db schema levels expand r relation
  constructor
  · intro x
    rw [(hsame x).2]
    exact hjson.keeps x
  · intro x j x' hx y hy
    obtain ⟨result, x₀, hx₀⟩ := exists_outcome (relationJson (db.beside (List (Hit ρ)))
      (schema.beside (List (Hit ρ))) expand r relation) x
    have hx' := hsame x
    rw [hx, hx₀] at hx'
    obtain ⟨rfl, hpass⟩ := hx'
    rw [(hsame y).1]
    exact hjson.repeats hx₀ (hpass ▸ hy)

theorem erases_relationNoted {db : Engine σ} {schema : Schema σ ρ} (levels : Nat)
    {expand : ρ → Expansion σ Json} {expand' : ρ → Expansion (List (Hit ρ) × σ) Json}
    (h : ∀ r, Erases (expand r) (expand' r)) (r : ρ) (relation : String) :
    Erases (relationJson db schema expand r relation)
      (relationNoted db schema levels expand' r relation) := by
  rintro ⟨p, log, s⟩
  cases hfound : (memoKey? r relation).bind p.lookup? with
  | some j =>
      rw [outcome_relationNoted_of_hit hfound]
      exact outcome_relationJson_of_hit (x := (p, s)) hfound expand
  | none =>
      have hfresh := erases_expandFresh db schema levels h r relation (p, (log, s))
      rw [outcome_relationNoted_of_miss hfound,
        outcome_relationJson_of_miss (x := (p, s)) hfound levels,
        outcome_relationJson_of_miss (x := (p, (log, s))) hfound levels, hfresh]
      obtain ⟨result, x', hx⟩ := exists_outcome (expandFresh (db.beside (List (Hit ρ)))
        (schema.beside (List (Hit ρ))) levels expand' r relation) (p, (log, s))
      rw [hx]
      cases result <;> rfl

theorem erases_walkRequest (db : Engine σ) (schema : Schema σ ρ) (request : Request ρ) :
    Erases (request.run db schema) (request.walk (relationNoted db schema)) := by
  rw [Request.run_eq_walk]
  exact compositional_erases.walkRequest erases_own
    (compositional_erases.walk erases_own fun levels _ _ h => erases_relationNoted levels h) request

end RecordMapper.Hydration
