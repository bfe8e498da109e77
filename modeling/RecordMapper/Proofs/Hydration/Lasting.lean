import RecordMapper.Proofs.Hydration.Walk

/-!
# Results that last

An expansion that was completed once gives the same result whenever it is done
again later in the pass, provided that engine and accessors answer steadily. With
the memo this takes an argument. A relation that was remembered while the
expansion ran is looked up the second time, and what is remembered stays: only a
relation that is not in the memo is ever remembered.

The argument is made once for several orders on passes. Without the memo it is
enough that the relations to expand are the same (`SameNames`); with it, the later
pass has to remember all that the earlier one remembers (`Extends`).
-/

namespace RecordMapper

namespace Pass

/-! ## Later states of a pass -/

/-- The same relations are expanded on a record. -/
def SameNames (p q : Pass) : Prop :=
  p.extra = q.extra ∧ p.skipped = q.skipped

/-- `q` is as far down as `p`, and has the same limits. -/
structure SamePlace (p q : Pass) : Prop where
  sameNames : SameNames p q
  maxDepth : p.maxDepth = q.maxDepth
  depth : p.depth = q.depth

/-- `q` also remembers what `p` remembers. -/
structure Extends (p q : Pass) : Prop extends SamePlace p q where
  lookup : ∀ {key : MemoKey} {j : Json}, p.lookup? key = some j → q.lookup? key = some j

/-- What an order on passes has to do with going down a level and up again. -/
structure Order (E : Pass → Pass → Prop) : Prop where
  refl : ∀ p : Pass, E p p
  trans : ∀ {p q r : Pass}, E p q → E q r → E p r
  sameNames : ∀ {p q : Pass}, E p q → SameNames p q
  leave : ∀ {p q : Pass}, E p.deeper q → E p q.shallower
  enter : ∀ {p q r : Pass}, E p.deeper q → E q.shallower r → E q r.deeper

theorem order_sameNames : Order SameNames where
  refl _ := ⟨rfl, rfl⟩
  trans h h' := ⟨h.1.trans h'.1, h.2.trans h'.2⟩
  sameNames h := h
  leave h := h
  enter _ h := h

theorem SameNames.symm {p q : Pass} (h : SameNames p q) : SameNames q p :=
  ⟨h.1.symm, h.2.symm⟩

theorem order_samePlace : Order SamePlace where
  refl _ := ⟨⟨rfl, rfl⟩, rfl, rfl⟩
  trans h h' := ⟨order_sameNames.trans h.sameNames h'.sameNames, h.maxDepth.trans h'.maxDepth,
    h.depth.trans h'.depth⟩
  sameNames h := h.sameNames
  leave {p q} h := by
    have hdepth : p.depth + 1 = q.depth := h.depth
    have hback : p.depth = q.depth - 1 := by omega
    exact ⟨h.sameNames, h.maxDepth, hback⟩
  enter {p q r} h h' := by
    have hdepth : p.depth + 1 = q.depth := h.depth
    have hdepth' : q.depth - 1 = r.depth := h'.depth
    have hback : q.depth = r.depth + 1 := by omega
    exact ⟨h'.sameNames, h'.maxDepth, hback⟩

theorem order_extends : Order Extends where
  refl p := ⟨order_samePlace.refl p, id⟩
  trans h h' := ⟨order_samePlace.trans h.toSamePlace h'.toSamePlace,
    fun hj => h'.lookup (h.lookup hj)⟩
  sameNames h := h.sameNames
  leave h := ⟨order_samePlace.leave h.toSamePlace, h.lookup⟩
  enter h h' := ⟨order_samePlace.enter h.toSamePlace h'.toSamePlace, h'.lookup⟩

theorem SamePlace.symm {p q : Pass} (h : SamePlace p q) : SamePlace q p :=
  ⟨h.sameNames.symm, h.maxDepth.symm, h.depth.symm⟩

theorem SamePlace.levels_eq {p q : Pass} (h : SamePlace p q) : p.levels = q.levels := by
  rw [levels, levels, h.maxDepth, h.depth]

theorem lookup?_remember (p : Pass) (key : MemoKey) (j : Json) :
    (p.remember key j).lookup? key = some j := by
  simp [lookup?, remember]

theorem lookup?_remember_of_ne (p : Pass) {key key' : MemoKey} (h : ¬ key = key') (j : Json) :
    (p.remember key j).lookup? key' = p.lookup? key' := by
  rw [lookup?, remember, List.find?_cons_of_neg (by simpa using h), lookup?]

/-- Remembering what was not in the memo at the start takes nothing out of it. -/
theorem Extends.remember {p q : Pass} (h : Extends p q) {key : MemoKey}
    (hnew : p.lookup? key = none) (j : Json) : Extends p (q.remember key j) := by
  refine ⟨⟨h.sameNames, h.maxDepth, h.depth⟩, fun {key' j'} hj => ?_⟩
  have hne : ¬ key = key' := by
    rintro rfl
    rw [hnew] at hj
    cases hj
  rw [lookup?_remember_of_ne q hne]
  exact h.lookup hj

end Pass

namespace Hydration

open Session

variable {σ ρ α : Type} [Entity ρ]

/-! ## Lasting expansions -/

/-- The pass only grows, and a result is found again whenever it has. -/
structure Lasting (E : Pass → Pass → Prop) (act : Expansion σ α) : Prop where
  keeps : ∀ x, E x.1 (act.outcome x).2.1
  repeats : ∀ {x a x'}, act.outcome x = (.ok a, x') → ∀ {y}, E x'.1 y.1 →
    (act.outcome y).1 = .ok a

variable {E : Pass → Pass → Prop}

theorem Lasting.after {act : Expansion σ α} (h : Lasting E act) {x x' : Pass × σ}
    {result : Except Error α} (hact : act.outcome x = (result, x')) : E x.1 x'.1 := by
  have hkeeps := h.keeps x
  rwa [hact] at hkeeps

variable (hE : Pass.Order E)
include hE

theorem lasting_beside {act : Session σ α} (h : act.Steady) :
    Lasting E (act.beside : Expansion σ α) where
  keeps x := hE.refl x.1
  repeats {x a x'} hact y _ := by
    have hfirst : (act.outcome x.2).1 = .ok a := congrArg Prod.fst hact
    exact (h y.2 x.2).trans hfirst

theorem lasting_bind {β : Type} {act : Expansion σ α} {f : α → Expansion σ β}
    (hact : Lasting E act) (hf : ∀ a, Lasting E (f a)) : Lasting E (act >>= f) where
  keeps x := by
    obtain ⟨result, x', hx⟩ := exists_outcome act x
    cases result with
    | ok a =>
        rw [outcome_bind_of_ok hx]
        exact hE.trans (hact.after hx) ((hf a).keeps x')
    | error e =>
        rw [outcome_bind_of_error hx]
        exact hact.after hx
  repeats {x b x''} h y hy := by
    obtain ⟨a, x', hx, hfx⟩ := outcome_bind_eq_ok_iff.mp h
    have hrepeat := hact.repeats hx (hE.trans ((hf a).after hfx) hy)
    have hkept : E y.1 (act.outcome y).2.1 := hact.keeps y
    have hy' : act.outcome y = (.ok a, (act.outcome y).2) := Prod.ext hrepeat rfl
    rw [outcome_bind_of_ok hy']
    exact (hf a).repeats hfx (hE.trans hy hkept)

theorem compositional_lasting :
    Compositional fun α (act act' : Expansion σ α) => act = act' ∧ Lasting E act :=
  .of_property (fun _ => ⟨fun x => hE.refl x.1, fun h _ _ => by cases h; rfl⟩)
    (lasting_bind hE)

theorem lasting_within {act : Expansion σ α} (h : Lasting E act) :
    Lasting E (within Pass.deeper Pass.shallower act) where
  keeps x := hE.leave (h.keeps (x.1.deeper, x.2))
  repeats {x a x'} hact y hy := by
    obtain ⟨result, z, hz⟩ := exists_outcome act (x.1.deeper, x.2)
    rw [outcome_within, hz] at hact
    cases hact
    exact h.repeats hz (hE.enter (h.after hz) hy)

theorem lasting_addRelations {act : String → Expansion σ Json} (h : ∀ name, Lasting E (act name))
    (names : List String) (members : List (String × Json)) :
    Lasting E (addRelations act names members) :=
  ((compositional_lasting hE).addRelations (fun name => ⟨rfl, h name⟩) names members).2

omit hE in
theorem relationNames_congr {p q : Pass} (h : p.SameNames q) (r : ρ) :
    relationNames p r = relationNames q r := by
  rw [relationNames, relationNames, h.1, h.2]

/-- The relations to expand are read off the pass, but they are the same at any time. -/
theorem lasting_own {f : List String → Expansion σ α} (r : ρ) (h : ∀ names, Lasting E (f names)) :
    Lasting E (own >>= fun p => f (relationNames p r)) where
  keeps x := (h (relationNames x.1 r)).keeps x
  repeats {x a x'} hact y hy := by
    have hact' : (f (relationNames x.1 r)).outcome x = (.ok a, x') := hact
    have hsame := hE.sameNames (hE.trans ((h _).after hact') hy)
    have hrepeat := (h _).repeats hact' hy
    rw [relationNames_congr hsame r] at hrepeat
    exact hrepeat

variable {db : Engine σ} {schema : Schema σ ρ} (hdb : db.Steady) (hschema : schema.Steady)
include hdb hschema

omit hschema in
theorem lasting_normalize {expand : ρ → Expansion σ Json} (h : ∀ r, Lasting E (expand r))
    (relation : Relation ρ) : Lasting E (normalize db schema expand relation) := by
  have hquery : ∀ q : Select, Lasting E ((q.getDynamic db schema).beside : Expansion σ _) :=
    fun q => lasting_beside hE (q.steady_getDynamic hdb schema)
  exact And.right <|
    (compositional_lasting hE).normalize (fun q => ⟨rfl, hquery q⟩) (fun r => ⟨rfl, h r⟩) relation

theorem lasting_expandFresh (levels : Nat) {expand : ρ → Expansion σ Json}
    (h : ∀ r, Lasting E (expand r)) (r : ρ) (relation : String) :
    Lasting E (expandFresh db schema levels expand r relation) :=
  lasting_bind hE (lasting_beside hE (hschema r relation)) fun resolved =>
    lasting_within hE (lasting_normalize hE hdb h resolved)

omit hdb hschema in
theorem lasting_walk {step : Step σ ρ}
    (hstep : ∀ levels expand, (∀ r, Lasting E (expand r)) →
      ∀ r relation, Lasting E (step levels expand r relation)) :
    ∀ (levels : Nat) (r : ρ), Lasting E (walk step levels r)
  | 0, r => ((compositional_lasting hE).pure (Json.obj (storedMembers r))).2
  | levels + 1, r => by
      have hact := hstep levels _ (lasting_walk hstep levels) r
      exact lasting_own hE r fun names =>
        lasting_bind hE (lasting_addRelations hE hact names (storedMembers r)) fun members =>
          ((compositional_lasting hE).pure (Json.obj members)).2

/-! ## With the memo -/

omit hE hdb hschema

/-- Remembers a completed expansion, if there is a key to remember it under. -/
def rememberUnder (key : Option MemoKey) (p : Pass) (j : Json) : Pass :=
  key.elim p fun key => p.remember key j

theorem outcome_relationJson_of_hit {r : ρ} {relation : String} {x : Pass × σ} {j : Json}
    (h : (memoKey? r relation).bind x.1.lookup? = some j) (expand : ρ → Expansion σ Json) :
    (relationJson db schema expand r relation).outcome x = (.ok j, x) := by
  rw [relationJson, outcome_bind, outcome_own]
  simp only [h]
  rfl

/-- Without an entry in the memo, the relation is expanded and then remembered. -/
theorem outcome_relationJson_of_miss {r : ρ} {relation : String} {x : Pass × σ}
    (h : (memoKey? r relation).bind x.1.lookup? = none) (levels : Nat)
    (expand : ρ → Expansion σ Json) :
    (relationJson db schema expand r relation).outcome x
      = match (expandFresh db schema levels expand r relation).outcome x with
        | (.ok j, x') => (.ok j, (rememberUnder (memoKey? r relation) x'.1 j, x'.2))
        | (.error e, x') => (.error e, x') := by
  rw [relationJson, expandFresh, outcome_bind, outcome_own]
  simp only [h, outcome_bind]
  obtain ⟨result, x₁, hx₁⟩ := (schema.resolve r relation).beside.exists_outcome x
  rw [hx₁]
  cases result with
  | error e => rfl
  | ok resolved =>
      dsimp only
      cases (within Pass.deeper Pass.shallower
        (normalize db schema expand resolved)).outcome x₁ with
      | mk result x' =>
          cases result with
          | error e => rfl
          | ok j =>
              cases memoKey? r relation with
              | none => rfl
              | some key => rfl

theorem lasting_relationJson (hdb : db.Steady) (hschema : schema.Steady)
    {expand : ρ → Expansion σ Json} (h : ∀ r, Lasting Pass.Extends (expand r)) (r : ρ)
    (relation : String) :
    Lasting Pass.Extends (relationJson db schema expand r relation) := by
  have hfresh := lasting_expandFresh Pass.order_extends hdb hschema 0 h r relation
  constructor
  · intro x
    cases hfound : (memoKey? r relation).bind x.1.lookup? with
    | some j =>
        rw [outcome_relationJson_of_hit hfound]
        exact Pass.order_extends.refl x.1
    | none =>
        obtain ⟨result, x', hx⟩ := exists_outcome (expandFresh db schema 0 expand r relation) x
        have hkept := hfresh.after hx
        rw [outcome_relationJson_of_miss hfound 0, hx]
        cases result with
        | error e => exact hkept
        | ok j =>
            cases hkey : memoKey? r relation with
            | none => exact hkept
            | some key =>
                rw [hkey] at hfound
                exact hkept.remember hfound j
  · intro x j x' hx y hy
    cases hfound : (memoKey? r relation).bind x.1.lookup? with
    | some j' =>
        rw [outcome_relationJson_of_hit hfound] at hx
        cases hx
        obtain ⟨key, hkey, hlookup⟩ := Option.bind_eq_some_iff.mp hfound
        have hagain : (memoKey? r relation).bind y.1.lookup? = some j := by
          rw [hkey]
          exact hy.lookup hlookup
        rw [outcome_relationJson_of_hit hagain]
    | none =>
        obtain ⟨result, x₀, hx₀⟩ := exists_outcome (expandFresh db schema 0 expand r relation) x
        rw [outcome_relationJson_of_miss hfound 0, hx₀] at hx
        cases result with
        | error e => cases hx
        | ok j' =>
            cases hx
            cases hkey : memoKey? r relation with
            | none =>
                rw [hkey] at hy
                have hagain : (memoKey? r relation).bind y.1.lookup? = none := by
                  rw [hkey]
                  rfl
                have hrepeat := hfresh.repeats hx₀ hy
                rw [outcome_relationJson_of_miss hagain 0]
                split
                · next j' y' hy' =>
                    rw [hy'] at hrepeat
                    exact hrepeat
                · next e y' hy' =>
                    rw [hy'] at hrepeat
                    exact hrepeat
            | some key =>
                rw [hkey] at hy
                have hagain : (memoKey? r relation).bind y.1.lookup? = some j := by
                  rw [hkey]
                  exact hy.lookup (Pass.lookup?_remember x₀.1 key j)
                rw [outcome_relationJson_of_hit hagain]

end Hydration

end RecordMapper
