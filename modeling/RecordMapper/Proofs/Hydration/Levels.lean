import RecordMapper.Proofs.Hydration.Agreement

/-!
# Passes in which the memo never shows

If what a key stands for is the same at every level, then all that is remembered
is faithful wherever it may be served, and calls do what they would do without a
memo. This is so in particular if no two levels are there to differ, provided that
the relations remembered under one key lead to the same records.
-/

namespace RecordMapper.Hydration

open Session

variable {σ ρ α β : Type} [Entity ρ]

/-- Relations that are remembered under one key lead to the same. -/
def Keyed (schema : Schema σ ρ) : Prop :=
  ∀ {r r' : ρ} {relation : String} {key : MemoKey}, memoKey? r relation = some key →
    memoKey? r' relation = some key → ∀ s s', ((schema.resolve r relation).outcome s).1
      = ((schema.resolve r' relation).outcome s').1

/-- What a key stands for is the same at all levels of the pass. -/
def LevelFree (db : Engine σ) (schema : Schema σ ρ) (p : Pass) : Prop :=
  ∀ {r r' : ρ} {relation : String} {key : MemoKey} {levels levels' : Nat} {j : Json},
    memoKey? r relation = some key → memoKey? r' relation = some key →
    levels + 2 ≤ p.maxDepth → levels' + 2 ≤ p.maxDepth →
    Hit.Faithful db schema p ⟨r, relation, levels, j⟩ →
    Hit.Faithful db schema p ⟨r', relation, levels', j⟩

/-- All that `q` remembers is faithful at every level of `p`. -/
def RemembersFaithfully (db : Engine σ) (schema : Schema σ ρ) (p q : Pass) : Prop :=
  ∀ {r : ρ} {relation : String} {key : MemoKey} {levels : Nat} {j : Json},
    memoKey? r relation = some key → q.lookup? key = some j → levels + 2 ≤ p.maxDepth →
    Hit.Faithful db schema p ⟨r, relation, levels, j⟩

/-- From passes with `I` and `J`, both give the same result, and leave such passes. -/
def Coincide (I J : Pass → Prop) (act plain : Expansion σ α) : Prop :=
  ∀ x y, I x.1 → J y.1 → (act.outcome x).1 = (plain.outcome y).1
    ∧ I (act.outcome x).2.1 ∧ J (plain.outcome y).2.1

variable {I J : Pass → Prop}

omit [Entity ρ] in
theorem compositional_coincide :
    Compositional fun α (act plain : Expansion σ α) => Coincide I J act plain where
  pure _ _ _ hx hy := ⟨rfl, hx, hy⟩
  bind {α β act plain f f'} hact hf x y hx hy := by
    obtain ⟨hsame, hx', hy'⟩ := hact x y hx hy
    obtain ⟨result, x', h⟩ := act.exists_outcome x
    obtain ⟨result', y', h'⟩ := plain.exists_outcome y
    rw [h] at hsame hx'
    rw [h'] at hsame hy'
    cases hsame
    rw [outcome_bind, outcome_bind, h, h']
    cases result with
    | ok a => exact hf a x' y' hx' hy'
    | error e => exact ⟨rfl, hx', hy'⟩

theorem coincide_beside {act : Session σ α} (h : act.Steady) :
    Coincide I J (act.beside : Expansion σ α) act.beside :=
  fun x y hx hy => ⟨h x.2 y.2, hx, hy⟩

variable {db : Engine σ} {schema : Schema σ ρ} {p : Pass}

/-- A pass with the relation lists of `p` that remembers faithfully. -/
def Sound (db : Engine σ) (schema : Schema σ ρ) (p q : Pass) : Prop :=
  p.SameNames q ∧ RemembersFaithfully db schema p q

theorem coincide_expandFresh (hdb : db.Steady) (hschema : schema.Steady)
    {expand expand' : ρ → Expansion σ Json}
    (h : ∀ r, Coincide (Sound db schema p) p.SameNames (expand r) (expand' r)) (levels : Nat)
    (r : ρ) (relation : String) :
    Coincide (Sound db schema p) p.SameNames (expandFresh db schema levels expand r relation)
      (expandFresh db schema levels expand' r relation) := by
  refine compositional_coincide.bind (coincide_beside (hschema r relation)) fun resolved => ?_
  have hinner := compositional_coincide.normalize
    (fun q => coincide_beside (q.steady_getDynamic hdb schema)) h resolved
  exact fun x y hx hy => hinner (x.1.deeper, x.2) (y.1.deeper, y.2) hx hy

theorem relation_of_memoKey? {r : ρ} {relation : String} {key : MemoKey}
    (h : memoKey? r relation = some key) : key.relation = relation := by
  obtain ⟨id, -, rfl⟩ := Option.map_eq_some_iff.mp h
  rfl

theorem Sound.remember (hfree : LevelFree db schema p) {q : Pass} (hq : Sound db schema p q)
    {r : ρ} {relation : String} {levels : Nat} {j : Json} (hlevels : levels + 2 ≤ p.maxDepth)
    (hj : Hit.Faithful db schema p ⟨r, relation, levels, j⟩) :
    Sound db schema p (rememberUnder (memoKey? r relation) q j) := by
  cases hkey : memoKey? r relation with
  | none => exact hq
  | some key =>
      refine ⟨hq.1, fun {r' relation' key' levels' j'} hkey' hlookup hlevels' => ?_⟩
      by_cases hsame : key = key'
      · -- the key may be that of another record, and the levels are other levels
        subst hsame
        have hrelation := relation_of_memoKey? hkey
        rw [relation_of_memoKey? hkey'] at hrelation
        subst hrelation
        have hj' : (q.remember key j).lookup? key = some j' := hlookup
        rw [Pass.lookup?_remember] at hj'
        cases hj'
        exact hfree hkey hkey' hlevels hlevels' hj
      · have hj' : (q.remember key j).lookup? key' = some j' := hlookup
        rw [q.lookup?_remember_of_ne hsame] at hj'
        exact hq.2 hkey' hj' hlevels'

theorem coincide_relationJson (hdb : db.Steady) (hschema : schema.Steady)
    (hfree : LevelFree db schema p) {levels : Nat} (hlevels : levels + 2 ≤ p.maxDepth)
    {expand : ρ → Expansion σ Json}
    (h : ∀ r, Coincide (Sound db schema p) p.SameNames (expand r)
      (walk (expandFresh db schema) levels r)) (r : ρ) (relation : String) :
    Coincide (Sound db schema p) p.SameNames (relationJson db schema expand r relation)
      (expandFresh db schema levels (walk (expandFresh db schema) levels) r relation) := by
  have hplain := lasting_relation_fresh Pass.order_sameNames hdb hschema levels r relation
  intro x y hx hy
  cases hfound : (memoKey? r relation).bind x.1.lookup? with
  | some j =>
      obtain ⟨key, hkey, hlookup⟩ := Option.bind_eq_some_iff.mp hfound
      rw [outcome_relationJson_of_hit hfound]
      exact ⟨(hx.2 hkey hlookup hlevels y hy).symm, hx,
        Pass.order_sameNames.trans hy (hplain.keeps y)⟩
  | none =>
      obtain ⟨hsame, hx', hy'⟩ := coincide_expandFresh hdb hschema h levels r relation x y hx hy
      obtain ⟨result, x', hact⟩ := exists_outcome (expandFresh db schema levels expand r relation) x
      rw [outcome_relationJson_of_miss hfound levels, hact]
      rw [hact] at hsame hx'
      cases result with
      | error e => exact ⟨hsame, hx', hy'⟩
      | ok j =>
          have hj : Hit.Faithful db schema p ⟨r, relation, levels, j⟩ :=
            Hit.faithful_of_outcome hdb hschema hy hsame.symm
          exact ⟨hsame, hx'.remember hfree hlevels hj, hy'⟩

theorem coincide_walk (hdb : db.Steady) (hschema : schema.Steady)
    (hfree : LevelFree db schema p) : ∀ (levels : Nat) (r : ρ), levels ≤ p.maxDepth - 1 →
      Coincide (Sound db schema p) p.SameNames
        (walk (fun _ => relationJson db schema) levels r) (walk (expandFresh db schema) levels r)
  | 0, r, _ => compositional_coincide.pure (Json.obj (storedMembers r))
  | levels + 1, r, hlevels => by
      have hact := coincide_relationJson hdb hschema hfree (by omega)
        (fun r => coincide_walk hdb hschema hfree levels r (by omega)) r
      intro x y hx hy
      have hnames : relationNames y.1 r = relationNames x.1 r :=
        (relationNames_congr hy r).symm.trans (relationNames_congr hx.1 r)
      have hmembers := compositional_coincide.bind
        (compositional_coincide.addRelations hact (relationNames x.1 r) (storedMembers r))
        fun members => compositional_coincide.pure (Json.obj members)
      have hplain : (walk (expandFresh db schema) (levels + 1) r).outcome y
          = (do
              let members ← addRelations (expandFresh db schema levels
                (walk (expandFresh db schema) levels) r) (relationNames x.1 r) (storedMembers r)
              pure (Json.obj members) : Expansion σ Json).outcome y := by
        rw [← hnames]
        rfl
      rw [hplain]
      exact hmembers x y hx hy

/-! ## Calls -/

theorem coincide_walkRecord (hdb : db.Steady) (hschema : schema.Steady)
    (hfree : LevelFree db schema p) (r : ρ) :
    Coincide (fun q => p.SamePlace q ∧ RemembersFaithfully db schema p q) p.SamePlace
      (Request.walkRecord (fun _ => relationJson db schema) r)
      (Request.walkRecord (expandFresh db schema) r) := by
  intro x y hx hy
  have hx' : (Request.walkRecord (fun _ => relationJson db schema) r).outcome x
      = (walk (fun _ => relationJson db schema) p.levels r).outcome x := by
    rw [hx.1.levels_eq]
    rfl
  have hy' : (Request.walkRecord (expandFresh db schema) r).outcome y
      = (walk (expandFresh db schema) p.levels r).outcome y := by
    rw [hy.levels_eq]
    rfl
  have hlevels : p.levels ≤ p.maxDepth - 1 := by
    rw [Pass.levels]
    omega
  have hmemo := lasting_walk Pass.order_extends
    (fun _ _ h => lasting_relationJson hdb hschema h) p.levels r
  have hfresh := lasting_walk_fresh Pass.order_samePlace hdb hschema p.levels r
  obtain ⟨hsame, hsound, -⟩ :=
    coincide_walk hdb hschema hfree p.levels r hlevels x y ⟨hx.1.sameNames, hx.2⟩ hy.sameNames
  rw [hx', hy']
  exact ⟨hsame, ⟨Pass.order_samePlace.trans hx.1 (hmemo.keeps x).toSamePlace, hsound.2⟩,
    Pass.order_samePlace.trans hy (hfresh.keeps y)⟩

theorem coincide_walkRequest (hdb : db.Steady) (hschema : schema.Steady)
    (hfree : LevelFree db schema p) : ∀ request : Request ρ,
      Coincide (fun q => p.SamePlace q ∧ RemembersFaithfully db schema p q) p.SamePlace
        (request.run db schema) (request.walk (expandFresh db schema)) := by
  intro request
  rw [Request.run_eq_walk]
  cases request with
  | one r => exact coincide_walkRecord hdb hschema hfree r
  | all s =>
      exact compositional_coincide.bind
        (compositional_coincide.arrayOf (coincide_walkRecord hdb hschema hfree) s.items)
        fun js => compositional_coincide.pure (Json.arr js)

theorem remembersFaithfully_runAll (hdb : db.Steady) (hschema : schema.Steady)
    (hfree : LevelFree db schema p) (s : σ) : ∀ (requests : List (Request ρ)) (x : Pass × σ),
      p.SamePlace x.1 ∧ RemembersFaithfully db schema p x.1 →
      p.SamePlace (runAll db schema requests x).2.1
        ∧ RemembersFaithfully db schema p (runAll db schema requests x).2.1
  | [], _, hx => hx
  | request :: rest, x, hx => by
      have hx' := (coincide_walkRequest hdb hschema hfree request x (p, s) hx
        (Pass.order_samePlace.refl p)).2.1
      exact remembersFaithfully_runAll hdb hschema hfree s rest _ hx'

/-- On a new pass whose keys stand for the same at all levels, no call shows the memo. -/
theorem run_eq_fresh_of_levelFree (hdb : db.Steady) (hschema : schema.Steady) {maxDepth : Nat}
    {extra skipped : List String} (hfree : LevelFree db schema ⟨maxDepth, extra, skipped, 0, []⟩)
    (earlier : List (Request ρ)) (request : Request ρ) (s : σ) :
    ((request.run db schema).outcome
        (runAll db schema earlier (⟨maxDepth, extra, skipped, 0, []⟩, s)).2).1
      = ((request.walk (expandFresh db schema)).outcome (⟨maxDepth, extra, skipped, 0, []⟩, s)).1 := by
  have hstart := Pass.order_samePlace.refl ⟨maxDepth, extra, skipped, 0, []⟩
  have hempty : RemembersFaithfully db schema ⟨maxDepth, extra, skipped, 0, []⟩
      ⟨maxDepth, extra, skipped, 0, []⟩ := by
    intro r relation key levels j _ hj
    cases hj
  have hnow := remembersFaithfully_runAll hdb hschema hfree s earlier
    (⟨maxDepth, extra, skipped, 0, []⟩, s) ⟨hstart, hempty⟩
  exact (coincide_walkRequest hdb hschema hfree request _ (_, s) hnow hstart).1

/-- Two levels leave a relation one level to be expanded at. -/
theorem levelFree_of_keyed (hdb : db.Steady) (hschema : schema.Steady) (hkeyed : Keyed schema)
    (h : p.maxDepth ≤ 2) : LevelFree db schema p := by
  intro r r' relation key levels levels' j hkey hkey' hlevels hlevels' hj z hz
  obtain rfl : levels = 0 := by omega
  obtain rfl : levels' = 0 := by omega
  have hfound := hj z hz
  obtain ⟨y, hy⟩ : ∃ y, (expandFresh db schema 0 (walk (expandFresh db schema) 0) r
      relation).outcome z = (.ok j, y) := ⟨_, Prod.ext hfound rfl⟩
  obtain ⟨resolved, x, hx, hrest⟩ := outcome_bind_eq_ok_iff.mp hy
  have hnormalize : Lasting Pass.SameNames
      (normalize db schema (walk (expandFresh db schema) 0) resolved) :=
    lasting_normalize Pass.order_sameNames hdb
      (lasting_walk_fresh Pass.order_sameNames hdb hschema 0) resolved
  have hplain := lasting_within Pass.order_sameNames hnormalize
  have hx' : ((schema.resolve r' relation).beside.outcome z) = (.ok resolved, (z.1, _)) :=
    Prod.ext ((hkeyed hkey' hkey z.2 z.2).trans (congrArg Prod.fst hx)) rfl
  have hpass : z.1 = x.1 := congrArg (fun o => o.2.1) hx
  show ((((schema.resolve r' relation).beside : Expansion σ _) >>= fun resolved =>
    within Pass.deeper Pass.shallower (normalize db schema (walk (expandFresh db schema) 0)
      resolved)).outcome z).1 = .ok j
  rw [outcome_bind_of_ok hx']
  have hback : z.1.SameNames _ := hpass ▸ hplain.after hrest
  exact hplain.repeats hrest hback.symm

end RecordMapper.Hydration
