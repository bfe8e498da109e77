import RecordMapper.Proofs.Hydration.Hits

/-!
# Agreement with the walk without a memo

With the memo and without it, an expansion gives the same result if its hits
serve what an expansion without a memo would give, and a result that is the same
comes from such hits only. The second half needs that results show what they are
made of: arrays show their items, and objects the values of their members. A
relation named twice overwrites its member, but it lasts, so both values are one.
-/

namespace RecordMapper.Hydration

open Session

variable {σ ρ α β : Type}

/-! ## Agreement -/

/-- A noted expansion gives what the plain one gives if and only if its hits are good.
`I` says in which passes, and holds on afterwards. -/
structure Agrees (I : Pass → Prop) (good : Hit ρ → Prop)
    (noted : Expansion (List (Hit ρ) × σ) α) (plain : Expansion σ α) : Prop where
  stays : ∀ x, I x.1 → I (noted.outcome x).2.1
  stays_plain : ∀ y, I y.1 → I (plain.outcome y).2.1
  hits : ∀ x y, I x.1 → I y.1 → ∃ hits, (noted.outcome x).2.2.1 = x.2.1 ++ hits
    ∧ ((∀ h ∈ hits, good h) → (noted.outcome x).1 = (plain.outcome y).1)
    ∧ (∀ a, (noted.outcome x).1 = .ok a → (plain.outcome y).1 = .ok a → ∀ h ∈ hits, good h)

/-- Equal results of the continuations come from equal intermediate results. -/
def Shows (I : Pass → Prop) (noted : Expansion (List (Hit ρ) × σ) α) (plain : Expansion σ α)
    (f : α → Expansion (List (Hit ρ) × σ) β) (f' : α → Expansion σ β) : Prop :=
  ∀ {x y a a' x' y' b}, I x.1 → I y.1 → noted.outcome x = (.ok a, x') →
    plain.outcome y = (.ok a', y') → ((f a).outcome x').1 = .ok b →
    ((f' a').outcome y').1 = .ok b → a = a'

variable {I : Pass → Prop} {good : Hit ρ → Prop}

theorem agrees_pure (a : α) :
    Agrees I good (pure a : Expansion (List (Hit ρ) × σ) α) (pure a : Expansion σ α) where
  stays _ hx := hx
  stays_plain _ hy := hy
  hits _ _ _ _ := ⟨[], (List.append_nil _).symm, fun _ => rfl, fun _ _ _ _ h => by cases h⟩

theorem agrees_bind {noted : Expansion (List (Hit ρ) × σ) α} {plain : Expansion σ α}
    {f : α → Expansion (List (Hit ρ) × σ) β} {f' : α → Expansion σ β}
    (hact : Agrees I good noted plain) (hf : ∀ a, Agrees I good (f a) (f' a))
    (hshows : Shows I noted plain f f') : Agrees I good (noted >>= f) (plain >>= f') where
  stays x hx := by
    have hx' := hact.stays x hx
    obtain ⟨result, x', h⟩ := noted.exists_outcome x
    rw [h] at hx'
    rw [outcome_bind, h]
    cases result with
    | ok a => exact (hf a).stays x' hx'
    | error e => exact hx'
  stays_plain y hy := by
    have hy' := hact.stays_plain y hy
    obtain ⟨result, y', h⟩ := plain.exists_outcome y
    rw [h] at hy'
    rw [outcome_bind, h]
    cases result with
    | ok a => exact (hf a).stays_plain y' hy'
    | error e => exact hy'
  hits x y hx hy := by
    obtain ⟨first, hlog, hsound, hexact⟩ := hact.hits x y hx hy
    have hx' := hact.stays x hx
    have hy' := hact.stays_plain y hy
    obtain ⟨result, x', h⟩ := noted.exists_outcome x
    obtain ⟨result', y', h'⟩ := plain.exists_outcome y
    rw [h] at hlog hsound hexact hx'
    rw [h'] at hsound hexact hy'
    rw [outcome_bind, outcome_bind, h, h']
    cases result with
    | error e =>
        refine ⟨first, hlog, fun hgood => ?_, fun b hb => by cases hb⟩
        cases hsound hgood
        rfl
    | ok a =>
        obtain ⟨second, hlog', hsound', hexact'⟩ := (hf a).hits x' y' hx' hy'
        refine ⟨first ++ second, ?_, fun hgood => ?_, fun b hb hb' => ?_⟩
        · rw [hlog', hlog, List.append_assoc]
        · rw [List.forall_mem_append] at hgood
          cases hsound hgood.1
          exact hsound' hgood.2
        · cases result' with
          | error e => cases hb'
          | ok a' =>
              obtain rfl : a = a' := hshows hx hy h h' hb hb'
              exact List.forall_mem_append.mpr ⟨hexact a rfl rfl, hexact' b hb hb'⟩

/-- An answer of a steady database is the same at any time, and no hit is part of it. -/
theorem agrees_beside_bind {act : Session σ α} (h : act.Steady)
    {f : α → Expansion (List (Hit ρ) × σ) β} {f' : α → Expansion σ β}
    (hf : ∀ a, Agrees I good (f a) (f' a)) :
    Agrees I good (act.beside.beside >>= f) (act.beside >>= f') := by
  have hsame : ∀ (x : Pass × (List (Hit ρ) × σ)) (y : Pass × σ),
      (act.beside.beside.outcome x).1 = (act.beside.outcome y).1 := fun x y => h x.2.2 y.2
  have hact : Agrees I good (act.beside.beside : Expansion (List (Hit ρ) × σ) α)
      (act.beside : Expansion σ α) := by
    refine ⟨fun _ hx => hx, fun _ hy => hy, fun x y _ _ => ?_⟩
    exact ⟨[], (List.append_nil _).symm, fun _ => hsame x y, fun _ _ _ _ h => by cases h⟩
  refine agrees_bind hact hf fun {x y a a' x' y' b} _ _ ha ha' _ _ => ?_
  have hxy := hsame x y
  rw [ha, ha'] at hxy
  exact Except.ok.inj hxy

theorem agrees_within {noted : Expansion (List (Hit ρ) × σ) α} {plain : Expansion σ α}
    (hdeeper : ∀ {p}, I p → I p.deeper) (hshallower : ∀ {p}, I p → I p.shallower)
    (h : Agrees I good noted plain) :
    Agrees I good (within Pass.deeper Pass.shallower noted)
      (within Pass.deeper Pass.shallower plain) where
  stays x hx := hshallower (h.stays (x.1.deeper, x.2) (hdeeper hx))
  stays_plain y hy := hshallower (h.stays_plain (y.1.deeper, y.2) (hdeeper hy))
  hits x y hx hy := h.hits (x.1.deeper, x.2) (y.1.deeper, y.2) (hdeeper hx) (hdeeper hy)

/-! ## Arrays -/

theorem agrees_map {noted : Expansion (List (Hit ρ) × σ) α} {plain : Expansion σ α} {g : α → β}
    (h : Agrees I good noted plain) (hg : ∀ {a a'}, g a = g a' → a = a') :
    Agrees I good (noted >>= fun a => pure (g a)) (plain >>= fun a => pure (g a)) := by
  refine agrees_bind h (fun a => agrees_pure (g a)) fun _ _ _ _ hb hb' => hg ?_
  exact Except.ok.inj (hb.trans hb'.symm)

theorem agrees_cons {head : Expansion (List (Hit ρ) × σ) α} {head' : Expansion σ α}
    {tail : Expansion (List (Hit ρ) × σ) (List α)} {tail' : Expansion σ (List α)}
    (hhead : Agrees I good head head') (htail : Agrees I good tail tail') :
    Agrees I good (head >>= fun a => tail >>= fun rest => pure (a :: rest))
      (head' >>= fun a => tail' >>= fun rest => pure (a :: rest)) := by
  have hmore : ∀ a : α, Agrees I good (tail >>= fun rest => pure (a :: rest))
      (tail' >>= fun rest => pure (a :: rest)) :=
    fun a => agrees_map htail fun h => (List.cons.inj h).2
  refine agrees_bind hhead hmore fun _ _ _ _ hb hb' => ?_
  obtain ⟨rest, -, rfl⟩ := outcome_bind_pure_eq_ok_iff.mp hb
  obtain ⟨rest', -, hrest⟩ := outcome_bind_pure_eq_ok_iff.mp hb'
  exact (List.cons.inj hrest).1.symm

theorem agrees_arrayOf {γ : Type} {act : γ → Expansion (List (Hit ρ) × σ) Json}
    {act' : γ → Expansion σ Json} (h : ∀ x, Agrees I good (act x) (act' x)) :
    ∀ xs : List γ, Agrees I good (arrayOf act xs) (arrayOf act' xs)
  | [] => agrees_pure []
  | x :: rest => agrees_cons (h x) (agrees_arrayOf h rest)

/-! ## Relations -/

variable [Entity ρ] {db : Engine σ} {schema : Schema σ ρ}
  {expand : ρ → Expansion (List (Hit ρ) × σ) Json} {expand' : ρ → Expansion σ Json}

theorem agrees_related (h : ∀ r, Agrees I good (expand r) (expand' r)) (r : ρ) :
    Agrees I good (related expand r) (related expand' r) := by
  unfold related
  cases Entity.reference r with
  | none => exact h r
  | some j => exact agrees_pure j

mutual

theorem agrees_normalize (hdb : db.Steady) (h : ∀ r, Agrees I good (expand r) (expand' r)) :
    ∀ relation : Relation ρ,
      Agrees I good (normalize (db.beside _) (schema.beside _) expand relation)
        (normalize db schema expand' relation)
  | .absent => agrees_pure Json.null
  | .scalar v => agrees_pure v.toJson
  | .one r => agrees_related h r
  | .many rs => agrees_map (agrees_arrayOf (agrees_related h) rs) Json.arr.inj
  | .list items => agrees_map (agrees_normalizeAll hdb h items) Json.arr.inj
  | .deferred q => by
      rw [normalize, normalize, q.getDynamic_beside]
      exact agrees_beside_bind (q.steady_getDynamic hdb schema) fun found =>
        agrees_map (agrees_arrayOf (agrees_related h) found.items) Json.arr.inj

theorem agrees_normalizeAll (hdb : db.Steady) (h : ∀ r, Agrees I good (expand r) (expand' r)) :
    ∀ items : List (Relation ρ),
      Agrees I good (normalizeAll (db.beside _) (schema.beside _) expand items)
        (normalizeAll db schema expand' items)
  | [] => agrees_pure []
  | x :: rest => agrees_cons (agrees_normalize hdb h x) (agrees_normalizeAll hdb h rest)

end

theorem agrees_expandFresh (hdb : db.Steady) (hschema : schema.Steady)
    (hdeeper : ∀ {p}, I p → I p.deeper) (hshallower : ∀ {p}, I p → I p.shallower)
    (h : ∀ r, Agrees I good (expand r) (expand' r)) (levels : Nat) (r : ρ) (relation : String) :
    Agrees I good (expandFresh (db.beside _) (schema.beside _) levels expand r relation)
      (expandFresh db schema levels expand' r relation) :=
  agrees_beside_bind (hschema r relation) fun resolved =>
    agrees_within hdeeper hshallower (agrees_normalize hdb h resolved)

/-! ## Objects -/

omit [Entity ρ] in
theorem agrees_own_bind {f : List String → Expansion (List (Hit ρ) × σ) α}
    {f' : List String → Expansion σ α} [Entity ρ] {p : Pass} (r : ρ)
    (h : ∀ names, Agrees p.SameNames good (f names) (f' names)) :
    Agrees p.SameNames good (own >>= fun q => f (relationNames q r))
      (own >>= fun q => f' (relationNames q r)) where
  stays x hx := (h (relationNames x.1 r)).stays x hx
  stays_plain y hy := (h (relationNames y.1 r)).stays_plain y hy
  hits x y hx hy := by
    have hnames : relationNames x.1 r = relationNames y.1 r :=
      (relationNames_congr hx r).symm.trans (relationNames_congr hy r)
    have hplain : (own >>= fun q => f' (relationNames q r)).outcome y
        = (f' (relationNames x.1 r)).outcome y := by
      rw [hnames]
      rfl
    rw [hplain]
    exact (h (relationNames x.1 r)).hits x y hx hy

/-- The value of a member, the first one if several have the name. -/
def member? (name : String) (members : List (String × Json)) : Option Json :=
  (members.find? fun m => m.1 == name).map Prod.snd

theorem member?_insertMember (key name : String) (j : Json) :
    ∀ members : List (String × Json), member? name (Json.insertMember key j members)
      = if key = name then some j else member? name members
  | [] => by
      by_cases h : key = name <;> simp [member?, Json.insertMember, h]
  | m :: rest => by
      have ih := member?_insertMember key name j rest
      unfold member? at ih ⊢
      rw [Json.insertMember]
      split
      · by_cases h : key = name <;> simp [h]
      · split
        · next hkey =>
            by_cases h : key = name
            · simp [h]
            · have hm : ¬ m.1 = name := fun hm => h (hkey.trans hm)
              simp [h, hm]
        · next hkey =>
            by_cases hm : m.1 = name
            · have h : ¬ key = name := fun h => hkey (h.trans hm.symm)
              simp [hm, h]
            · rw [List.find?_cons_of_neg (by simpa using hm), ih,
                List.find?_cons_of_neg (by simpa using hm)]

/-- Each relation added stands in the object with the JSON that expanding it again gives. -/
theorem member?_addRelations {E : Pass → Pass → Prop} (hE : Pass.Order E) {τ : Type}
    {act : String → Expansion τ Json} (h : ∀ name, Lasting E (act name)) (name : String) :
    ∀ (names : List String) {members members' : List (String × Json)} {x x' : Pass × τ},
      (addRelations act names members).outcome x = (.ok members', x') →
      (name ∉ names → member? name members' = member? name members)
        ∧ (name ∈ names → ∃ j, member? name members' = some j
          ∧ ∀ y, E x'.1 y.1 → ((act name).outcome y).1 = .ok j)
  | [], members, members', x, x', hrun => by
      cases hrun
      exact ⟨fun _ => rfl, fun hmem => absurd hmem (List.not_mem_nil)⟩
  | first :: rest, members, members', x, x', hrun => by
      obtain ⟨j, x₁, hfirst, hrest⟩ := outcome_bind_eq_ok_iff.mp hrun
      obtain ⟨hold, hnew⟩ := member?_addRelations hE h name rest hrest
      have hlater := (lasting_addRelations hE h rest _).after hrest
      rw [member?_insertMember] at hold
      constructor
      · intro hmem
        rw [List.mem_cons, not_or] at hmem
        rw [hold hmem.2, if_neg fun he => hmem.1 he.symm]
      · intro hmem
        by_cases hmem' : name ∈ rest
        · exact hnew hmem'
        · obtain rfl : name = first := (List.mem_cons.mp hmem).resolve_right hmem'
          refine ⟨j, ?_, fun y hy => (h name).repeats hfirst (hE.trans hlater hy)⟩
          rw [hold hmem', if_pos rfl]

theorem member?_addRelations_cons {E : Pass → Pass → Prop} (hE : Pass.Order E) {τ : Type}
    {act : String → Expansion τ Json} (h : ∀ name, Lasting E (act name)) {name : String}
    {rest : List String} {members members' : List (String × Json)} {x x' : Pass × τ} {j : Json}
    (hfirst : (act name).outcome x = (.ok j, x'))
    (hrest : ((addRelations act rest (Json.insertMember name j members)).outcome x').1
      = .ok members') : member? name members' = some j := by
  obtain ⟨x'', hx''⟩ : ∃ x'', (addRelations act rest (Json.insertMember name j members)).outcome x'
      = (.ok members', x'') := ⟨_, Prod.ext hrest rfl⟩
  obtain ⟨j', hj', hagain⟩ := (member?_addRelations hE h name (name :: rest)
    (outcome_bind_eq_ok_iff.mpr ⟨j, x', hfirst, hx''⟩)).2 List.mem_cons_self
  have hlater := (lasting_addRelations hE h rest _).after hx''
  have hsame := (h name).repeats hfirst hlater
  rw [hagain x'' (hE.refl x''.1)] at hsame
  cases hsame
  exact hj'

omit [Entity ρ] in
theorem agrees_addRelations {p : Pass} {act : String → Expansion (List (Hit ρ) × σ) Json}
    {act' : String → Expansion σ Json} (h : ∀ name, Agrees p.SameNames good (act name) (act' name))
    (hnoted : ∀ name, Lasting Pass.Extends (act name))
    (hplain : ∀ name, Lasting Pass.SameNames (act' name)) :
    ∀ (names : List String) (members : List (String × Json)),
      Agrees p.SameNames good (addRelations act names members) (addRelations act' names members)
  | [], members => agrees_pure members
  | name :: rest, members => by
      refine agrees_bind (h name) (fun j => agrees_addRelations h hnoted hplain rest _) ?_
      intro x y j j' x' y' members' _ _ hx hy hb hb'
      have hj := member?_addRelations_cons Pass.order_extends hnoted hx hb
      have hj' := member?_addRelations_cons Pass.order_sameNames hplain hy hb'
      exact Option.some.inj (hj.symm.trans hj')

/-! ## Records -/

theorem lasting_walk_fresh {E : Pass → Pass → Prop} (hE : Pass.Order E) (hdb : db.Steady)
    (hschema : schema.Steady) (levels : Nat) (r : ρ) :
    Lasting E (walk (expandFresh db schema) levels r) :=
  lasting_walk hE (fun levels _ h => lasting_expandFresh hE hdb hschema levels h) levels r

theorem lasting_relation_fresh {E : Pass → Pass → Prop} (hE : Pass.Order E) (hdb : db.Steady)
    (hschema : schema.Steady) (levels : Nat) (r : ρ) (relation : String) :
    Lasting E (expandFresh db schema levels (walk (expandFresh db schema) levels) r relation) :=
  lasting_expandFresh hE hdb hschema levels (lasting_walk_fresh hE hdb hschema levels) r relation

theorem lasting_walk_noted (hdb : db.Steady) (hschema : schema.Steady) (levels : Nat) (r : ρ) :
    Lasting Pass.Extends (walk (relationNoted db schema) levels r) :=
  lasting_walk Pass.order_extends
    (fun levels _ h => lasting_relationNoted hdb hschema levels h) levels r

/-- One expansion without the memo is enough to know a hit as faithful. -/
theorem Hit.faithful_of_outcome (hdb : db.Steady) (hschema : schema.Steady) {p : Pass} {h : Hit ρ}
    {y : Pass × σ} (hy : p.SameNames y.1)
    (hj : ((expandFresh db schema h.levels (walk (expandFresh db schema) h.levels) h.record
      h.relation).outcome y).1 = .ok h.served) : h.Faithful db schema p := by
  intro z hz
  have hplain := lasting_relation_fresh Pass.order_sameNames hdb hschema h.levels h.record
    h.relation
  have hy' : (expandFresh db schema h.levels (walk (expandFresh db schema) h.levels) h.record
      h.relation).outcome y = (.ok h.served, _) := Prod.ext hj rfl
  have hkept := Pass.order_sameNames.trans hy (hplain.after hy')
  exact hplain.repeats hy' (Pass.order_sameNames.trans hkept.symm hz)

/-- A hit agrees if it is faithful, and an expansion agrees if the hits below it do. -/
theorem agrees_relationNoted (hdb : db.Steady) (hschema : schema.Steady) (p : Pass) (levels : Nat)
    (h : ∀ r, Agrees p.SameNames (Hit.Faithful db schema p)
      (walk (relationNoted db schema) levels r) (walk (expandFresh db schema) levels r))
    (r : ρ) (relation : String) :
    Agrees p.SameNames (Hit.Faithful db schema p)
      (relationNoted db schema levels (walk (relationNoted db schema) levels) r relation)
      (expandFresh db schema levels (walk (expandFresh db schema) levels) r relation) := by
  have hfresh := agrees_expandFresh hdb hschema (fun {q} hq => hq) (fun {q} hq => hq) h levels r
    relation
  have hplain := lasting_relation_fresh Pass.order_sameNames hdb hschema levels r relation
  have hnoted := lasting_relationNoted hdb hschema levels
    (lasting_walk_noted hdb hschema levels) r relation
  refine ⟨fun x hx => ?_, fun y hy => ?_, fun x y hx hy => ?_⟩
  · exact Pass.order_sameNames.trans hx (hnoted.keeps x).sameNames
  · exact Pass.order_sameNames.trans hy (hplain.keeps y)
  · cases hfound : (memoKey? r relation).bind x.1.lookup? with
    | some j =>
        -- nothing runs below a hit, so it stands or falls by itself
        rw [outcome_relationNoted_of_hit hfound]
        refine ⟨[⟨r, relation, levels, j⟩], rfl, fun hgood => ?_, fun j' hj hj' hit hmem => ?_⟩
        · exact (hgood _ List.mem_cons_self y hy).symm
        · cases hj
          obtain rfl := List.mem_singleton.mp hmem
          exact Hit.faithful_of_outcome hdb hschema hy hj'
    | none =>
        obtain ⟨hits, hlog, hsound, hexact⟩ := hfresh.hits x y hx hy
        rw [outcome_relationNoted_of_miss hfound, outcome_relationJson_of_miss hfound levels]
        obtain ⟨result, x', hx'⟩ := exists_outcome (expandFresh (db.beside (List (Hit ρ)))
          (schema.beside (List (Hit ρ))) levels (walk (relationNoted db schema) levels) r
          relation) x
        rw [hx'] at hlog hsound hexact ⊢
        cases result <;> exact ⟨hits, hlog, hsound, hexact⟩

theorem agrees_walk (hdb : db.Steady) (hschema : schema.Steady) (p : Pass) :
    ∀ (levels : Nat) (r : ρ), Agrees p.SameNames (Hit.Faithful db schema p)
      (walk (relationNoted db schema) levels r) (walk (expandFresh db schema) levels r)
  | 0, r => agrees_pure (Json.obj (storedMembers r))
  | levels + 1, r => by
      have ih := agrees_walk hdb hschema p levels
      have hrelations := agrees_addRelations (agrees_relationNoted hdb hschema p levels ih r)
        (lasting_relationNoted hdb hschema levels (lasting_walk_noted hdb hschema levels) r)
        (lasting_relation_fresh Pass.order_sameNames hdb hschema levels r)
      exact agrees_own_bind r fun names => agrees_map (hrelations names (storedMembers r))
        Json.obj.inj

end RecordMapper.Hydration
