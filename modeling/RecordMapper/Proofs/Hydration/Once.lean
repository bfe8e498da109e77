import RecordMapper.Proofs.Hydration.Memo
import RecordMapper.Proofs.Hydration.Trees

/-!
# How often a relation is resolved

A relation is remembered once it is complete. Until then the memo does not have it, so
a record that is reached again through one of its own relations has the relation
resolved a second time. That is the only way (`nodup_resolved_iff`): calls that all
succeed resolve the relation under a key at most once if and only if no relation with a
key is resolved again within its own expansion. The resolutions of one key therefore lie
within one another, and there are no more of them than levels at which relations are
expanded. With a limit of two there is one such level. With three a record that leads to
itself has its relation resolved twice.

Resolutions are counted on a traced schema, whose log is what the trees say was resolved.
-/

namespace RecordMapper.Hydration

open Session

variable {σ ρ α : Type}

/-! ## What was resolved -/

mutual

/-- The relations that were resolved while the tree grew, in order. -/
def Tree.visits : Tree ρ → List (Visit ρ)
  | .plain _ => []
  | .array items => visitsOf items
  | .record _ branches => visitsWithin branches
  | .resolved v t => v :: t.visits
  | .recalled _ => []
termination_by structural t => t

def visitsOf : List (Tree ρ) → List (Visit ρ)
  | [] => []
  | t :: rest => t.visits ++ visitsOf rest
termination_by structural l => l

def visitsWithin : List (String × Tree ρ) → List (Visit ρ)
  | [] => []
  | (_, t) :: rest => t.visits ++ visitsWithin rest
termination_by structural l => l

end

/-- The relation `v` was resolved while the tree grew, and came to `t`. -/
inductive Tree.Resolves : Tree ρ → Visit ρ → Tree ρ → Prop
  | here (v t) : (Tree.resolved v t).Resolves v t
  | item {items t v t'} : t ∈ items → t.Resolves v t' → (Tree.array items).Resolves v t'
  | branch {r branches b v t'} : b ∈ branches → b.2.Resolves v t' →
      (Tree.record r branches).Resolves v t'
  | within {w t v t'} : t.Resolves v t' → (Tree.resolved w t).Resolves v t'

theorem sublist_visitsOf {t : Tree ρ} : ∀ {items : List (Tree ρ)}, t ∈ items →
    t.visits.Sublist (visitsOf items)
  | t' :: rest, h => by
      rcases List.mem_cons.mp h with rfl | h
      · exact List.sublist_append_left _ _
      · exact (sublist_visitsOf h).trans (List.sublist_append_right _ _)

theorem sublist_visitsWithin {b : String × Tree ρ} : ∀ {branches : List (String × Tree ρ)},
    b ∈ branches → b.2.visits.Sublist (visitsWithin branches)
  | b' :: rest, h => by
      rcases List.mem_cons.mp h with rfl | h
      · exact List.sublist_append_left _ _
      · exact (sublist_visitsWithin h).trans (List.sublist_append_right _ _)

theorem Tree.Resolves.sublist {t t' : Tree ρ} {v : Visit ρ} (h : t.Resolves v t') :
    (v :: t'.visits).Sublist t.visits := by
  induction h with
  | here v t => exact List.Sublist.refl _
  | item ht _ ih => exact ih.trans (sublist_visitsOf ht)
  | branch hb _ ih => exact ih.trans (sublist_visitsWithin hb)
  | within _ ih => exact ih.trans (List.sublist_cons_self _ _)

variable [Entity ρ]

/-- What the relation is remembered under. -/
def visitKey? (v : Visit ρ) : Option MemoKey := memoKey? v.record v.relation

/-- The keys of the relations, for records with an identifier. -/
def keysOf (visits : List (Visit ρ)) : List MemoKey := visits.filterMap visitKey?

theorem keysOf_append (visits visits' : List (Visit ρ)) :
    keysOf (visits ++ visits') = keysOf visits ++ keysOf visits' :=
  List.filterMap_append

theorem keysOf_cons (v : Visit ρ) (visits : List (Visit ρ)) :
    keysOf (v :: visits) = (visitKey? v).toList ++ keysOf visits := by
  unfold keysOf
  cases hkey : visitKey? v with
  | none => rw [List.filterMap_cons_none hkey, Option.toList_none, List.nil_append]
  | some key => rw [List.filterMap_cons_some hkey, Option.toList_some, List.singleton_append]

/-- No relation with a key is resolved again while it is being expanded itself. -/
def Tree.Unnested (t : Tree ρ) : Prop :=
  ∀ v t', t.Resolves v t' → ∀ key, visitKey? v = some key →
    key ∉ keysOf t'.visits

theorem unnested_array_iff {items : List (Tree ρ)} :
    (Tree.array items).Unnested ↔ ∀ t ∈ items, t.Unnested := by
  constructor
  · intro h t ht v t' hresolves
    exact h v t' (.item ht hresolves)
  · intro h v t' hresolves
    cases hresolves with
    | item ht hresolves => exact h _ ht v t' hresolves

theorem unnested_record_iff {r : ρ} {branches : List (String × Tree ρ)} :
    (Tree.record r branches).Unnested ↔ ∀ b ∈ branches, b.2.Unnested := by
  constructor
  · intro h b hb v t' hresolves
    exact h v t' (.branch hb hresolves)
  · intro h v t' hresolves
    cases hresolves with
    | branch hb hresolves => exact h _ hb v t' hresolves

theorem unnested_resolved_iff {v : Visit ρ} {t : Tree ρ} :
    (Tree.resolved v t).Unnested
      ↔ (∀ key, visitKey? v = some key → key ∉ keysOf t.visits) ∧ t.Unnested := by
  constructor
  · intro h
    exact ⟨h v t (.here v t), fun w t' hresolves => h w t' (.within hresolves)⟩
  · rintro ⟨hhere, hwithin⟩ w t' hresolves
    cases hresolves with
    | here => exact hhere
    | within hresolves => exact hwithin w t' hresolves

/-- A key that is resolved within its own relation is resolved twice. -/
theorem unnested_of_nodup {t : Tree ρ} (h : (keysOf t.visits).Nodup) : t.Unnested := by
  intro v t' hresolves key hkey hmem
  have hkeys : (keysOf (v :: t'.visits)).Nodup := h.sublist (hresolves.sublist.filterMap _)
  rw [keysOf_cons, hkey, Option.toList_some, List.singleton_append, List.nodup_cons] at hkeys
  exact hkeys.1 hmem

/-! ## Accounts -/

/-- From `x` to `x'` these relations were resolved. Their keys are those that are new in the
memo. None comes more than `n` times, and each comes once if `single` holds. -/
structure Accounts (n : Nat) (single : Prop) (visits : List (Visit ρ))
    (x x' : Course ρ × (List (Visit ρ) × σ)) : Prop where
  limit : x'.1.maxDepth = x.1.maxDepth
  log : x'.2.1 = x.2.1 ++ visits
  kept : ∀ key, key ∈ x'.1.kept.map Prod.fst ↔ key ∈ x.1.kept.map Prod.fst ∨ key ∈ keysOf visits
  new : ∀ key ∈ keysOf visits, key ∉ x.1.kept.map Prod.fst
  count : ∀ key, (keysOf visits).count key ≤ n
  nodup : single → (keysOf visits).Nodup

theorem Accounts.refl (n : Nat) (single : Prop) (x : Course ρ × (List (Visit ρ) × σ)) :
    Accounts n single [] x x where
  limit := rfl
  log := (List.append_nil _).symm
  kept key := by simp [keysOf]
  new key hkey := by cases hkey
  count key := Nat.zero_le n
  nodup _ := List.nodup_nil

theorem Accounts.weaken {n n' : Nat} {single single' : Prop} {visits : List (Visit ρ)}
    {x x' : Course ρ × (List (Visit ρ) × σ)} (h : Accounts n single visits x x') (hle : n ≤ n')
    (himp : single' → single) : Accounts n' single' visits x x' :=
  ⟨h.limit, h.log, h.kept, h.new, fun key => Nat.le_trans (h.count key) hle,
    fun hsingle => h.nodup (himp hsingle)⟩

/-- The keys of the first part are in the memo when the second part begins. -/
theorem Accounts.trans {n : Nat} {single single' : Prop} {visits visits' : List (Visit ρ)}
    {x x' x'' : Course ρ × (List (Visit ρ) × σ)} (h : Accounts n single visits x x')
    (h' : Accounts n single' visits' x' x'') :
    Accounts n (single ∧ single') (visits ++ visits') x x'' := by
  have hdisjoint : ∀ key ∈ keysOf visits, key ∉ keysOf visits' :=
    fun key hkey hkey' => h'.new key hkey' ((h.kept key).mpr (.inr hkey))
  refine ⟨h'.limit.trans h.limit, ?_, fun key => ?_, fun key hkey => ?_, fun key => ?_, ?_⟩
  · rw [h'.log, h.log, List.append_assoc]
  · rw [h'.kept, h.kept, keysOf_append, List.mem_append, or_assoc]
  · rw [keysOf_append, List.mem_append] at hkey
    rcases hkey with hkey | hkey
    · exact h.new key hkey
    · exact fun hmem => h'.new key hkey ((h.kept key).mpr (.inl hmem))
  · rw [keysOf_append, List.count_append]
    by_cases hkey : key ∈ keysOf visits
    · rw [List.count_eq_zero_of_not_mem (hdisjoint key hkey)]
      exact h.count key
    · rw [List.count_eq_zero_of_not_mem hkey, Nat.zero_add]
      exact h'.count key
  · rintro ⟨hsingle, hsingle'⟩
    rw [keysOf_append, List.nodup_append]
    refine ⟨h.nodup hsingle, h'.nodup hsingle', fun key hkey key' hkey' heq => ?_⟩
    exact hdisjoint key hkey (heq ▸ hkey')

/-- The resolution of a relation around those of its expansion: the log has it first, and
the memo has its key last. -/
theorem Accounts.resolve {n : Nat} {single : Prop} {v : Visit ρ} {visits log : List (Visit ρ)}
    {c : Course ρ} {s s₁ : σ} {x : Course ρ × (List (Visit ρ) × σ)}
    (h : Accounts n single visits (c, (log ++ [v], s₁)) x)
    (hmiss : ∀ key, visitKey? v = some key → key ∉ c.kept.map Prod.fst) (t : Tree ρ) :
    Accounts (n + 1) ((∀ key, visitKey? v = some key → key ∉ keysOf visits) ∧ single)
      (v :: visits) (c, (log, s)) (x.1.rememberUnder (visitKey? v) t, x.2) where
  limit := (x.1.maxDepth_rememberUnder _ t).trans h.limit
  log := h.log.trans (List.append_assoc log [v] visits)
  kept key := by
    rw [x.1.keys_rememberUnder, keysOf_cons, List.mem_append, List.mem_append, h.kept,
      or_left_comm]
  new key hkey := by
    rw [keysOf_cons, List.mem_append, Option.mem_toList] at hkey
    rcases hkey with hkey | hkey
    · exact hmiss key hkey
    · exact h.new key hkey
  count key := by
    have hown : (visitKey? v).toList.count key ≤ 1 :=
      Nat.le_trans List.count_le_length Option.length_toList_le
    have hwithin := h.count key
    rw [keysOf_cons, List.count_append]
    omega
  nodup := by
    rintro ⟨hout, hsingle⟩
    have hown : (visitKey? v).toList.Nodup := by
      cases visitKey? v <;> simp
    rw [keysOf_cons, List.nodup_append]
    refine ⟨hown, h.nodup hsingle, fun key hkey key' hkey' heq => ?_⟩
    exact hout key (Option.mem_toList.mp hkey) (heq ▸ hkey')

/-! ## The walk -/

/-- Growing resolves the relations that `visits` reads off its result, none of a key more
than `n` times. -/
def Accounted (maxDepth n : Nat) (visits : α → List (Visit ρ)) (single : α → Prop)
    (act : Growth (List (Visit ρ) × σ) ρ α) : Prop :=
  ∀ ⦃x a x'⦄, act.outcome x = (.ok a, x') → x.1.maxDepth = maxDepth →
    Accounts n (single a) (visits a) x x'

abbrev AccountedTree (maxDepth n : Nat) (act : Growth (List (Visit ρ) × σ) ρ (Tree ρ)) : Prop :=
  Accounted maxDepth n Tree.visits Tree.Unnested act

variable {maxDepth n : Nat}

theorem accounted_pure {visits : α → List (Visit ρ)} {single : α → Prop} {a : α}
    (h : visits a = []) :
    Accounted maxDepth n visits single (pure a : Growth (List (Visit ρ) × σ) ρ α) := by
  intro x a' x' hact _
  cases hact
  rw [h]
  exact .refl _ _ x

/-- A tree and what comes after it, put together. -/
theorem accounted_cons {β : Type} {visits : β → List (Visit ρ)} {single : β → Prop}
    {first : Growth (List (Visit ρ) × σ) ρ (Tree ρ)} {rest : Growth (List (Visit ρ) × σ) ρ β}
    {cons : Tree ρ → β → β} (hfirst : AccountedTree maxDepth n first)
    (hrest : Accounted maxDepth n visits single rest)
    (hvisits : ∀ t b, visits (cons t b) = t.visits ++ visits b)
    (hsingle : ∀ t b, single (cons t b) → t.Unnested ∧ single b) :
    Accounted maxDepth n visits single (first >>= fun t => rest >>= fun b => pure (cons t b)) := by
  intro x c x' hact hx
  obtain ⟨t, x₁, hhead, hact⟩ := outcome_bind_eq_ok_iff.mp hact
  obtain ⟨b, x₂, htail, hpure⟩ := outcome_bind_eq_ok_iff.mp hact
  cases hpure
  have hbegin := hfirst hhead hx
  have hend := hrest htail (hbegin.limit.trans hx)
  rw [hvisits]
  exact (hbegin.trans hend).weaken (Nat.le_refl n) (hsingle t b)

theorem accounted_treesOf {act : α → Growth (List (Visit ρ) × σ) ρ (Tree ρ)}
    (h : ∀ x, AccountedTree maxDepth n (act x)) : ∀ xs : List α,
    Accounted maxDepth n visitsOf (fun ts => ∀ t ∈ ts, t.Unnested) (treesOf act xs)
  | [] => accounted_pure rfl
  | x :: rest => accounted_cons (h x) (accounted_treesOf h rest) (fun _ _ => rfl)
      fun _ _ => List.forall_mem_cons.mp

theorem accounted_branchesOf {act : String → Growth (List (Visit ρ) × σ) ρ (Tree ρ)}
    (h : ∀ name, AccountedTree maxDepth n (act name)) : ∀ names : List String,
    Accounted maxDepth n visitsWithin (fun bs => ∀ b ∈ bs, b.2.Unnested) (branchesOf act names)
  | [] => accounted_pure rfl
  | name :: rest => by
      refine accounted_cons (h name) (accounted_branchesOf h rest) (fun _ _ => rfl) ?_
      intro t bs hsingle
      exact ⟨hsingle (name, t) List.mem_cons_self, fun b hb => hsingle b (List.mem_cons_of_mem _ hb)⟩

theorem accounted_array {act : Growth (List (Visit ρ) × σ) ρ (List (Tree ρ))}
    (h : Accounted maxDepth n visitsOf (fun ts => ∀ t ∈ ts, t.Unnested) act) :
    AccountedTree maxDepth n (act >>= fun ts => pure (.array ts)) := by
  intro x t x' hact hx
  obtain ⟨ts, x₁, hitems, hpure⟩ := outcome_bind_eq_ok_iff.mp hact
  cases hpure
  exact (h hitems hx).weaken (Nat.le_refl n) unnested_array_iff.mp

theorem accounted_related {expand : ρ → Growth (List (Visit ρ) × σ) ρ (Tree ρ)}
    (h : ∀ r, AccountedTree maxDepth n (expand r)) (r : ρ) :
    AccountedTree maxDepth n (relatedTree expand r) := by
  rw [relatedTree]
  cases Entity.reference r with
  | none => exact h r
  | some j => exact accounted_pure rfl

/-- A query of the database below the log leaves course and log as they are. -/
theorem accounted_bind_beside {β : Type} {act : Session σ β} {visits : α → List (Visit ρ)}
    {single : α → Prop} {f : β → Growth (List (Visit ρ) × σ) ρ α}
    (h : ∀ b, Accounted maxDepth n visits single (f b)) :
    Accounted maxDepth n visits single (act.beside.beside >>= f) := by
  intro x a x' hact hx
  obtain ⟨b, x₁, hfirst, hrest⟩ := outcome_bind_eq_ok_iff.mp hact
  obtain rfl : x₁ = (x.1, (x.2.1, (act.outcome x.2.2).2)) := (congrArg Prod.snd hfirst).symm
  have hlater := h b hrest hx
  exact ⟨hlater.limit, hlater.log, hlater.kept, hlater.new, hlater.count, hlater.nodup⟩

theorem accounted_within {act : Growth (List (Visit ρ) × σ) ρ (Tree ρ)}
    (h : AccountedTree maxDepth n act) :
    AccountedTree maxDepth n (within Course.deeper Course.shallower act) := by
  intro x t x' hact hx
  obtain ⟨result, y, hinner⟩ := act.exists_outcome (x.1.deeper, x.2)
  rw [outcome_within, hinner] at hact
  cases hact
  have hlevel := h hinner hx
  exact ⟨hlevel.limit, hlevel.log, hlevel.kept, hlevel.new, hlevel.count, hlevel.nodup⟩

variable {db : Engine σ} {schema : Schema σ ρ}
  {expand : ρ → Growth (List (Visit ρ) × σ) ρ (Tree ρ)}

theorem getDynamic_traced (db : Engine σ) (schema : Schema σ ρ) (q : Select) :
    q.getDynamic (db.beside (List (Visit ρ))) (schema.traced id)
      = (q.getDynamic db schema).beside :=
  q.getDynamic_beside _ db schema

mutual

theorem accounted_valueTree (h : ∀ r, AccountedTree maxDepth n (expand r)) :
    ∀ relation : Relation ρ, AccountedTree maxDepth n
      (valueTree (db.beside (List (Visit ρ))) (schema.traced id) expand relation)
  | .absent => accounted_pure rfl
  | .scalar _ => accounted_pure rfl
  | .one r => accounted_related h r
  | .many rs => accounted_array (accounted_treesOf (accounted_related h) rs)
  | .list items => accounted_array (accounted_valueTrees h items)
  | .deferred q => by
      rw [valueTree, getDynamic_traced db schema q]
      exact accounted_bind_beside fun found =>
        accounted_array (accounted_treesOf (accounted_related h) found.items)

theorem accounted_valueTrees (h : ∀ r, AccountedTree maxDepth n (expand r)) :
    ∀ items : List (Relation ρ), Accounted maxDepth n visitsOf (fun ts => ∀ t ∈ ts, t.Unnested)
      (valueTrees (db.beside (List (Visit ρ))) (schema.traced id) expand items)
  | [] => accounted_pure rfl
  | x :: rest => accounted_cons (accounted_valueTree h x) (accounted_valueTrees h rest)
      (fun _ _ => rfl) fun _ _ => List.forall_mem_cons.mp

end

/-- Without an entry in the memo a relation is written down, expanded and then kept. -/
theorem accounted_relationTree (h : ∀ r, AccountedTree maxDepth n (expand r)) (r : ρ)
    (relation : String) : AccountedTree maxDepth (n + 1)
      (relationTree (db.beside (List (Visit ρ))) (schema.traced id) expand r relation) := by
  intro x t x' hact hx
  rw [relationTree, outcome_bind, outcome_own] at hact
  cases hfound : (memoKey? r relation).bind x.1.lookup? with
  | some served =>
      simp only [hfound] at hact
      cases hact
      exact .refl _ _ x
  | none =>
      simp only [hfound] at hact
      have hmiss : ∀ key, visitKey? ⟨r, relation⟩ = some key → key ∉ x.1.kept.map Prod.fst := by
        intro key hkey
        have hown : memoKey? r relation = some key := hkey
        rw [hown] at hfound
        exact Course.lookup?_eq_none_iff.mp hfound
      obtain ⟨t', x₂, hfresh, hact⟩ := outcome_bind_eq_ok_iff.mp hact
      cases hact
      obtain ⟨resolved, x₁, hresolved, hwithin⟩ := outcome_bind_eq_ok_iff.mp hfresh
      let v : Visit ρ := ⟨r, relation⟩
      obtain rfl : x₁ = (x.1, (x.2.1 ++ [v], ((schema.resolve r relation).outcome x.2.2).2)) :=
        (congrArg Prod.snd hresolved).symm
      have hexpansion := accounted_within (accounted_valueTree h resolved) hwithin hx
      exact (hexpansion.resolve hmiss t').weaken (Nat.le_refl _) unnested_resolved_iff.mp

theorem accounted_recordTree : ∀ (levels : Nat) (r : ρ), AccountedTree maxDepth levels
    (recordTree (db.beside (List (Visit ρ))) (schema.traced id) levels r)
  | 0, _ => accounted_pure rfl
  | levels + 1, r => by
      intro x t x' hact hx
      obtain ⟨course, x₁, hown, hact⟩ := outcome_bind_eq_ok_iff.mp hact
      cases hown
      obtain ⟨bs, x₂, hbranches, hpure⟩ := outcome_bind_eq_ok_iff.mp hact
      cases hpure
      have hrelation : ∀ name, AccountedTree maxDepth (levels + 1)
          (relationTree (db.beside (List (Visit ρ))) (schema.traced id)
            (recordTree (db.beside (List (Visit ρ))) (schema.traced id) levels) r name) :=
        accounted_relationTree (accounted_recordTree levels) r
      exact (accounted_branchesOf hrelation _ hbranches hx).weaken (Nat.le_refl _)
        unnested_record_iff.mp

theorem accounted_tree (request : Request ρ) : AccountedTree maxDepth (maxDepth - 1)
    (request.tree (db.beside (List (Visit ρ))) (schema.traced id)) := by
  have hroot : ∀ r, AccountedTree maxDepth (maxDepth - 1)
      (rootTree (db.beside (List (Visit ρ))) (schema.traced id) r) := by
    intro r x t x' hact hx
    obtain ⟨course, x₁, hown, hact⟩ := outcome_bind_eq_ok_iff.mp hact
    cases hown
    have hlevels : x.1.pass.levels ≤ maxDepth - 1 := by
      have hlimit : x.1.pass.maxDepth = maxDepth := hx
      rw [Pass.levels]
      omega
    exact (accounted_recordTree _ r hact hx).weaken hlevels id
  cases request with
  | one r => exact hroot r
  | all s => exact accounted_array (accounted_treesOf hroot s.items)

/-- Calls that all succeed grow trees, and resolve what the trees say. -/
theorem accounts_growAll : ∀ (requests : List (Request ρ)) (x : Course ρ × (List (Visit ρ) × σ)),
    x.1.maxDepth = maxDepth →
    (∀ result ∈ (growAll (db.beside (List (Visit ρ))) (schema.traced id) requests x).1,
      ∃ t, result = .ok t) →
    ∃ trees, (growAll (db.beside (List (Visit ρ))) (schema.traced id) requests x).1
        = trees.map .ok
      ∧ Accounts (maxDepth - 1) (∀ t ∈ trees, t.Unnested) (visitsOf trees) x
        (growAll (db.beside (List (Visit ρ))) (schema.traced id) requests x).2
  | [], x, _, _ => ⟨[], rfl, .refl _ _ x⟩
  | request :: rest, x, hx, hok => by
      obtain ⟨result, x₁, hact⟩ := exists_outcome
        (request.tree (db.beside (List (Visit ρ))) (schema.traced id)) x
      rw [growAll, hact] at hok ⊢
      rw [List.forall_mem_cons] at hok
      obtain ⟨⟨t, rfl⟩, hrest⟩ := hok
      have hfirst := accounted_tree request hact hx
      obtain ⟨trees, htrees, hlater⟩ := accounts_growAll rest x₁ (hfirst.limit.trans hx) hrest
      refine ⟨t :: trees, congrArg (.ok t :: ·) htrees, ?_⟩
      exact (hfirst.trans hlater).weaken (Nat.le_refl _) List.forall_mem_cons.mp

/-! ## Forgetting the log -/

theorem erases_relationJson_traced {expand : ρ → Expansion σ Json}
    {expand' : ρ → Expansion (List (Visit ρ) × σ) Json} (h : ∀ r, Erases (expand r) (expand' r))
    (r : ρ) (relation : String) : Erases (relationJson db schema expand r relation)
      (relationJson (db.beside (List (Visit ρ))) (schema.traced id) expand' r relation) :=
  erases_relationJson rfl (fun _ _ _ => rfl) h r relation

/-- Calls answer on a traced schema as they do without the log. -/
theorem runAll_traced (db : Engine σ) (schema : Schema σ ρ) : ∀ (requests : List (Request ρ))
    (p : Pass) (log : List (Visit ρ)) (s : σ),
    (runAll (db.beside (List (Visit ρ))) (schema.traced id) requests (p, (log, s))).1
      = (runAll db schema requests (p, s)).1
  | [], _, _, _ => rfl
  | request :: rest, p, log, s => by
      have hrun : Erases (request.run db schema)
          (request.run (db.beside (List (Visit ρ))) (schema.traced id)) := by
        rw [Request.run_eq_walk, Request.run_eq_walk]
        exact compositional_erases.walkRequest erases_own
          (compositional_erases.walk erases_own fun _ _ _ h => erases_relationJson_traced h) request
      have hfirst := hrun (p, (log, s))
      obtain ⟨answer, ⟨p', log', s'⟩, hact⟩ := exists_outcome
        (request.run (db.beside (List (Visit ρ))) (schema.traced id)) (p, (log, s))
      rw [hact] at hfirst
      rw [runAll, runAll, hact, hfirst]
      exact congrArg (answer :: ·) (runAll_traced db schema rest p' log' s')

/-! ## Calls -/

/-- On a new pass, after calls that all succeed: the relations that were resolved are those
that the trees of the answers say, in order. The relation under a key is resolved at
most once if and only if none is resolved again while it is being expanded itself. It is
never resolved more often than there are levels at which relations are expanded. -/
theorem nodup_resolved_iff (db : Engine σ) (schema : Schema σ ρ) (maxDepth : Nat)
    (extra skipped : List String) (requests : List (Request ρ)) (s : σ)
    (hok : ∀ answer ∈ (runAll db schema requests (⟨maxDepth, extra, skipped, 0, []⟩, s)).1,
      ∃ j, answer = .ok j) :
    let resolved := (runAll (db.beside (List (Visit ρ))) (schema.traced id) requests
      (⟨maxDepth, extra, skipped, 0, []⟩, ([], s))).2.2.1
    ∃ trees : List (Tree ρ),
      (growAll (db.beside (List (Visit ρ))) (schema.traced id) requests
          (.new maxDepth extra skipped, ([], s))).1 = trees.map .ok
        ∧ (runAll db schema requests (⟨maxDepth, extra, skipped, 0, []⟩, s)).1
          = trees.map (fun t => .ok t.json)
        ∧ resolved = visitsOf trees
        ∧ ((keysOf resolved).Nodup ↔ ∀ t ∈ trees, t.Unnested)
        ∧ ∀ key, (keysOf resolved).count key ≤ maxDepth - 1 := by
  intro resolved
  let x : Course ρ × (List (Visit ρ) × σ) := (.new maxDepth extra skipped, ([], s))
  have hruns := runAll_eq_growAll (db.beside (List (Visit ρ))) (schema.traced id) requests
    (.new maxDepth extra skipped) ([], s)
  have hanswers : (runAll db schema requests (⟨maxDepth, extra, skipped, 0, []⟩, s)).1
      = (growAll (db.beside (List (Visit ρ))) (schema.traced id) requests x).1.map
        (Except.map Tree.json) :=
    (runAll_traced db schema requests _ [] s).symm.trans (congrArg Prod.fst hruns)
  have hgrown : ∀ result ∈ (growAll (db.beside (List (Visit ρ))) (schema.traced id) requests x).1,
      ∃ t, result = .ok t := by
    intro result hmem
    obtain ⟨j, hj⟩ := hok (result.map Tree.json) (hanswers ▸ List.mem_map_of_mem hmem)
    cases result with
    | ok t => exact ⟨t, rfl⟩
    | error e => cases hj
  obtain ⟨trees, htrees, haccounts⟩ := accounts_growAll requests x rfl hgrown
  have hlog : resolved = visitsOf trees :=
    (congrArg (fun run => run.2.2.1) hruns).trans haccounts.log
  refine ⟨trees, htrees, ?_, hlog, ⟨fun hnodup t ht => ?_, fun hunnested => ?_⟩, ?_⟩
  · rw [hanswers, htrees, List.map_map]
    rfl
  · rw [hlog] at hnodup
    exact unnested_of_nodup (hnodup.sublist ((sublist_visitsOf ht).filterMap _))
  · rw [hlog]
    exact haccounts.nodup hunnested
  · rw [hlog]
    exact haccounts.count

/-! ## A record that leads to itself -/

open Blog

def loop : Graph := [chained "a" 1 (.one "a")]

def loopSchema : Schema Unit GraphRecord := loop.schema silent

def loopCall : Request GraphRecord := callFor (chained "a" 1 (.one "a"))

/-- With two levels the relation is resolved once, also by two calls. -/
theorem nodup_resolved_of_two_levels :
    let answers := (runAll silent loopSchema [loopCall, loopCall] (⟨2, [], [], 0, []⟩, ())).1
    let resolved := (runAll (silent.beside (List (Visit GraphRecord))) (loopSchema.traced id)
      [loopCall, loopCall] (⟨2, [], [], 0, []⟩, ([], ()))).2.2.1
    (∀ answer ∈ answers, ∃ j, answer = .ok j) ∧ ∀ key, (keysOf resolved).count key ≤ 1 := by
  intro answers resolved
  have hanswers : answers.all (fun answer => answer.toBool) = true := rfl
  have hok : ∀ answer ∈ answers, ∃ j, answer = .ok j := by
    intro answer hmem
    have hanswer := List.all_eq_true.mp hanswers answer hmem
    cases answer with
    | ok j => exact ⟨j, rfl⟩
    | error e => cases hanswer
  obtain ⟨-, -, -, -, -, hcount⟩ := nodup_resolved_iff silent loopSchema 2 [] []
    [loopCall, loopCall] () hok
  exact ⟨hok, hcount⟩

/-- With three levels it is resolved twice by one call: the second time before the first is
complete. -/
theorem loop_resolved_twice :
    let run := runAll (silent.beside (List (Visit GraphRecord))) (loopSchema.traced id)
      [loopCall] (⟨3, [], [], 0, []⟩, ([], ()))
    (run.1.map fun answer => answer.toOption.map Json.render)
        = [some "\x7b\"id\":1,\"next\":\x7b\"id\":1,\"next\":\x7b\"id\":1\x7d\x7d\x7d"]
      ∧ keysOf run.2.2.1 = [⟨"node", "next", "1"⟩, ⟨"node", "next", "1"⟩]
      ∧ ¬ (keysOf run.2.2.1).Nodup := by
  decide +kernel

end RecordMapper.Hydration
