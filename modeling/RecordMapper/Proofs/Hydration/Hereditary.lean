import RecordMapper.Proofs.Hydration.Trees

/-!
# What holds of all trees

A property of trees is hereditary if it goes over from the trees that the relations of
a record lead to, one level down, to the tree of the record. What the memo serves is
of another level, so a hereditary property comes with one of the trees that are
remembered, which has to be enough for it at any level. It then holds of all trees
that a new course grows (`forall_growAll`), also in a sequence of calls some of which fail.
-/

namespace RecordMapper.Hydration

open Session

variable {σ ρ α β : Type}

/-! ## Steps -/

/-- A course at this place that remembers trees with `K` only. -/
structure Course.At (maxDepth depth : Nat) (K : Tree ρ → Prop) (c : Course ρ) : Prop where
  maxDepth : c.maxDepth = maxDepth
  depth : c.depth = depth
  kept : ∀ e ∈ c.kept, K e.2

/-- Growing leaves the course where it was, with `K` of all that is remembered, and gives a
result with `Q`. -/
def Grows (maxDepth depth : Nat) (K : Tree ρ → Prop) (Q : α → Prop) (act : Growth σ ρ α) : Prop :=
  ∀ ⦃x result x'⦄, x.1.At maxDepth depth K → act.outcome x = (result, x') →
    x'.1.At maxDepth depth K ∧ ∀ a, result = .ok a → Q a

/-- A property of trees with the number of levels that are left to their records, if `K` is
what holds of trees that are remembered. Only records below the `top` level are reached
by a relation. -/
structure Hereditary (top : Nat) (K : Tree ρ → Prop) (R : Nat → Tree ρ → Prop) : Prop where
  plain : ∀ {levels} (j : Json), R levels (.plain j)
  array : ∀ {levels items}, (∀ t ∈ items, R levels t) → R levels (.array items)
  leaf : ∀ r : ρ, R 0 (.record r [])
  record : ∀ {levels branches} (r : ρ), (∀ b ∈ branches, R levels b.2) →
    R (levels + 1) (.record r branches)
  resolve : ∀ {levels t} (v : Visit ρ), R levels t → R levels (.resolved v t)
  remember : ∀ {levels t}, levels < top → R levels t → K t
  serve : ∀ {levels t}, K t → R levels (.recalled t)

variable {maxDepth depth : Nat} {K : Tree ρ → Prop} {Q : α → Prop} {Q' : β → Prop}

theorem grows_pure {a : α} (h : Q a) : Grows maxDepth depth K Q (pure a : Growth σ ρ α) := by
  intro x result x' hx hact
  cases hact
  refine ⟨hx, fun b hb => ?_⟩
  cases hb
  exact h

theorem grows_bind {act : Growth σ ρ α} {f : α → Growth σ ρ β} (hact : Grows maxDepth depth K Q act)
    (hf : ∀ a, Q a → Grows maxDepth depth K Q' (f a)) : Grows maxDepth depth K Q' (act >>= f) := by
  intro x result x'' hx hbind
  obtain ⟨first, x', h⟩ := act.exists_outcome x
  obtain ⟨hx', hfirst⟩ := hact hx h
  rw [outcome_bind, h] at hbind
  cases first with
  | ok a => exact hf a (hfirst a rfl) hx' hbind
  | error e =>
      cases hbind
      exact ⟨hx', fun b hb => by cases hb⟩

theorem grows_beside (act : Session σ α) :
    Grows maxDepth depth K (fun _ => True) (act.beside : Growth σ ρ α) := by
  intro x result x' hx hact
  cases hact
  exact ⟨hx, fun _ _ => trivial⟩

theorem grows_within {act : Growth σ ρ α} (h : Grows maxDepth (depth + 1) K Q act) :
    Grows maxDepth depth K Q (within Course.deeper Course.shallower act) := by
  intro x result x' hx hact
  obtain ⟨inner, x₁, hinner⟩ := act.exists_outcome (x.1.deeper, x.2)
  have hdeeper : x.1.deeper.At maxDepth (depth + 1) K :=
    ⟨hx.maxDepth, congrArg (· + 1) hx.depth, hx.kept⟩
  obtain ⟨hx₁, hresult⟩ := h hdeeper hinner
  rw [outcome_within, hinner] at hact
  cases hact
  exact ⟨⟨hx₁.maxDepth, congrArg (· - 1) hx₁.depth, hx₁.kept⟩, hresult⟩

theorem grows_treesOf {R : Tree ρ → Prop} {act : α → Growth σ ρ (Tree ρ)}
    (h : ∀ x, Grows maxDepth depth K R (act x)) : ∀ xs : List α,
    Grows maxDepth depth K (fun ts => ∀ t ∈ ts, R t) (treesOf act xs)
  | [] => grows_pure fun _ ht => by cases ht
  | x :: rest => grows_bind (h x) fun _ hhead => grows_bind (grows_treesOf h rest) fun _ htail =>
      grows_pure (List.forall_mem_cons.mpr ⟨hhead, htail⟩)

theorem grows_branchesOf {R : Tree ρ → Prop} {act : String → Growth σ ρ (Tree ρ)}
    (h : ∀ name, Grows maxDepth depth K R (act name)) : ∀ names : List String,
    Grows maxDepth depth K (fun bs => ∀ b ∈ bs, R b.2) (branchesOf act names)
  | [] => grows_pure fun _ hb => by cases hb
  | name :: rest => by
      refine grows_bind (h name) fun t ht => ?_
      refine grows_bind (grows_branchesOf h rest) fun bs hbs => grows_pure fun b hb => ?_
      rcases List.mem_cons.mp hb with rfl | hb
      · exact ht
      · exact hbs b hb

variable {top : Nat} {R : Nat → Tree ρ → Prop} {levels : Nat}

theorem grows_array (hR : Hereditary top K R) {act : Growth σ ρ (List (Tree ρ))}
    (h : Grows maxDepth depth K (fun ts => ∀ t ∈ ts, R levels t) act) :
    Grows maxDepth depth K (R levels) (act >>= fun ts => pure (.array ts)) :=
  grows_bind h fun _ hts => grows_pure (hR.array hts)

/-! ## The walk -/

variable [Entity ρ]

theorem grows_related (hR : Hereditary top K R) {expand : ρ → Growth σ ρ (Tree ρ)}
    (h : ∀ r, Grows maxDepth depth K (R levels) (expand r)) (r : ρ) :
    Grows maxDepth depth K (R levels) (relatedTree expand r) := by
  rw [relatedTree]
  cases Entity.reference r with
  | none => exact h r
  | some j => exact grows_pure (hR.plain j)

variable {db : Engine σ} {schema : Schema σ ρ}

mutual

theorem grows_valueTree (hR : Hereditary top K R) {expand : ρ → Growth σ ρ (Tree ρ)}
    (h : ∀ r, Grows maxDepth depth K (R levels) (expand r)) : ∀ relation : Relation ρ,
    Grows maxDepth depth K (R levels) (valueTree db schema expand relation)
  | .absent => grows_pure (hR.plain .null)
  | .scalar v => grows_pure (hR.plain v.toJson)
  | .one r => grows_related hR h r
  | .many rs => grows_array hR (grows_treesOf (grows_related hR h) rs)
  | .list items => grows_array hR (grows_valueTrees hR h items)
  | .deferred q => grows_bind (grows_beside (q.getDynamic db schema)) fun found _ =>
      grows_array hR (grows_treesOf (grows_related hR h) found.items)

theorem grows_valueTrees (hR : Hereditary top K R) {expand : ρ → Growth σ ρ (Tree ρ)}
    (h : ∀ r, Grows maxDepth depth K (R levels) (expand r)) : ∀ items : List (Relation ρ),
    Grows maxDepth depth K (fun ts => ∀ t ∈ ts, R levels t) (valueTrees db schema expand items)
  | [] => grows_pure fun _ ht => by cases ht
  | x :: rest => grows_bind (grows_valueTree hR h x) fun _ hhead =>
      grows_bind (grows_valueTrees hR h rest) fun _ htail =>
        grows_pure (List.forall_mem_cons.mpr ⟨hhead, htail⟩)

end

theorem grows_relationTree (hR : Hereditary top K R) (hlevels : levels < top)
    {expand : ρ → Growth σ ρ (Tree ρ)}
    (h : ∀ r, Grows maxDepth (depth + 1) K (R levels) (expand r)) (r : ρ) (relation : String) :
    Grows maxDepth depth K (R levels) (relationTree db schema expand r relation) := by
  intro x result x' hx hact
  rw [relationTree, outcome_bind, outcome_own] at hact
  cases hfound : (memoKey? r relation).bind x.1.lookup? with
  | some t =>
      simp only [hfound] at hact
      cases hact
      obtain ⟨key, -, hlookup⟩ := Option.bind_eq_some_iff.mp hfound
      obtain ⟨e, he, rfl⟩ := Option.map_eq_some_iff.mp hlookup
      refine ⟨hx, fun t' ht' => ?_⟩
      cases ht'
      exact hR.serve (hx.kept e (List.mem_of_find?_eq_some he))
  | none =>
      simp only [hfound] at hact
      have hfresh : Grows maxDepth depth K (R levels) (freshTree db schema expand r relation) :=
        grows_bind (grows_beside (schema.resolve r relation)) fun resolved _ =>
          grows_within (grows_valueTree hR h resolved)
      refine grows_bind hfresh (fun t ht => ?_) hx hact
      intro y result y' hy hact
      cases hact
      refine ⟨?_, fun t' ht' => ?_⟩
      · cases memoKey? r relation with
        | none => exact hy
        | some key => exact ⟨hy.maxDepth, hy.depth, List.forall_mem_cons.mpr
            ⟨hR.remember hlevels ht, hy.kept⟩⟩
      · cases ht'
        exact hR.resolve _ ht

theorem grows_recordTree (hR : Hereditary top K R) : ∀ (levels depth : Nat) (r : ρ), levels ≤ top →
    Grows maxDepth depth K (R levels) (recordTree db schema levels r)
  | 0, _, r, _ => grows_pure (hR.leaf r)
  | levels + 1, depth, r, hlevels => by
      have hexpand : ∀ r, Grows maxDepth (depth + 1) K (R levels) (recordTree db schema levels r) :=
        fun r => grows_recordTree hR levels (depth + 1) r (by omega)
      have hrelation : ∀ relation, Grows maxDepth depth K (R levels)
          (relationTree db schema (recordTree db schema levels) r relation) :=
        grows_relationTree hR (by omega) hexpand r
      intro x result x' hx hact
      exact grows_bind (grows_branchesOf hrelation (relationNames x.1.pass r))
        (fun _ hbs => grows_pure (hR.record r hbs)) hx hact

theorem grows_rootTree (hR : Hereditary (maxDepth - 1) K R) (r : ρ) :
    Grows maxDepth 0 K (R (maxDepth - 1)) (rootTree db schema r) := by
  intro x result x' hx hact
  have hlevels : x.1.pass.levels = maxDepth - 1 := by
    rw [Pass.levels]
    show x.1.maxDepth - (x.1.depth + 1) = maxDepth - 1
    rw [hx.maxDepth, hx.depth]
  rw [rootTree, outcome_bind, outcome_own] at hact
  simp only [hlevels] at hact
  exact grows_recordTree hR (maxDepth - 1) 0 r (Nat.le_refl _) hx hact

theorem grows_tree (hR : Hereditary (maxDepth - 1) K R) (request : Request ρ) :
    Grows maxDepth 0 K (R (maxDepth - 1)) (request.tree db schema) := by
  cases request with
  | one r => exact grows_rootTree hR r
  | all s => exact grows_array hR (grows_treesOf (grows_rootTree hR) s.items)

/-- What is hereditary holds of all trees that a new course grows. -/
theorem forall_growAll (hR : Hereditary (maxDepth - 1) K R) :
    ∀ (requests : List (Request ρ)) (x : Course ρ × σ), x.1.At maxDepth 0 K →
      ∀ t, .ok t ∈ (growAll db schema requests x).1 → R (maxDepth - 1) t
  | [], _, _, t, ht => by cases ht
  | request :: rest, x, hx, t, ht => by
      obtain ⟨result, x', hact⟩ := (request.tree db schema).exists_outcome x
      obtain ⟨hx', hresult⟩ := grows_tree hR request hx hact
      rw [growAll, hact] at ht
      rcases List.mem_cons.mp ht with rfl | ht
      · exact hresult t rfl
      · exact forall_growAll hR rest x' hx' t ht

end RecordMapper.Hydration
