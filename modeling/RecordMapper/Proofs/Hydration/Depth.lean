import RecordMapper.Proofs.Hydration.Hereditary
import RecordMapper.Proofs.Hydration.Memo

/-!
# How deep records nest

The walk counts the records that enclose the one at hand, and stops at the limit. What
it resolves itself therefore stays within the limit. What the memo serves was expanded
at another level and counts nothing: an answer stays within the limit if and only if
each served part would do so with the levels that are left where it is served
(`bounded_iff_served_fit`). With a limit of two every part does. With a limit of three
one may not: the four records at the end stand within one another.
-/

namespace RecordMapper.Hydration

variable {σ ρ : Type}

/-! ## Places in a tree -/

/-- The branch that an object shows under a name: of several, the last. -/
def Shown (branches : List (String × Tree ρ)) (name : String) (t : Tree ρ) : Prop :=
  ∃ earlier later, branches = earlier ++ (name, t) :: later ∧ ∀ b ∈ later, b.1 ≠ name

/-- A record with these branches stands in the tree, below the given number of others. -/
inductive Tree.Stands : Tree ρ → Nat → ρ → List (String × Tree ρ) → Prop
  | here (r : ρ) (branches) : (Tree.record r branches).Stands 0 r branches
  | item {items t depth r branches} : t ∈ items → t.Stands depth r branches →
      (Tree.array items).Stands depth r branches
  | nested {r' branches' name t depth r branches} : Shown branches' name t →
      t.Stands depth r branches → (Tree.record r' branches').Stands (depth + 1) r branches
  | resolved {v t depth r branches} : t.Stands depth r branches →
      (Tree.resolved v t).Stands depth r branches
  | recalled {t depth r branches} : t.Stands depth r branches →
      (Tree.recalled t).Stands depth r branches

/-- The memo served `served` below the given number of records. What is in turn served
within it does not count. -/
inductive Tree.Serves : Tree ρ → Nat → Tree ρ → Prop
  | here (t) : (Tree.recalled t).Serves 0 t
  | item {items t depth served} : t ∈ items → t.Serves depth served →
      (Tree.array items).Serves depth served
  | nested {r branches name t depth served} : Shown branches name t → t.Serves depth served →
      (Tree.record r branches).Serves (depth + 1) served
  | resolved {v t depth served} : t.Serves depth served → (Tree.resolved v t).Serves depth served

/-- At most `limit` records stand within one another, and those that `limit - 1` others
enclose show their stored fields alone. -/
def Tree.Bounded (limit : Nat) (t : Tree ρ) : Prop :=
  ∀ depth r branches, t.Stands depth r branches →
    depth + 1 ≤ limit ∧ (depth + 1 = limit → branches = [])

theorem Shown.mem {branches : List (String × Tree ρ)} {name : String} {t : Tree ρ}
    (h : Shown branches name t) : (name, t) ∈ branches := by
  obtain ⟨earlier, later, rfl, -⟩ := h
  simp

theorem shown_singleton (name : String) (t : Tree ρ) : Shown [(name, t)] name t :=
  ⟨[], [], rfl, fun b hb => by cases hb⟩

/-! ## Bounds, by the shape of the tree -/

theorem bounded_plain (limit : Nat) (j : Json) : (.plain j : Tree ρ).Bounded limit := by
  intro depth r branches h
  cases h

theorem bounded_array_iff {limit : Nat} {items : List (Tree ρ)} :
    (Tree.array items).Bounded limit ↔ ∀ t ∈ items, t.Bounded limit := by
  constructor
  · intro h t ht depth r branches hstands
    exact h depth r branches (.item ht hstands)
  · intro h depth r branches hstands
    cases hstands with
    | item ht hstands => exact h _ ht depth r branches hstands

theorem bounded_resolved_iff {limit : Nat} {v : Visit ρ} {t : Tree ρ} :
    (Tree.resolved v t).Bounded limit ↔ t.Bounded limit := by
  constructor
  · intro h depth r branches hstands
    exact h depth r branches (.resolved hstands)
  · intro h depth r branches hstands
    cases hstands with
    | resolved hstands => exact h depth r branches hstands

theorem bounded_recalled_iff {limit : Nat} {t : Tree ρ} :
    (Tree.recalled t).Bounded limit ↔ t.Bounded limit := by
  constructor
  · intro h depth r branches hstands
    exact h depth r branches (.recalled hstands)
  · intro h depth r branches hstands
    cases hstands with
    | recalled hstands => exact h depth r branches hstands

/-- With one level more for the record itself, the branches have to keep to the limit. -/
theorem bounded_record_iff {limit : Nat} {r : ρ} {branches : List (String × Tree ρ)} :
    (Tree.record r branches).Bounded (limit + 1)
      ↔ (limit = 0 → branches = []) ∧ ∀ name t, Shown branches name t → t.Bounded limit := by
  constructor
  · intro h
    refine ⟨fun hlimit => (h 0 r branches (.here r branches)).2 (by omega), ?_⟩
    intro name t hshown depth r' branches' hstands
    obtain ⟨hdepth, hlast⟩ := h (depth + 1) r' branches' (.nested hshown hstands)
    exact ⟨by omega, fun hlimit => hlast (by omega)⟩
  · rintro ⟨hlast, hbranches⟩ depth r' branches' hstands
    cases hstands with
    | here => exact ⟨by omega, fun hlimit => hlast (by omega)⟩
    | nested hshown hstands =>
        obtain ⟨hdepth, hleaf⟩ := hbranches _ _ hshown _ _ _ hstands
        exact ⟨by omega, fun hlimit => hleaf (by omega)⟩

theorem Tree.Bounded.mono {limit limit' : Nat} {t : Tree ρ} (h : t.Bounded limit)
    (hle : limit ≤ limit') : t.Bounded limit' := by
  intro depth r branches hstands
  obtain ⟨hdepth, hlast⟩ := h depth r branches hstands
  exact ⟨by omega, fun hlimit => hlast (by omega)⟩

/-! ## What is served, and where -/

theorem Tree.Serves.stands {t served : Tree ρ} {depth depth' : Nat} {r : ρ}
    {branches : List (String × Tree ρ)} (h : t.Serves depth served)
    (hstands : served.Stands depth' r branches) : t.Stands (depth' + depth) r branches := by
  induction h with
  | here t => exact .recalled hstands
  | item ht _ ih => exact .item ht (ih hstands)
  | nested hshown _ ih => exact .nested hshown (ih hstands)
  | resolved _ ih => exact .resolved (ih hstands)

/-- A part that is served has the levels that are left where it is served. -/
theorem Tree.Bounded.served {limit depth : Nat} {t served : Tree ρ} (h : t.Bounded limit)
    (hserves : t.Serves depth served) : served.Bounded (limit - depth) := by
  intro depth' r branches hstands
  obtain ⟨hdepth, hlast⟩ := h _ r branches (hserves.stands hstands)
  exact ⟨by omega, fun hlimit => hlast (by omega)⟩

/-- The tree keeps to the limit if all that is served in it fits in. -/
def Tree.BoundedIfServedFit (limit : Nat) (t : Tree ρ) : Prop :=
  (∀ depth served, t.Serves depth served → served.Bounded (limit - depth)) → t.Bounded limit

/-- What the walk resolves itself stays within the levels that it has. -/
theorem hereditary_boundedIfServedFit (top : Nat) : Hereditary top (fun _ : Tree ρ => True)
    fun levels t => t.BoundedIfServedFit (levels + 1) where
  plain j _ := bounded_plain _ j
  array {levels items} h hfit := by
    refine bounded_array_iff.mpr fun t ht => h t ht fun depth served hserves => ?_
    exact hfit depth served (.item ht hserves)
  leaf r _ := by
    refine bounded_record_iff.mpr ⟨fun _ => rfl, fun name t hshown => ?_⟩
    cases hshown.mem
  record {levels branches} r h hfit := by
    refine bounded_record_iff.mpr ⟨fun hlevels => by omega, fun name t hshown => ?_⟩
    refine h _ hshown.mem fun depth served hserves => ?_
    have hserved := hfit (depth + 1) served (.nested hshown hserves)
    rwa [Nat.add_sub_add_right] at hserved
  resolve v h hfit := by
    refine bounded_resolved_iff.mpr (h fun depth served hserves => ?_)
    exact hfit depth served (.resolved hserves)
  remember _ _ := trivial
  serve _ hfit := bounded_recalled_iff.mpr (hfit 0 _ (.here _))

/-- With one level below the roots at most, all that is remembered are records at the last
level. -/
theorem hereditary_bounded {top : Nat} (h : top ≤ 1) :
    Hereditary top (fun t : Tree ρ => t.Bounded 1) fun levels t => t.Bounded (levels + 1) where
  plain j := bounded_plain _ j
  array h := bounded_array_iff.mpr h
  leaf r := bounded_record_iff.mpr ⟨fun _ => rfl, fun name t hshown => by cases hshown.mem⟩
  record r h := bounded_record_iff.mpr ⟨fun hlevels => by omega, fun name t hshown =>
    h _ hshown.mem⟩
  resolve v h := bounded_resolved_iff.mpr h
  remember {levels t} hlevels ht := by
    obtain rfl : levels = 0 := by omega
    exact ht
  serve ht := bounded_recalled_iff.mpr (ht.mono (by omega))

/-! ## The JSON at a place -/

/-- The first is a part of the second, or all of it. -/
inductive PartOf : Json → Json → Prop
  | whole (j : Json) : PartOf j j
  | item {items i j} : i ∈ items → PartOf j i → PartOf j (.arr items)
  | member {members name i j} : member? name members = some i → PartOf j i →
      PartOf j (.obj members)

variable [Entity ρ]

theorem mem_jsonItems {t : Tree ρ} : ∀ {items : List (Tree ρ)}, t ∈ items → t.json ∈ jsonItems items
  | t' :: rest, h => by
      rcases List.mem_cons.mp h with rfl | h
      · exact List.mem_cons_self
      · exact List.mem_cons_of_mem _ (mem_jsonItems h)

theorem member?_addBranches_of_not_mem {name : String} : ∀ (branches : List (String × Tree ρ))
    (members : List (String × Json)), (∀ b ∈ branches, b.1 ≠ name) →
      member? name (addBranches branches members) = member? name members
  | [], _, _ => rfl
  | (first, t) :: rest, members, h => by
      rw [List.forall_mem_cons] at h
      rw [addBranches, member?_addBranches_of_not_mem rest _ h.2, member?_insertMember,
        if_neg h.1]

theorem member?_addBranches {name : String} {t : Tree ρ} {branches : List (String × Tree ρ)}
    (h : Shown branches name t) (members : List (String × Json)) :
    member? name (addBranches branches members) = some t.json := by
  obtain ⟨earlier, later, rfl, hlater⟩ := h
  induction earlier generalizing members with
  | nil =>
      rw [List.nil_append, addBranches, member?_addBranches_of_not_mem later _ hlater,
        member?_insertMember, if_pos rfl]
  | cons b rest ih => exact ih (Json.insertMember b.1 b.2.json members)

/-- A record that stands in a tree is an object in its JSON: the stored fields with the
branches put in. -/
theorem Tree.Stands.partOf {t : Tree ρ} {depth : Nat} {r : ρ} {branches : List (String × Tree ρ)}
    (h : t.Stands depth r branches) :
    PartOf (.obj (addBranches branches (storedMembers r))) t.json := by
  induction h with
  | here r branches => exact .whole _
  | item hmem _ ih => exact .item (mem_jsonItems hmem) ih
  | nested hshown _ ih => exact .member (member?_addBranches hshown _) ih
  | resolved _ ih => exact ih
  | recalled _ ih => exact ih

/-! ## Calls -/

/-- On a new pass, whatever is called on it: the answers are the JSON of trees, in which a
record stands for each object that is one, and an answer keeps to the limit if and only
if every part of it that came out of the memo fits in where it is served. With a limit
of two they all do. -/
theorem bounded_iff_served_fit (db : Engine σ) (schema : Schema σ ρ) (maxDepth : Nat)
    (extra skipped : List String) (requests : List (Request ρ)) (s : σ) :
    let trees := (growAll db schema requests (.new maxDepth extra skipped, s)).1
    (runAll db schema requests (⟨maxDepth, extra, skipped, 0, []⟩, s)).1
        = trees.map (Except.map Tree.json)
      ∧ ∀ t, .ok t ∈ trees →
        (∀ depth r branches, t.Stands depth r branches →
            PartOf (.obj (addBranches branches (storedMembers r))) t.json)
          ∧ (t.Bounded (max maxDepth 1) ↔ ∀ depth served, t.Serves depth served →
            served.Bounded (max maxDepth 1 - depth))
          ∧ (maxDepth ≤ 2 → t.Bounded (max maxDepth 1)) := by
  intro trees
  have hruns := runAll_eq_growAll db schema requests (.new maxDepth extra skipped) s
  have hlimit : max maxDepth 1 = maxDepth - 1 + 1 := by omega
  rw [hlimit]
  refine ⟨congrArg Prod.fst hruns, fun t ht => ⟨fun _ _ _ hstands => hstands.partOf, ?_, ?_⟩⟩
  · have hnew : (Course.new maxDepth extra skipped : Course ρ).At maxDepth 0 fun _ => True :=
      ⟨rfl, rfl, fun e he => by cases he⟩
    have hfit := forall_growAll (hereditary_boundedIfServedFit (maxDepth - 1)) requests
      (.new maxDepth extra skipped, s) hnew t ht
    exact ⟨fun hbounded depth served hserves => hbounded.served hserves, hfit⟩
  · intro hdepth
    have hnew : (Course.new maxDepth extra skipped : Course ρ).At maxDepth 0
        fun t => t.Bounded 1 := ⟨rfl, rfl, fun e he => by cases he⟩
    exact forall_growAll (hereditary_bounded (by omega)) requests
      (.new maxDepth extra skipped, s) hnew t ht

/-! ## Four records in a chain -/

open Blog

/-- Four records, each leading to the one after it. -/
def longChain : Graph :=
  [chained "a" 1 (.one "b"), chained "b" 2 (.one "c"), chained "c" 3 (.one "d"),
    chained "d" 4 .absent]

def longChainSchema : Schema Unit GraphRecord := longChain.schema silent

def recordA : GraphRecord := .described (chained "a" 1 (.one "b"))

def recordB : GraphRecord := .described (chained "b" 2 (.one "c"))

def recordC : GraphRecord := .described (chained "c" 3 (.one "d"))

def recordD : GraphRecord := .described (chained "d" 4 .absent)

/-- What the relation of the second record comes to: the third, with the last at the limit. -/
def afterB : Tree GraphRecord :=
  .record recordC [("next", .resolved ⟨recordC, "next"⟩ (.record recordD []))]

/-- Called for twice, a record has what it leads to served at the level where it was
expanded, and keeps to the limit. -/
theorem bounded_of_same_call :
    let trees := (growAll silent longChainSchema [.one recordB, .one recordB]
      (.new 3 [] [], ())).1
    ∃ t, trees[1]? = some (.ok t) ∧ t.Serves 1 afterB ∧ t.Bounded 3 := by
  intro trees
  let t : Tree GraphRecord := .record recordB [("next", .recalled afterB)]
  have hgrown : trees[1]? = some (.ok t) := rfl
  have hserves : t.Serves 1 afterB := .nested (shown_singleton _ _) (.here afterB)
  have hafter : afterB.Bounded 2 := by
    refine bounded_record_iff.mpr ⟨fun h => absurd h (by decide), fun name t' hshown => ?_⟩
    obtain ⟨-, rfl⟩ := Prod.mk.inj (List.mem_singleton.mp hshown.mem)
    refine bounded_resolved_iff.mpr (bounded_record_iff.mpr ⟨fun _ => rfl, ?_⟩)
    intro name t' hshown
    cases hshown.mem
  have hfit : ∀ depth served,
      (Tree.record recordB [("next", .recalled afterB)]).Serves depth served →
        served.Bounded (max 3 1 - depth) := by
    intro depth served h
    cases h with
    | nested hshown h =>
        obtain ⟨-, rfl⟩ := Prod.mk.inj (List.mem_singleton.mp hshown.mem)
        cases h
        exact hafter
  have hiff := bounded_iff_served_fit silent longChainSchema 3 [] [] [.one recordB, .one recordB] ()
  exact ⟨t, hgrown, hserves, (hiff.2 t (List.mem_of_getElem? hgrown)).2.1.mpr hfit⟩

/-- What the third record leads to was expanded as the last of three, and is served below
two records more. -/
theorem chain_exceeds_limit :
    let start : Pass × Unit := (.new 3, ())
    let answers := (runAll silent longChainSchema [.one recordB, .one recordA] start).1
    let trees := (growAll silent longChainSchema [.one recordB, .one recordA]
      (.new 3 [] [], ())).1
    (answers.map fun answer => answer.toOption.map Json.render)
        = [some "\x7b\"id\":2,\"next\":\x7b\"id\":3,\"next\":\x7b\"id\":4\x7d\x7d\x7d",
          some "\x7b\"id\":1,\"next\":\x7b\"id\":2,\"next\":\x7b\"id\":3,\"next\":\x7b\"id\":4\x7d\x7d\x7d\x7d"]
      ∧ ∃ t, trees[1]? = some (.ok t) ∧ t.Stands 3 recordD [] ∧ ¬ t.Bounded (max 3 1) := by
  intro start answers trees
  refine ⟨by decide +kernel, ?_⟩
  let atB : Tree GraphRecord := .record recordB [("next", .recalled afterB)]
  let t : Tree GraphRecord := .record recordA [("next", .resolved ⟨recordA, "next"⟩ atB)]
  have hgrown : trees[1]? = some (.ok t) := rfl
  have hafter : afterB.Stands 1 recordD [] :=
    .nested (shown_singleton _ _) (.resolved (.here _ _))
  have hstands : t.Stands 3 recordD [] :=
    .nested (shown_singleton _ _) (.resolved (.nested (shown_singleton _ _) (.recalled hafter)))
  refine ⟨t, hgrown, hstands, fun hbounded => ?_⟩
  have hdepth := (hbounded 3 recordD [] hstands).1
  omega

end RecordMapper.Hydration
