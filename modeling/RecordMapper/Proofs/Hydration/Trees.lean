import RecordMapper.Record.Trace
import RecordMapper.Proofs.Hydration.Lasting

/-!
# What a call expands, as a tree

The JSON of a call does not tell which of its objects are records, nor which of its
parts came out of the memo. There is therefore a second walk that grows a tree in
place of JSON, with a node for every record, and for every relation that was resolved
or that the memo served. It runs on a `Course`, a pass that remembers trees. With the
trees forgotten it is the library's walk (`runAll_eq_growAll`), on every engine and for
calls that fail as well, so what is shown of the trees is shown of the answers.
-/

namespace RecordMapper.Hydration

open Session

variable {σ ρ α β : Type}

/-! ## Trees -/

/-- What a relation or a whole call came to. -/
inductive Tree (ρ : Type) where
  /-- JSON that is no record: nothing, a scalar or the short form of a record. -/
  | plain (j : Json)
  | array (items : List (Tree ρ))
  | record (r : ρ) (branches : List (String × Tree ρ))
  /-- What a relation came to when it was resolved. -/
  | resolved (v : Visit ρ) (t : Tree ρ)
  /-- What the memo served. -/
  | recalled (t : Tree ρ)

section Json

variable [Entity ρ]

mutual

/-- The JSON that is shown of a tree. -/
def Tree.json : Tree ρ → Json
  | .plain j => j
  | .array items => .arr (jsonItems items)
  | .record r branches => .obj (addBranches branches (storedMembers r))
  | .resolved _ t => t.json
  | .recalled t => t.json
termination_by structural t => t

def jsonItems : List (Tree ρ) → List Json
  | [] => []
  | t :: rest => t.json :: jsonItems rest
termination_by structural l => l

/-- Puts branches in order into the members of an object. -/
def addBranches : List (String × Tree ρ) → List (String × Json) → List (String × Json)
  | [], members => members
  | (name, t) :: rest, members => addBranches rest (Json.insertMember name t.json members)
termination_by structural l => l

end

end Json

/-! ## Courses -/

/-- A pass that remembers trees. -/
structure Course (ρ : Type) where
  maxDepth : Nat
  extra : List String
  skipped : List String
  depth : Nat
  kept : List (MemoKey × Tree ρ)

namespace Course

def new (maxDepth : Nat) (extra skipped : List String) : Course ρ :=
  ⟨maxDepth, extra, skipped, 0, []⟩

def deeper (c : Course ρ) : Course ρ := { c with depth := c.depth + 1 }

def shallower (c : Course ρ) : Course ρ := { c with depth := c.depth - 1 }

def lookup? (c : Course ρ) (key : MemoKey) : Option (Tree ρ) :=
  (c.kept.find? fun e => e.1 == key).map Prod.snd

def remember (c : Course ρ) (key : MemoKey) (t : Tree ρ) : Course ρ :=
  { c with kept := (key, t) :: c.kept }

/-- Remembers a tree, if there is a key to remember it under. -/
def rememberUnder (c : Course ρ) (key : Option MemoKey) (t : Tree ρ) : Course ρ :=
  key.elim c fun key => c.remember key t

@[simp] theorem maxDepth_rememberUnder (c : Course ρ) (key : Option MemoKey) (t : Tree ρ) :
    (c.rememberUnder key t).maxDepth = c.maxDepth := by
  cases key <;> rfl

theorem keys_rememberUnder (c : Course ρ) (key : Option MemoKey) (t : Tree ρ) :
    (c.rememberUnder key t).kept.map Prod.fst = key.toList ++ c.kept.map Prod.fst := by
  cases key <;> rfl

/-- A key that the memo misses is not among those that are kept. -/
theorem lookup?_eq_none_iff {c : Course ρ} {key : MemoKey} :
    c.lookup? key = none ↔ key ∉ c.kept.map Prod.fst := by
  rw [lookup?, Option.map_eq_none_iff, List.find?_eq_none, List.mem_map, not_exists]
  refine forall_congr' fun e => ?_
  simp

variable [Entity ρ]

/-- The pass that remembers the JSON of the trees. -/
def pass (c : Course ρ) : Pass :=
  ⟨c.maxDepth, c.extra, c.skipped, c.depth, c.kept.map fun e => (e.1, e.2.json)⟩

@[simp] theorem pass_deeper (c : Course ρ) : c.deeper.pass = c.pass.deeper := rfl

@[simp] theorem pass_shallower (c : Course ρ) : c.shallower.pass = c.pass.shallower := rfl

theorem lookup?_pass (c : Course ρ) (key : MemoKey) :
    c.pass.lookup? key = (c.lookup? key).map Tree.json := by
  rw [Pass.lookup?, pass, lookup?, List.find?_map, Option.map_map, Option.map_map]
  rfl

end Course

/-! ## Growing trees -/

/-- Growing changes the course and works on the database below it. -/
abbrev Growth (σ ρ : Type) := Session (Course ρ × σ)

/-- Runs on the items in order and collects the trees. -/
def treesOf (act : α → Growth σ ρ (Tree ρ)) : List α → Growth σ ρ (List (Tree ρ))
  | [] => pure []
  | x :: rest => do
      let t ← act x
      let ts ← treesOf act rest
      pure (t :: ts)

/-- The branches for the names, in order. -/
def branchesOf (act : String → Growth σ ρ (Tree ρ)) :
    List String → Growth σ ρ (List (String × Tree ρ))
  | [] => pure []
  | name :: rest => do
      let t ← act name
      let bs ← branchesOf act rest
      pure ((name, t) :: bs)

variable [Entity ρ]

def relatedTree (expand : ρ → Growth σ ρ (Tree ρ)) (r : ρ) : Growth σ ρ (Tree ρ) :=
  match Entity.reference r with
  | some j => pure (.plain j)
  | none => expand r

section Walk

variable (db : Engine σ) (schema : Schema σ ρ)

mutual

/-- The tree of a resolved relation; `expand` grows the records it leads to. -/
def valueTree (expand : ρ → Growth σ ρ (Tree ρ)) : Relation ρ → Growth σ ρ (Tree ρ)
  | .absent => pure (.plain .null)
  | .scalar v => pure (.plain v.toJson)
  | .one r => relatedTree expand r
  | .many rs => do
      let ts ← treesOf (relatedTree expand) rs
      pure (.array ts)
  | .list items => do
      let ts ← valueTrees expand items
      pure (.array ts)
  | .deferred q => do
      let found ← (q.getDynamic db schema).beside
      let ts ← treesOf (relatedTree expand) found.items
      pure (.array ts)
termination_by structural relation => relation

def valueTrees (expand : ρ → Growth σ ρ (Tree ρ)) :
    List (Relation ρ) → Growth σ ρ (List (Tree ρ))
  | [] => pure []
  | x :: rest => do
      let t ← valueTree expand x
      let ts ← valueTrees expand rest
      pure (t :: ts)
termination_by structural l => l

end

/-- Resolves a relation and grows it one level down, whatever the memo holds. -/
def freshTree (expand : ρ → Growth σ ρ (Tree ρ)) (r : ρ) (relation : String) :
    Growth σ ρ (Tree ρ) := do
  let resolved ← (schema.resolve r relation).beside
  Session.within Course.deeper Course.shallower (valueTree db schema expand resolved)

/-- One relation of a record: as remembered, or grown and then remembered. -/
def relationTree (expand : ρ → Growth σ ρ (Tree ρ)) (r : ρ) (relation : String) :
    Growth σ ρ (Tree ρ) := do
  let course ← Session.own
  match (memoKey? r relation).bind course.lookup? with
  | some t => pure (.recalled t)
  | none => do
      let t ← freshTree db schema expand r relation
      Session.modifyOwn fun c => c.rememberUnder (memoKey? r relation) t
      pure (.resolved ⟨r, relation⟩ t)

/-- A record with the given number of levels below it. -/
def recordTree : Nat → ρ → Growth σ ρ (Tree ρ)
  | 0, r => pure (.record r [])
  | levels + 1, r => do
      let course ← Session.own
      let branches ← branchesOf (relationTree db schema (recordTree levels) r)
        (relationNames course.pass r)
      pure (.record r branches)

/-- A record at the present depth of the course. -/
def rootTree (r : ρ) : Growth σ ρ (Tree ρ) := do
  let course ← Session.own
  recordTree db schema course.pass.levels r

def Request.tree : Request ρ → Growth σ ρ (Tree ρ)
  | .one r => rootTree db schema r
  | .all s => do
      let ts ← treesOf (rootTree db schema) s.items
      pure (.array ts)

/-- The trees of calls made one after the other. -/
def growAll : List (Request ρ) → Course ρ × σ → List (Except Error (Tree ρ)) × (Course ρ × σ)
  | [], s => ([], s)
  | request :: rest, s =>
      let (tree, s) := (request.tree db schema).outcome s
      let (trees, s) := growAll rest s
      (tree :: trees, s)

end Walk

/-! ## Forgetting the trees -/

/-- `act` does what `tree` does, with what `f` makes of its result and with the JSON of all
trees that are remembered. -/
def Follows (f : α → β) (act : Expansion σ β) (tree : Growth σ ρ α) : Prop :=
  ∀ c s, act.outcome (c.pass, s) = ((tree.outcome (c, s)).1.map f,
    ((tree.outcome (c, s)).2.1.pass, (tree.outcome (c, s)).2.2))

theorem follows_pure {f : α → β} {a : α} {b : β} (h : f a = b) :
    Follows f (pure b : Expansion σ β) (pure a : Growth σ ρ α) := by
  intro c s
  rw [← h]
  rfl

theorem follows_bind {α' β' : Type} {f : α → β} {f' : α' → β'} {act : Expansion σ β}
    {tree : Growth σ ρ α} {g : β → Expansion σ β'} {g' : α → Growth σ ρ α'}
    (hact : Follows f act tree) (hg : ∀ a, Follows f' (g (f a)) (g' a)) :
    Follows f' (act >>= g) (tree >>= g') := by
  intro c s
  have h := hact c s
  obtain ⟨result, ⟨c', s'⟩, htree⟩ := tree.exists_outcome (c, s)
  rw [htree] at h
  rw [outcome_bind, outcome_bind, h, htree]
  cases result with
  | ok a => exact hg a c' s'
  | error e => rfl

theorem follows_map {α' : Type} {f : α → β} {f' : α' → β} {act : Expansion σ β}
    {tree : Growth σ ρ α} {g : α → α'} (h : Follows f act tree) (hg : ∀ a, f' (g a) = f a) :
    Follows f' act (tree >>= fun a => pure (g a)) := by
  have hbind := follows_bind h fun a => follows_pure (hg a)
  rwa [bind_pure] at hbind

theorem follows_beside (act : Session σ α) :
    Follows id (act.beside : Expansion σ α) (act.beside : Growth σ ρ α) := by
  intro c s
  obtain ⟨result, s', h⟩ := act.exists_outcome s
  simp only [outcome_beside, h]
  cases result <;> rfl

theorem follows_own : Follows Course.pass (own : Expansion σ Pass) (own : Growth σ ρ (Course ρ)) :=
  fun _ _ => rfl

theorem follows_within {f : α → β} {act : Expansion σ β} {tree : Growth σ ρ α}
    (h : Follows f act tree) : Follows f (within Pass.deeper Pass.shallower act)
      (within Course.deeper Course.shallower tree) := by
  intro c s
  have hinner := h c.deeper s
  rw [outcome_within, outcome_within, ← Course.pass_deeper, hinner, Course.pass_shallower]

theorem follows_treesOf {act : α → Expansion σ Json} {tree : α → Growth σ ρ (Tree ρ)}
    (h : ∀ x, Follows Tree.json (act x) (tree x)) : ∀ xs : List α,
    Follows jsonItems (arrayOf act xs) (treesOf tree xs)
  | [] => follows_pure rfl
  | x :: rest => follows_bind (h x) fun _ => follows_bind (follows_treesOf h rest) fun _ =>
      follows_pure rfl

theorem follows_array {act : Expansion σ (List Json)} {trees : Growth σ ρ (List (Tree ρ))}
    (h : Follows jsonItems act trees) :
    Follows Tree.json (act >>= fun js => pure (.arr js)) (trees >>= fun ts => pure (.array ts)) :=
  follows_bind h fun _ => follows_pure rfl

variable {db : Engine σ} {schema : Schema σ ρ} {expand : ρ → Expansion σ Json}
  {grow : ρ → Growth σ ρ (Tree ρ)}

theorem follows_related (h : ∀ r, Follows Tree.json (expand r) (grow r)) (r : ρ) :
    Follows Tree.json (related expand r) (relatedTree grow r) := by
  rw [related, relatedTree]
  cases Entity.reference r with
  | none => exact h r
  | some j => exact follows_pure rfl

mutual

theorem follows_valueTree (h : ∀ r, Follows Tree.json (expand r) (grow r)) :
    ∀ relation : Relation ρ,
    Follows Tree.json (normalize db schema expand relation) (valueTree db schema grow relation)
  | .absent => follows_pure rfl
  | .scalar _ => follows_pure rfl
  | .one r => follows_related h r
  | .many rs => follows_array (follows_treesOf (follows_related h) rs)
  | .list items => follows_array (follows_valueTrees h items)
  | .deferred q => follows_bind (follows_beside (q.getDynamic db schema)) fun found =>
      follows_array (follows_treesOf (follows_related h) found.items)

theorem follows_valueTrees (h : ∀ r, Follows Tree.json (expand r) (grow r)) :
    ∀ items : List (Relation ρ),
    Follows jsonItems (normalizeAll db schema expand items) (valueTrees db schema grow items)
  | [] => follows_pure rfl
  | x :: rest => follows_bind (follows_valueTree h x) fun _ =>
      follows_bind (follows_valueTrees h rest) fun _ => follows_pure rfl

end

theorem follows_relationTree (h : ∀ r, Follows Tree.json (expand r) (grow r)) (r : ρ)
    (relation : String) :
    Follows Tree.json (relationJson db schema expand r relation)
      (relationTree db schema grow r relation) := by
  rw [relationJson, relationTree]
  refine follows_bind follows_own fun course => ?_
  have hlookup : (memoKey? r relation).bind course.pass.lookup?
      = ((memoKey? r relation).bind course.lookup?).map Tree.json := by
    cases memoKey? r relation with
    | none => rfl
    | some key => exact course.lookup?_pass key
  rw [hlookup]
  cases (memoKey? r relation).bind course.lookup? with
  | some t => exact follows_pure rfl
  | none =>
      simp only [freshTree, Option.map_none, bind_assoc]
      refine follows_bind (follows_beside (schema.resolve r relation)) fun resolved => ?_
      refine follows_bind (follows_within (follows_valueTree h resolved)) fun t => ?_
      cases memoKey? r relation <;> exact fun _ _ => rfl

theorem follows_branchesOf {act : String → Expansion σ Json}
    {grow : String → Growth σ ρ (Tree ρ)} (h : ∀ name, Follows Tree.json (act name) (grow name)) :
    ∀ (names : List String) (members : List (String × Json)),
    Follows (fun bs => addBranches bs members) (addRelations act names members)
      (branchesOf grow names)
  | [], _ => follows_pure rfl
  | name :: rest, members => follows_bind (h name) fun t =>
      follows_map (follows_branchesOf h rest (Json.insertMember name t.json members)) fun _ => rfl

variable (db : Engine σ) (schema : Schema σ ρ)

theorem follows_recordTree : ∀ (levels : Nat) (r : ρ),
    Follows Tree.json (expandRecord db schema levels r) (recordTree db schema levels r)
  | 0, _ => follows_pure rfl
  | levels + 1, r => by
      have hrelation : ∀ relation, Follows Tree.json
          (relationJson db schema (expandRecord db schema levels) r relation)
          (relationTree db schema (recordTree db schema levels) r relation) :=
        follows_relationTree (follows_recordTree levels) r
      refine follows_bind follows_own fun course => ?_
      exact follows_bind (follows_branchesOf hrelation (relationNames course.pass r)
        (storedMembers r)) fun _ => follows_pure rfl

theorem follows_tree (request : Request ρ) :
    Follows Tree.json (request.run db schema) (request.tree db schema) := by
  have hrecord : ∀ r, Follows Tree.json (serialize db schema r) (rootTree db schema r) :=
    fun r => follows_bind follows_own fun course => follows_recordTree db schema course.pass.levels r
  cases request with
  | one r => exact hrecord r
  | all s => exact follows_array (follows_treesOf hrecord s.items)

/-- The answers of calls are the JSON of the trees that they grow, and the pass is left
remembering the JSON of the trees that the course remembers. -/
theorem runAll_eq_growAll : ∀ (requests : List (Request ρ)) (c : Course ρ) (s : σ),
    runAll db schema requests (c.pass, s)
      = ((growAll db schema requests (c, s)).1.map (Except.map Tree.json),
          ((growAll db schema requests (c, s)).2.1.pass, (growAll db schema requests (c, s)).2.2))
  | [], _, _ => rfl
  | request :: rest, c, s => by
      have hfirst := follows_tree db schema request c s
      obtain ⟨tree, ⟨c', s'⟩, htree⟩ := (request.tree db schema).exists_outcome (c, s)
      have hrest := runAll_eq_growAll rest c' s'
      rw [htree] at hfirst
      rw [runAll, growAll, hfirst, htree]
      simp only [hrest, List.map_cons]

end RecordMapper.Hydration
