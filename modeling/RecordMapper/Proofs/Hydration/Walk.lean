import RecordMapper.Hydration
import RecordMapper.Proofs.Session

/-!
# The walk over a graph of records

Calls on a pass, one after the other, and the walk that each of them makes: over
the relations of a record and the records they lead to, down to the last level.
`walk` leaves open how one relation is got. The library gets it by `relationJson`,
which looks in the memo first; `expandFresh` gets it without the memo.
-/

namespace RecordMapper.Hydration

variable {σ τ ρ : Type} [Entity ρ]

/-! ## Walks -/

/-- How the JSON of one relation of a record is got, given the number of levels below the
records it leads to and the expansion of these. -/
abbrev Step (σ ρ : Type) := Nat → (ρ → Expansion σ Json) → ρ → String → Expansion σ Json

/-- A record with the given number of levels below it, its relations got by `step`. -/
def walk (step : Step σ ρ) : Nat → ρ → Expansion σ Json
  | 0, r => pure (.obj (storedMembers r))
  | levels + 1, r => do
      let pass ← Session.own
      let members ← addRelations (step levels (walk step levels) r) (relationNames pass r)
        (storedMembers r)
      pure (.obj members)

mutual

/-- The JSON of a resolved relation, its queries run by `execute`. -/
def normalizeBy (execute : Select → Expansion σ (ResultSet ρ)) (expand : ρ → Expansion σ Json) :
    Relation ρ → Expansion σ Json
  | .absent => pure .null
  | .scalar v => pure v.toJson
  | .one r => related expand r
  | .many rs => do
      let js ← arrayOf (related expand) rs
      pure (.arr js)
  | .list items => do
      let js ← normalizeAllBy execute expand items
      pure (.arr js)
  | .deferred q => do
      let found ← execute q
      let js ← arrayOf (related expand) found.items
      pure (.arr js)
termination_by structural relation => relation

def normalizeAllBy (execute : Select → Expansion σ (ResultSet ρ))
    (expand : ρ → Expansion σ Json) : List (Relation ρ) → Expansion σ (List Json)
  | [] => pure []
  | x :: rest => do
      let j ← normalizeBy execute expand x
      let js ← normalizeAllBy execute expand rest
      pure (j :: js)
termination_by structural l => l

end

mutual

theorem normalize_eq_normalizeBy (db : Engine σ) (schema : Schema σ ρ)
    (expand : ρ → Expansion σ Json) : ∀ relation : Relation ρ,
    normalize db schema expand relation
      = normalizeBy (fun q => (q.getDynamic db schema).beside) expand relation
  | .absent => rfl
  | .scalar _ => rfl
  | .one _ => rfl
  | .many _ => rfl
  | .list items => by
      rw [normalize, normalizeAll_eq_normalizeAllBy db schema expand items, normalizeBy]
  | .deferred _ => rfl

theorem normalizeAll_eq_normalizeAllBy (db : Engine σ) (schema : Schema σ ρ)
    (expand : ρ → Expansion σ Json) : ∀ items : List (Relation ρ),
    normalizeAll db schema expand items
      = normalizeAllBy (fun q => (q.getDynamic db schema).beside) expand items
  | [] => rfl
  | x :: rest => by
      rw [normalizeAll, normalize_eq_normalizeBy db schema expand x,
        normalizeAll_eq_normalizeAllBy db schema expand rest, normalizeAllBy]

end

/-- Resolves a relation and expands it one level down, whatever the memo holds. -/
def expandFresh (db : Engine σ) (schema : Schema σ ρ) : Step σ ρ := fun _ expand r relation => do
  let resolved ← (schema.resolve r relation).beside
  Session.within Pass.deeper Pass.shallower (normalize db schema expand resolved)

theorem expandRecord_eq_walk (db : Engine σ) (schema : Schema σ ρ) : ∀ (levels : Nat) (r : ρ),
    expandRecord db schema levels r = walk (fun _ => relationJson db schema) levels r
  | 0, _ => rfl
  | levels + 1, r => by
      have ih : expandRecord db schema levels
          = walk (fun _ => relationJson db schema) levels :=
        funext fun r => expandRecord_eq_walk db schema levels r
      rw [expandRecord, ih, walk]

/-! ## Calls on a pass -/

/-- A call on a pass, for one record or for a set. -/
inductive Request (ρ : Type) where
  | one (r : ρ)
  | all (s : ResultSet ρ)

namespace Request

/-- What the library does for a call. -/
def run (db : Engine σ) (schema : Schema σ ρ) : Request ρ → Expansion σ Json
  | .one r => serialize db schema r
  | .all s => serializeAll db schema s

/-- A record at the present depth of the pass. -/
def walkRecord (step : Step σ ρ) (r : ρ) : Expansion σ Json := do
  let pass ← Session.own
  walk step pass.levels r

/-- A call whose relations are got by `step`. -/
def walk (step : Step σ ρ) : Request ρ → Expansion σ Json
  | .one r => walkRecord step r
  | .all s => do
      let js ← arrayOf (walkRecord step) s.items
      pure (.arr js)

theorem run_eq_walk (db : Engine σ) (schema : Schema σ ρ) (request : Request ρ) :
    request.run db schema = request.walk fun _ => relationJson db schema := by
  have hrecord : ∀ r : ρ,
      serialize db schema r = walkRecord (fun _ => relationJson db schema) r := by
    intro r
    rw [serialize, walkRecord]
    congr 1
    funext pass
    exact expandRecord_eq_walk db schema _ r
  cases request with
  | one r => exact hrecord r
  | all s =>
      rw [run, serializeAll, walk]
      congr 2
      exact funext hrecord

end Request

/-- The answers to calls made one after the other on one pass, and the state they leave
behind. A call that fails leaves the pass to the calls after it. -/
def runAll (db : Engine σ) (schema : Schema σ ρ) :
    List (Request ρ) → Pass × σ → List (Except Error Json) × (Pass × σ)
  | [], s => ([], s)
  | request :: rest, s =>
      let (answer, s) := (request.run db schema).outcome s
      let (answers, s) := runAll db schema rest s
      (answer :: answers, s)

/-! ## What holds of all parts of a walk -/

/-- A relation between expansions that goes from the steps of two computations over to the
computations. -/
structure Compositional (R : (α : Type) → Expansion σ α → Expansion τ α → Prop) : Prop where
  pure : ∀ {α : Type} (a : α), R α (pure a) (pure a)
  bind : ∀ {α β : Type} {act : Expansion σ α} {act' : Expansion τ α} {f : α → Expansion σ β}
    {f' : α → Expansion τ β}, R α act act' → (∀ a, R β (f a) (f' a)) →
      R β (act >>= f) (act' >>= f')

/-- A property that goes over from the steps of a computation to the computation. -/
theorem Compositional.of_property {P : (α : Type) → Expansion σ α → Prop}
    (hpure : ∀ {α : Type} (a : α), P α (Pure.pure a))
    (hbind : ∀ {α β : Type} {act : Expansion σ α} {f : α → Expansion σ β}, P α act →
      (∀ a, P β (f a)) → P β (act >>= f)) :
    Compositional fun α (act act' : Expansion σ α) => act = act' ∧ P α act where
  pure a := ⟨rfl, hpure a⟩
  bind {α β act act' f f'} hact hf := by
    obtain ⟨rfl, hact⟩ := hact
    obtain rfl : f = f' := funext fun a => (hf a).1
    exact ⟨rfl, hbind hact fun a => (hf a).2⟩

/-- What holds of the state before holds of the state after, also of one that an error leaves. -/
def Keeps (I : Pass × σ → Prop) {α : Type} (act : Expansion σ α) : Prop :=
  ∀ x, I x → I (act.outcome x).2

section Keeps

variable {I : Pass × σ → Prop} {α β : Type}

theorem keeps_pure (a : α) : Keeps I (Pure.pure a : Expansion σ α) :=
  fun _ hx => hx

theorem Keeps.bind {act : Expansion σ α} {f : α → Expansion σ β} (hact : Keeps I act)
    (hf : ∀ a, Keeps I (f a)) : Keeps I (act >>= f) := by
  intro x hx
  have hx' := hact x hx
  obtain ⟨result, x', h⟩ := act.exists_outcome x
  rw [h] at hx'
  rw [Session.outcome_bind, h]
  cases result with
  | ok a => exact hf a x' hx'
  | error e => exact hx'

theorem keeps_own : Keeps I (Session.own : Expansion σ Pass) :=
  fun _ hx => hx

theorem compositional_keeps (I : Pass × σ → Prop) :
    Compositional fun α (act act' : Expansion σ α) => act = act' ∧ Keeps I act :=
  .of_property keeps_pure Keeps.bind

end Keeps

namespace Compositional

variable {R : (α : Type) → Expansion σ α → Expansion τ α → Prop} (hR : Compositional R)
include hR

theorem arrayOf {α : Type} {act : α → Expansion σ Json} {act' : α → Expansion τ Json}
    (h : ∀ x, R Json (act x) (act' x)) : ∀ xs : List α,
    R (List Json) (arrayOf act xs) (arrayOf act' xs)
  | [] => hR.pure []
  | x :: rest => hR.bind (h x) fun j => hR.bind (arrayOf h rest) fun js => hR.pure (j :: js)

theorem related {expand : ρ → Expansion σ Json} {expand' : ρ → Expansion τ Json}
    (h : ∀ r, R Json (expand r) (expand' r)) (r : ρ) :
    R Json (related expand r) (related expand' r) := by
  unfold Hydration.related
  cases Entity.reference r with
  | none => exact h r
  | some j => exact hR.pure j

theorem addRelations_of_mem {act : String → Expansion σ Json} {act' : String → Expansion τ Json} :
    ∀ (names : List String), (∀ name ∈ names, R Json (act name) (act' name)) →
      ∀ members : List (String × Json),
      R (List (String × Json)) (addRelations act names members) (addRelations act' names members)
  | [], _, members => hR.pure members
  | name :: rest, h, _ => hR.bind (h name List.mem_cons_self) fun _ =>
      addRelations_of_mem rest (fun name' hmem => h name' (List.mem_cons_of_mem name hmem)) _

theorem addRelations {act : String → Expansion σ Json} {act' : String → Expansion τ Json}
    (h : ∀ name, R Json (act name) (act' name)) (names : List String)
    (members : List (String × Json)) :
    R (List (String × Json)) (addRelations act names members) (addRelations act' names members) :=
  hR.addRelations_of_mem names (fun name _ => h name) members

section Relations

variable {execute : Select → Expansion σ (ResultSet ρ)}
  {execute' : Select → Expansion τ (ResultSet ρ)}
  {expand : ρ → Expansion σ Json} {expand' : ρ → Expansion τ Json}

mutual

theorem normalizeBy (hq : ∀ q, R (ResultSet ρ) (execute q) (execute' q))
    (h : ∀ r, R Json (expand r) (expand' r)) : ∀ relation : Relation ρ,
    R Json (normalizeBy execute expand relation) (normalizeBy execute' expand' relation)
  | .absent => hR.pure Json.null
  | .scalar v => hR.pure v.toJson
  | .one r => hR.related h r
  | .many rs => hR.bind (hR.arrayOf (hR.related h) rs) fun js => hR.pure (Json.arr js)
  | .list items => hR.bind (normalizeAllBy hq h items) fun js => hR.pure (Json.arr js)
  | .deferred q => hR.bind (hq q) fun found =>
      hR.bind (hR.arrayOf (hR.related h) found.items) fun js => hR.pure (Json.arr js)

theorem normalizeAllBy (hq : ∀ q, R (ResultSet ρ) (execute q) (execute' q))
    (h : ∀ r, R Json (expand r) (expand' r)) : ∀ items : List (Relation ρ),
    R (List Json) (normalizeAllBy execute expand items) (normalizeAllBy execute' expand' items)
  | [] => hR.pure []
  | x :: rest => hR.bind (normalizeBy hq h x) fun j =>
      hR.bind (normalizeAllBy hq h rest) fun js => hR.pure (j :: js)

end

theorem normalize {db : Engine σ} {schema : Schema σ ρ} {db' : Engine τ} {schema' : Schema τ ρ}
    (hq : ∀ q : Select, R (ResultSet ρ) (q.getDynamic db schema).beside
      (q.getDynamic db' schema').beside)
    (h : ∀ r, R Json (expand r) (expand' r)) (relation : Relation ρ) :
    R Json (Hydration.normalize db schema expand relation)
      (Hydration.normalize db' schema' expand' relation) := by
  rw [normalize_eq_normalizeBy, normalize_eq_normalizeBy]
  exact hR.normalizeBy hq h relation

end Relations

theorem walk {step : Step σ ρ} {step' : Step τ ρ} (hown : R Pass Session.own Session.own)
    (hstep : ∀ levels expand expand', (∀ r, R Json (expand r) (expand' r)) →
      ∀ r relation, R Json (step levels expand r relation) (step' levels expand' r relation)) :
    ∀ (levels : Nat) (r : ρ), R Json (walk step levels r) (walk step' levels r)
  | 0, r => hR.pure (Json.obj (storedMembers r))
  | levels + 1, r => by
      have hact := hstep levels _ _ (walk hown hstep levels) r
      exact hR.bind hown fun pass => hR.bind (hR.addRelations hact _ _) fun members =>
        hR.pure (Json.obj members)

theorem walkRequest {step : Step σ ρ} {step' : Step τ ρ} (hown : R Pass Session.own Session.own)
    (hwalk : ∀ levels r, R Json (Hydration.walk step levels r) (Hydration.walk step' levels r))
    (request : Request ρ) : R Json (request.walk step) (request.walk step') := by
  have hrecord : ∀ r, R Json (Request.walkRecord step r) (Request.walkRecord step' r) :=
    fun r => hR.bind hown fun pass => hwalk pass.levels r
  cases request with
  | one r => exact hrecord r
  | all s => exact hR.bind (hR.arrayOf hrecord s.items) fun js => hR.pure (Json.arr js)

end Compositional

/-- A property of steps is one of walks if it goes over from the parts of a computation to the
computation. -/
theorem Request.walk_of_property {P : (α : Type) → Expansion σ α → Prop}
    (hpure : ∀ {α : Type} (a : α), P α (Pure.pure a))
    (hbind : ∀ {α β : Type} {act : Expansion σ α} {f : α → Expansion σ β}, P α act →
      (∀ a, P β (f a)) → P β (act >>= f))
    (hown : P Pass Session.own) {step : Step σ ρ}
    (hstep : ∀ levels expand, (∀ r, P Json (expand r)) →
      ∀ r relation, P Json (step levels expand r relation)) (request : Request ρ) :
    P Json (request.walk step) := by
  have hparts : Compositional fun α (act act' : Expansion σ α) => act = act' ∧ P α act :=
    .of_property hpure hbind
  have hboth : ∀ (levels : Nat) (expand expand' : ρ → Expansion σ Json),
      (∀ r, expand r = expand' r ∧ P Json (expand r)) → ∀ r relation,
        step levels expand r relation = step levels expand' r relation
          ∧ P Json (step levels expand r relation) := by
    intro levels expand expand' h r relation
    obtain rfl : expand = expand' := funext fun r => (h r).1
    exact ⟨rfl, hstep levels expand (fun r => (h r).2) r relation⟩
  exact (hparts.walkRequest ⟨rfl, hown⟩ (hparts.walk ⟨rfl, hown⟩ hboth) request).2

end RecordMapper.Hydration
