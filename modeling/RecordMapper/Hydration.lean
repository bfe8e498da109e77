import RecordMapper.Config
import RecordMapper.Record.Retrieval

/-!
# Hydration

Hydration turns a record into JSON with its relations expanded in place. A
`Pass` limits how deep records nest, remembers relations already expanded, and
says which relations to add or leave out. Graphs of records may be cyclic; what
ends the expansion is the depth alone, since a relation is remembered only once
it is complete.

The recursion is on the number of levels that are left. A record with none left
shows its stored fields and nothing else, and none of its relations is resolved.
-/

namespace RecordMapper

/-- The relation of one record, by the record's type and the key text of its identifier. -/
structure MemoKey where
  typeName : String
  relation : String
  id : String
deriving DecidableEq, Repr

/-- The state of a hydration. -/
structure Pass where
  /-- How many records may enclose one another. -/
  maxDepth : Nat
  /-- Relations expanded on every record beside the declared ones. -/
  extra : List String
  /-- Relations expanded on no record. -/
  skipped : List String
  /-- How many records enclose the one at hand. -/
  depth : Nat
  memo : List (MemoKey × Json)

namespace Pass

def new (maxDepth : Nat) : Pass := ⟨maxDepth, [], [], 0, []⟩

def ofConfig (config : HydrationConfig) : Pass := new config.maxDepth

def including (p : Pass) (relation : String) : Pass :=
  { p with extra := p.extra ++ [relation] }

def without (p : Pass) (relation : String) : Pass :=
  { p with skipped := p.skipped ++ [relation] }

def deeper (p : Pass) : Pass := { p with depth := p.depth + 1 }

def shallower (p : Pass) : Pass := { p with depth := p.depth - 1 }

def lookup? (p : Pass) (key : MemoKey) : Option Json :=
  (p.memo.find? fun e => e.1 == key).map Prod.snd

def remember (p : Pass) (key : MemoKey) (j : Json) : Pass :=
  { p with memo := (key, j) :: p.memo }

/-- The levels below a record at the present depth. -/
def levels (p : Pass) : Nat := p.maxDepth - (p.depth + 1)

end Pass

namespace Hydration

variable {σ ρ : Type} [Entity ρ]

/-- Hydration changes the pass and works on the database below it. -/
abbrev Expansion (σ : Type) := Session (Pass × σ)

/-- The stored fields as members of an object. -/
def storedMembers (r : ρ) : List (String × Json) :=
  Json.sortMembers ((Entity.fields r).entries.map fun e => (e.1, e.2.toJson))

/-- The relations to expand on a record: the declared ones and the extra ones, as far as
they are not skipped. An extra name that is stored or declared adds nothing. -/
def relationNames (p : Pass) (r : ρ) : List String :=
  let declared := Entity.relations r
  let extra := p.extra.filter fun name =>
    !declared.contains name && !(Entity.fields r).contains name
  (declared ++ extra).filter fun name => !p.skipped.contains name

/-- What a relation of a record is remembered under; nothing for records without an
identifier. -/
def memoKey? (r : ρ) (relation : String) : Option MemoKey :=
  (Entity.id? r).map fun id => ⟨Entity.typeName r, relation, id.key⟩

/-! ## Values of relations -/

/-- Runs on the items in order and collects the results. -/
def arrayOf {α : Type} (act : α → Expansion σ Json) : List α → Expansion σ (List Json)
  | [] => pure []
  | x :: rest => do
      let j ← act x
      let js ← arrayOf act rest
      pure (j :: js)

/-- A record that a relation leads to: its short form if it has one. -/
def related (expand : ρ → Expansion σ Json) (r : ρ) : Expansion σ Json :=
  match Entity.reference r with
  | some j => pure j
  | none => expand r

mutual

/-- The JSON of a resolved relation; `expand` hydrates the records it leads to. -/
def normalize (db : Engine σ) (schema : Schema σ ρ) (expand : ρ → Expansion σ Json) :
    Relation ρ → Expansion σ Json
  | .absent => pure .null
  | .scalar v => pure v.toJson
  | .one r => related expand r
  | .many rs => do
      let js ← arrayOf (related expand) rs
      pure (.arr js)
  | .list items => do
      let js ← normalizeAll db schema expand items
      pure (.arr js)
  | .deferred q => do
      let found ← (q.getDynamic db schema).beside
      let js ← arrayOf (related expand) found.items
      pure (.arr js)
termination_by structural relation => relation

def normalizeAll (db : Engine σ) (schema : Schema σ ρ) (expand : ρ → Expansion σ Json) :
    List (Relation ρ) → Expansion σ (List Json)
  | [] => pure []
  | x :: rest => do
      let j ← normalize db schema expand x
      let js ← normalizeAll db schema expand rest
      pure (j :: js)
termination_by structural l => l

end

/-! ## Records -/

/-- The JSON of one relation of a record: as remembered, or resolved and expanded one
level down. Only a complete expansion is remembered. -/
def relationJson (db : Engine σ) (schema : Schema σ ρ) (expand : ρ → Expansion σ Json)
    (r : ρ) (relation : String) : Expansion σ Json := do
  let key := memoKey? r relation
  let pass ← Session.own
  match key.bind pass.lookup? with
  | some j => pure j
  | none => do
      let resolved ← (schema.resolve r relation).beside
      let j ← Session.within Pass.deeper Pass.shallower (normalize db schema expand resolved)
      match key with
      | some key => Session.modifyOwn fun p => p.remember key j
      | none => pure ()
      pure j

/-- Expands relations one after the other into the members of an object. -/
def addRelations (act : String → Expansion σ Json) :
    List String → List (String × Json) → Expansion σ (List (String × Json))
  | [], members => pure members
  | name :: rest, members => do
      let j ← act name
      addRelations act rest (Json.insertMember name j members)

/-- A record with the given number of levels below it. -/
def expandRecord (db : Engine σ) (schema : Schema σ ρ) : Nat → ρ → Expansion σ Json
  | 0, r => pure (.obj (storedMembers r))
  | levels + 1, r => do
      let pass ← Session.own
      let members ← addRelations
        (relationJson db schema (expandRecord db schema levels) r)
        (relationNames pass r) (storedMembers r)
      pure (.obj members)

/-- Hydrates a record at the present depth of the pass. -/
def serialize (db : Engine σ) (schema : Schema σ ρ) (r : ρ) : Expansion σ Json := do
  let pass ← Session.own
  expandRecord db schema pass.levels r

/-- Hydrates the records of a set in one pass, so that they share what it remembers. -/
def serializeAll (db : Engine σ) (schema : Schema σ ρ) (s : ResultSet ρ) :
    Expansion σ Json := do
  let js ← arrayOf (serialize db schema) s.items
  pure (.arr js)

/-- Runs an expansion in a pass of its own. -/
def inPass {α : Type} (p : Pass) (act : Expansion σ α) : Session σ α :=
  .ofOutcome fun s =>
    let (result, s) := act.outcome (p, s)
    (result, s.2)

end Hydration

variable {σ ρ : Type} [Entity ρ]

/-- Hydrates one record in a fresh pass. -/
def hydrate (db : Engine σ) (schema : Schema σ ρ) (config : HydrationConfig) (r : ρ) :
    Session σ Json :=
  Hydration.inPass (.ofConfig config) (Hydration.serialize db schema r)

/-- Hydrates a set in one fresh pass. -/
def hydrateAll (db : Engine σ) (schema : Schema σ ρ) (config : HydrationConfig)
    (s : ResultSet ρ) : Session σ Json :=
  Hydration.inPass (.ofConfig config) (Hydration.serializeAll db schema s)

end RecordMapper
