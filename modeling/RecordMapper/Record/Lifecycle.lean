import RecordMapper.Pagination
import RecordMapper.Record.Retrieval

/-!
# Finding, creating, saving and deleting records

A record is addressed by its primary key throughout: finding, saving and
deleting all derive the row from the same key columns. Events announce each
change before and after it is made; what handles them may change the record, and
may refuse, which ends the operation.
-/

namespace RecordMapper

inductive Event where
  | beforeCreate
  | afterCreate
  | beforeUpdate
  | afterUpdate
  | beforeDelete
  | afterDelete
deriving DecidableEq, Repr

def Event.name : Event → String
  | .beforeCreate => "before_create"
  | .afterCreate => "after_create"
  | .beforeUpdate => "before_update"
  | .afterUpdate => "after_update"
  | .beforeDelete => "before_delete"
  | .afterDelete => "after_delete"

/-- A record type with everything that changes its records. -/
structure RecordType (ρ : Type) extends Loader ρ where
  withFields : ρ → Fields → ρ
  /-- Handles an event. What was done to the record stays also when the handler fails. -/
  handle : Event → Session ρ Unit := fun _ => pure ()

namespace RecordType

variable {σ ρ : Type} [Entity ρ]

/-! ## Changing stored fields -/

/-- Merges fields into the record; those already stored are overwritten in place. -/
def merge (t : RecordType ρ) (r : ρ) (data : Fields) : ρ :=
  t.withFields r ((Entity.fields r).insertAll data.entries)

def assign (t : RecordType ρ) (r : ρ) (field : String) (v : Value) : ρ :=
  t.withFields r ((Entity.fields r).insert field v)

/-! ## Finding -/

/-- The query for all records of the type, ancestors joined. -/
def select (t : RecordType ρ) : Except Error Select := Select.ofModel t.model

/-- The record with this identifier. Null and the empty text identify nothing. -/
def find (t : RecordType ρ) (db : Engine σ) (id : Value) : Session σ ρ := do
  let missing := Error.noSuchRecord t.model.name id.key
  if id.isNull || id.asText? == some "" then throw missing
  let key ← Session.settle (t.model.keyFilter id)
  let q ← Session.settle t.select
  match ← (q.andWhere (some key)).first db t.toLoader with
  | some r => pure r
  | none => throw missing

def findFirst (t : RecordType ρ) (db : Engine σ) (node : Option Filter.Node) :
    Session σ (Option ρ) := do
  let q ← Session.settle t.select
  (q.andWhere node).first db t.toLoader

def findAll (t : RecordType ρ) (db : Engine σ) (node : Option Filter.Node) :
    Session σ (ResultSet ρ) := do
  let q ← Session.settle t.select
  (q.andWhere node).get db t.toLoader

def paginate (t : RecordType ρ) (db : Engine σ) (p : Pagination) :
    Session σ (ResultSet ρ) := do
  let q ← Session.settle t.select
  (q.paginate p).get db t.toLoader

/-! ## Creating -/

/-- The fields handed to the database: the creation time is its own to set, and so is a
key of one column. -/
def insertable (t : RecordType ρ) (fields : Fields) : Fields :=
  let fields := fields.erase "created_at"
  match t.model.primaryKey with
  | [key] => fields.erase key
  | _ => fields

/-- The identifier of a row just inserted: the generated one, or for a composite key the
list of the key columns as inserted, with null for those that are missing. -/
def insertedId (t : RecordType ρ) (data : Fields) (generated : Value) : Value :=
  match t.model.primaryKey with
  | [_] => generated
  | keys => .list (keys.map fun key => (data.get? key).getD .null)

/-- Handles an event of a record and answers with the record after it. -/
def announce (t : RecordType ρ) (e : Event) (r : ρ) : Session σ ρ :=
  let (result, r) := (t.handle e).outcome r
  .settle (result.map fun _ => r)

/-- Inserts a row and reads it back. -/
def create (t : RecordType ρ) (db : Engine σ) (fields : Fields) : Session σ ρ := do
  let record ← Session.settle (t.load fields)
  let record ← t.announce .beforeCreate record
  let data := t.insertable (Entity.fields record)
  let generated ← db.insert t.model.table data
  let id := t.insertedId data generated
  if id.isNull then throw (.noIdentifier t.model.name)
  let created ← t.find db id
  t.announce .afterCreate created

/-! ## Saving and deleting

The state of these is the record beside the database: a handler that fails may
have changed the record before. -/

/-- Handles an event of the record in the state. -/
def react (t : RecordType ρ) (e : Event) : Session (ρ × σ) Unit :=
  .ofOutcome fun s =>
    let (result, r) := (t.handle e).outcome s.1
    (result, (r, s.2))

/-- Writes every field back to the record's row. -/
def save (t : RecordType ρ) (db : Engine σ) : Session (ρ × σ) UInt64 := do
  t.react .beforeUpdate
  let r ← Session.own
  match Entity.id? r with
  | none => throw (.unidentified "save" t.model.name)
  | some id =>
      let key ← Session.settle (t.model.keyFilter id)
      let affected ← (db.update t.model.table (Entity.fields r) key).beside
      t.react .afterUpdate
      pure affected

/-- The key values of a record as a delete takes them, one for each key column. -/
def deleteValues (t : RecordType ρ) (id : Value) : List Value :=
  match id with
  | .list values => if 1 < t.model.primaryKey.length then values else [id]
  | id => [id]

def delete (t : RecordType ρ) (db : Engine σ) : Session (ρ × σ) UInt64 := do
  t.react .beforeDelete
  let r ← Session.own
  match Entity.id? r with
  | none => throw (.unidentified "delete" t.model.name)
  | some id =>
      let affected ← (db.delete t.model.table t.model.primaryKey (t.deleteValues id)).beside
      t.react .afterDelete
      pure affected

/-! ## Whole sets -/

/-- Runs an action on the records in order, until it fails on one. Every record keeps
what the action did to it. -/
def forEach {β : Type} (act : Session (ρ × σ) β) :
    List ρ → σ → Except Error (List β) × List ρ × σ
  | [], s => (.ok [], [], s)
  | r :: rest, s =>
      match act.outcome (r, s) with
      | (.error e, r, s) => (.error e, r :: rest, s)
      | (.ok b, r, s) =>
          let (result, rest, s) := forEach act rest s
          (result.map (b :: ·), r :: rest, s)

/-- Runs an action on every record of the set in the state. -/
def onAll {β : Type} (act : Session (ρ × σ) β) : Session (ResultSet ρ × σ) (List β) :=
  .ofOutcome fun s =>
    let (result, items, below) := forEach act s.1.items s.2
    (result, ({ s.1 with items := items }, below))

/-- Saves the records of a set and answers with the row count of each. -/
def saveAll (t : RecordType ρ) (db : Engine σ) : Session (ResultSet ρ × σ) (List UInt64) :=
  onAll (t.save db)

/-- Deletes the records of a set and answers with the sum of the row counts. -/
def deleteAll (t : RecordType ρ) (db : Engine σ) : Session (ResultSet ρ × σ) UInt64 := do
  let counts ← onAll (t.delete db)
  pure (counts.foldl (· + ·) 0)

end RecordType

end RecordMapper
