import RecordMapper.Query.Statement
import RecordMapper.Record.ResultSet

/-!
# Running queries

A query runs in two engine calls: the statement itself and, right behind it, the
row count that belongs to it. What loads the rows is either a record type named
by the caller or the schema, which goes by the model that the query is bound to.
-/

namespace RecordMapper

/-- A record type as queries need it: a model, and records out of rows. -/
structure Loader (ρ : Type) where
  model : Model
  load : Fields → Except Error ρ

namespace Select

variable {σ ρ : Type}

/-- The rows of a query and the row count without its limit. -/
def execute (db : Engine σ) (q : Select) : Session σ (List Fields × Nat) := do
  let rows ← db.query (q.build.toSql db.escape)
  let total ← db.foundRows
  pure (rows, total)

/-- The model that the query is bound to. -/
def boundModel (q : Select) : Except Error Model :=
  match q.model with
  | some m => .ok m
  | none => .error (.unboundQuery q.table)

variable [Entity ρ]

/-- Runs the query and loads its rows for the given model. -/
def fetch (db : Engine σ) (loader : Loader ρ) (q : Select) : Session σ (ResultSet ρ) := do
  let (rows, total) ← q.execute db
  .settle <| ((ResultSet.forModel loader.model.name).withTotal total).addRows loader.load rows

/-- Runs a query that must be bound to the requested type. -/
def get (db : Engine σ) (loader : Loader ρ) (q : Select) : Session σ (ResultSet ρ) := do
  let bound ← Session.settle q.boundModel
  if bound.name = loader.model.name then q.fetch db loader
  else throw (.boundElsewhere bound.name loader.model.name)

/-- The first record, asking for no more than one. -/
def first (db : Engine σ) (loader : Loader ρ) (q : Select) : Session σ (Option ρ) := do
  let found ← ((q.withOffset 0).withLimit 1).get db loader
  pure found.first?

/-- Runs a query and loads its rows as the model it is bound to prescribes. -/
def getDynamic (db : Engine σ) (schema : Schema σ ρ) (q : Select) :
    Session σ (ResultSet ρ) := do
  let bound ← Session.settle q.boundModel
  q.fetch db ⟨bound, schema.load bound⟩

end Select

end RecordMapper
