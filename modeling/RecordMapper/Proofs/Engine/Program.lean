import RecordMapper.Blog.Relations
import RecordMapper.Proofs.Hydration.Walk
import RecordMapper.Record.Lifecycle

/-!
# Programs on an engine

What the users of the library do to a database: they run its operations one after
the other, each chosen by the results before it, and go on or give up when one
fails. Hydration has the accessors of records run, so these must be programs
themselves. A property that all operations have and that goes over to what is made
of them holds of every program.
-/

namespace RecordMapper

namespace Session

variable {σ τ α : Type}

/-- Goes on after a failure, which becomes a result like any other. -/
def attempt (act : Session σ α) : Session σ (Except Error α) :=
  ofOutcome fun s => (.ok (act.outcome s).1, (act.outcome s).2)

/-- Runs with something of one's own beside the database, and has it back afterwards, on
failure too. -/
def lending (a : τ) (act : Session (τ × σ) α) : Session σ (Except Error α × τ) :=
  ofOutcome fun s =>
    let (result, s) := act.outcome (a, s)
    (.ok (result, s.1), s.2)

end Session

open Session

variable {σ : Type}

/-- What can be done with a database through the library. A record lives in its program, which
lends it to be saved or deleted, and so does a pass. -/
inductive Program (db : Engine σ) : {α : Type} → Session σ α → Prop
  | settle {α : Type} (x : Except Error α) : Program db (.settle x)
  | bind {α β : Type} {act : Session σ α} {f : α → Session σ β} (hact : Program db act)
      (hf : ∀ a, Program db (f a)) : Program db (act >>= f)
  | attempt {α : Type} {act : Session σ α} (hact : Program db act) : Program db act.attempt
  | find {ρ : Type} [Entity ρ] (t : RecordType ρ) (id : Value) : Program db (t.find db id)
  | findFirst {ρ : Type} [Entity ρ] (t : RecordType ρ) (node : Option Filter.Node) :
      Program db (t.findFirst db node)
  | findAll {ρ : Type} [Entity ρ] (t : RecordType ρ) (node : Option Filter.Node) :
      Program db (t.findAll db node)
  | paginate {ρ : Type} [Entity ρ] (t : RecordType ρ) (p : Pagination) :
      Program db (t.paginate db p)
  | create {ρ : Type} [Entity ρ] (t : RecordType ρ) (fields : Fields) :
      Program db (t.create db fields)
  | save {ρ : Type} [Entity ρ] (t : RecordType ρ) (r : ρ) : Program db (lending r (t.save db))
  | delete {ρ : Type} [Entity ρ] (t : RecordType ρ) (r : ρ) :
      Program db (lending r (t.delete db))
  | get {ρ : Type} [Entity ρ] (loader : Loader ρ) (q : Select) : Program db (q.get db loader)
  | first {ρ : Type} [Entity ρ] (loader : Loader ρ) (q : Select) : Program db (q.first db loader)
  | getDynamic {ρ : Type} [Entity ρ] (schema : Schema σ ρ) (q : Select) :
      Program db (q.getDynamic db schema)
  | hydration {ρ : Type} [Entity ρ] {schema : Schema σ ρ}
      (hschema : ∀ r relation, Program db (schema.resolve r relation)) (p : Pass)
      (request : Hydration.Request ρ) : Program db (lending p (request.run db schema))

namespace Program

variable {db : Engine σ}

theorem pure {α : Type} (a : α) : Program db (Pure.pure a : Session σ α) :=
  settle (.ok a)

/-- A pass of its own is one that is not looked at again. -/
theorem inPass_eq_lending {α : Type} (p : Pass) (act : Hydration.Expansion σ α) :
    Hydration.inPass p act = lending p act >>= fun x => Session.settle x.1 := by
  apply ext_outcome
  intro s
  rw [outcome_bind]
  exact (outcome_settle _ _).symm

theorem hydrate {ρ : Type} [Entity ρ] {schema : Schema σ ρ}
    (hschema : ∀ r relation, Program db (schema.resolve r relation)) (config : HydrationConfig)
    (r : ρ) : Program db (RecordMapper.hydrate db schema config r) := by
  rw [RecordMapper.hydrate, inPass_eq_lending]
  exact (hydration hschema _ (.one r)).bind fun x => settle x.1

/-- The accessors of the blog are programs. -/
theorem blog (db : Engine σ) (r : Blog.Record) (relation : String) :
    Program db ((Blog.schema db).resolve r relation) := by
  show Program db (r.resolve db relation)
  unfold Blog.Record.resolve
  split
  · exact (findAll _ _).bind fun found => pure _
  · exact (findFirst _ _).bind fun found => pure _
  · exact (findFirst _ _).bind fun found => pure _
  · exact (findFirst _ _).bind fun found => pure _
  · exact settle _
  · exact pure _
  · exact pure _
  · exact pure _

end Program

end RecordMapper
