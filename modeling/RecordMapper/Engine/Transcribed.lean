import RecordMapper.Engine

/-!
# Transcribed calls

A transcribed engine writes down every call together with its answer, once the
answer is there, and otherwise does what the engine does. Counting rows by a
statement is a query like any other; a counter of the engine's own is no call.
-/

namespace RecordMapper

/-- A call made to an engine, and what the engine answered. -/
inductive Exchange where
  | query (sql : String) (answer : Except Error (List Fields))
  | insert (table : String) (fields : Fields) (answer : Except Error Value)
  | update (table : String) (fields : Fields) (key : Filter.Node) (answer : Except Error UInt64)
  | delete (table : String) (keys : List String) (values : List Value)
      (answer : Except Error UInt64)

namespace Engine

variable {σ α : Type}

/-- Runs an action on the database and writes it down with its answer, the latest last. -/
def transcribing (note : Except Error α → Exchange) (act : Session σ α) :
    Session (List Exchange × σ) α :=
  .ofOutcome fun s =>
    let (answer, below) := act.outcome s.2
    (answer, (s.1 ++ [note answer], below))

def transcribed (db : Engine σ) : Engine (List Exchange × σ) where
  escape := db.escape
  query sql := transcribing (.query sql) (db.query sql)
  insert table fields := transcribing (.insert table fields) (db.insert table fields)
  update table fields key := transcribing (.update table fields key) (db.update table fields key)
  delete table keys values := transcribing (.delete table keys values) (db.delete table keys values)
  counter := db.counter.map Session.beside

end Engine

end RecordMapper
