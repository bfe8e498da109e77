import RecordMapper.Engine

/-!
# Recorded calls

A recorded engine writes down every call before it is made, whether the call
succeeds or not, and otherwise does what the engine does. Counting rows by a
statement is a query like any other; a counter of the engine's own is no call.
-/

namespace RecordMapper

/-- A call made to an engine. -/
inductive Call where
  | query (sql : String)
  | insert (table : String) (fields : Fields)
  | update (table : String) (fields : Fields) (key : Filter.Node)
  | delete (table : String) (keys : List String) (values : List Value)

namespace Engine

variable {σ α : Type}

/-- Runs an action on the database behind a note of the call, the latest call last. -/
def noting (call : Call) (act : Session σ α) : Session (List Call × σ) α := do
  Session.modifyOwn fun calls => calls ++ [call]
  act.beside

def recorded (db : Engine σ) : Engine (List Call × σ) where
  escape := db.escape
  query sql := noting (.query sql) (db.query sql)
  insert table fields := noting (.insert table fields) (db.insert table fields)
  update table fields key := noting (.update table fields key) (db.update table fields key)
  delete table keys values := noting (.delete table keys values) (db.delete table keys values)
  counter := db.counter.map Session.beside

end Engine

end RecordMapper
