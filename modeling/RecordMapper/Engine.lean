import RecordMapper.Record.Model
import RecordMapper.Session
import RecordMapper.Value.Convert

/-!
# The database engine

Connections, escaping and rows live behind an `Engine`; the library only writes
statements and reads rows. An engine may fail at any call, and its errors reach
the caller unchanged. Row counts are 64-bit words.
-/

namespace RecordMapper

/-- A database whose state is a `σ`. -/
structure Engine (σ : Type) where
  /-- Makes a scalar safe to stand between single quotes. -/
  escape : Value → String
  query : String → Session σ (List Fields)
  /-- Answers with the identifier that the database gave the row. -/
  insert : (table : String) → Fields → Session σ Value
  update : (table : String) → Fields → Filter.Node → Session σ UInt64
  /-- Deletes the rows whose key columns have the given values. -/
  delete : (table : String) → (keys : List String) → List Value → Session σ UInt64
  /-- A way of its own to count the rows of the last query, its LIMIT clause aside. An
  engine without one is asked by a statement. -/
  counter : Option (Session σ Nat) := none

namespace Engine

variable {σ : Type}

/-- Asks for the number of rows that the statement before would have found without its
LIMIT clause. -/
def foundRowsSql : String := "SELECT FOUND_ROWS() AS total;"

/-- The total in the first row of an answer: an integer, or text that spells one, and
not negative. -/
def total? (rows : List Fields) : Option Nat := do
  let row ← rows.head?
  let v ← row.get? "total"
  let i ← v.toInt64?
  if i.toInt < 0 then none else some i.toInt.toNat

/-- The row count of the last query, its LIMIT clause aside. -/
def foundRows (db : Engine σ) : Session σ Nat :=
  match db.counter with
  | some count => count
  | none => do
      let rows ← db.query foundRowsSql
      match total? rows with
      | some n => pure n
      | none => throw .noTotal

/-- The same database beside some other state. -/
def beside (τ : Type) (db : Engine σ) : Engine (τ × σ) where
  escape := db.escape
  query sql := (db.query sql).beside
  insert table fields := (db.insert table fields).beside
  update table fields key := (db.update table fields key).beside
  delete table keys values := (db.delete table keys values).beside
  counter := db.counter.map Session.beside

end Engine

end RecordMapper
