import RecordMapper.Engine

/-!
# A scripted engine

An engine that answers from a script. Queries are answered by the first rule
whose text occurs in the statement. Where no rule applies, the row count is that
of the last query that succeeded, and any other query finds nothing.
-/

namespace RecordMapper

/-- An answer for the statements in which `text` occurs. -/
structure Rule where
  text : String
  answer : Except Error (List Fields)

structure Script where
  rules : List Rule := []
  /-- The identifiers of the next rows inserted. -/
  ids : List Value := []
  /-- How many rows were numbered after the identifiers were used up. -/
  numbered : Nat := 0
  /-- The row count of every update and delete. -/
  affected : UInt64 := 1
  insertError : Option Error := none
  updateError : Option Error := none
  deleteError : Option Error := none
  /-- How many rows the last query found. -/
  found : Nat := 0

namespace Script

/-- `needle` occurs in a text. -/
def occursIn (needle : List Char) : List Char → Bool
  | [] => needle.isEmpty
  | c :: rest => needle.isPrefixOf (c :: rest) || occursIn needle rest

/-- Doubles backslashes and puts one before every single quote. -/
def escapeText (s : String) : String :=
  String.ofList <| s.toList.flatMap fun c =>
    if c = '\\' then ['\\', '\\'] else if c = '\x27' then ['\\', '\x27'] else [c]

def ruleFor? (s : Script) (sql : String) : Option Rule :=
  s.rules.find? fun r => occursIn r.text.toList sql.toList

/-- The answer to a statement. -/
def answer (s : Script) (sql : String) : Except Error (List Fields) :=
  match s.ruleFor? sql with
  | some r => r.answer
  | none =>
      if sql = Engine.foundRowsSql then
        .ok [OrderedMap.ofList [("total", .int (Int64.ofNat s.found))]]
      else .ok []

/-- Counts the rows that a statement found, unless it asked for that number. -/
def count (s : Script) (sql : String) : Except Error (List Fields) → Script
  | .ok rows => if sql = Engine.foundRowsSql then s else { s with found := rows.length }
  | .error _ => s

/-- The identifier of the next row inserted. -/
def nextId (s : Script) : Value × Script :=
  match s.ids with
  | v :: rest => (v, { s with ids := rest })
  | [] => (.int (Int64.ofNat (s.numbered + 1)), { s with numbered := s.numbered + 1 })

/-- The error of the script if it has one, otherwise the row count. -/
def affect (s : Script) : Option Error → Except Error UInt64
  | some e => .error e
  | none => .ok s.affected

/-- Puts a rule before all others. -/
def respond (s : Script) (r : Rule) : Script := { s with rules := r :: s.rules }

/-- The engine that follows the script in its state. -/
def engine : Engine Script where
  escape v := escapeText v.key
  query sql := .ofOutcome fun s =>
    let rows := s.answer sql
    (rows, s.count sql rows)
  insert _ _ := .ofOutcome fun s =>
    match s.insertError with
    | some e => (.error e, s)
    | none =>
        let (id, s) := s.nextId
        (.ok id, s)
  update _ _ _ := .ofOutcome fun s => (s.affect s.updateError, s)
  delete _ _ _ := .ofOutcome fun s => (s.affect s.deleteError, s)

end Script

end RecordMapper
