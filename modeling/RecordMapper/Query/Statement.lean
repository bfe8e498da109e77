import RecordMapper.Query.Identifier
import RecordMapper.Query.Select

/-!
# Statements

Writing a query out takes two steps. `Select.build` gives the text with a
numbered placeholder wherever a comparison has an operand, and beside it the
operands in the order of their numbers. `Statement.toSql` then puts the values,
escaped by the engine, in the place of the placeholders, in a single pass over
the text: what was put in is not looked at again.
-/

namespace RecordMapper

/-- Statement text with placeholders, and the values that they stand for. -/
structure Statement where
  sql : String
  values : OrderedMap Value

namespace Query

/-- The name of the operand with this number. -/
def placeholder (number : Nat) : String := "value" ++ number.repr

/-! ## Conditions -/

/-- The operands of a condition, from left to right. -/
def operands : Filter.Node → List Value
  | .comparison _ _ operand => operand.toList
  | .logical _ left right => operands left ++ operands right

/-- The text of a condition whose first operand has number `first`. Groups stand in
parentheses. -/
def condition (first : Nat) : Filter.Node → String
  | .comparison field operator operand =>
      quote field ++ " " ++ operator
        ++ match operand with
          | none => ""
          | some _ => " :" ++ placeholder first
  | .logical op left right =>
      "(" ++ condition first left ++ " " ++ op.keyword ++ " "
        ++ condition (first + (operands left).length) right ++ ")"

/-- Operands under their placeholder names, numbered from `first` on. -/
def numbered (first : Nat) : List Value → List (String × Value)
  | [] => []
  | v :: rest => (placeholder first, v) :: numbered (first + 1) rest

/-! ## Clauses -/

/-- Some selected column belongs to the query's own table. -/
def selectsOwn (q : Select) : Bool :=
  q.columns.names.any fun name => (q.table ++ ".").toList.isPrefixOf name.toList

/-- The columns as written: all of the query's own table, unless some are named. -/
def columnList (q : Select) : List String :=
  (if selectsOwn q then [] else [quote q.table ++ ".*"]) ++ q.columns.names.map quote

def joinText (j : Join) : String :=
  " INNER JOIN " ++ quote j.table ++ " ON " ++ quote (j.table ++ "." ++ j.localKey)
    ++ " = " ++ quote (j.base ++ "." ++ j.foreignKey)

/-- The statement up to its condition. -/
def headText (q : Select) : String :=
  "SELECT SQL_CALC_FOUND_ROWS " ++ String.intercalate ", " (columnList q)
    ++ " FROM " ++ quote q.table ++ String.join (q.joins.map joinText)

def orderText (q : Select) : String :=
  if q.orders.isEmpty then ""
  else " ORDER BY " ++ String.intercalate ", "
    (q.orders.entries.map fun e => quote e.1 ++ " " ++ e.2.keyword)

def limitText (q : Select) : String :=
  match q.limit with
  | none => ""
  | some limit => " LIMIT " ++ q.offset.repr ++ ", " ++ limit.repr

/-- The statement behind its condition. -/
def tailText (q : Select) : String := orderText q ++ limitText q

end Query

open Query

/-- Writes a query out, its operands numbered from one. -/
def Select.build (q : Select) : Statement :=
  match q.filter.root with
  | none => ⟨headText q ++ tailText q, ∅⟩
  | some root =>
      ⟨headText q ++ " WHERE " ++ condition 1 root ++ tailText q,
        OrderedMap.ofList (numbered 1 (operands root))⟩

/-! ## Putting values in -/

namespace Query

mutual

/-- A value as statement text: a bare NULL, an escaped scalar between quotes, or a list
in parentheses. An empty list, in which nothing can be found, is `(FALSE)`. -/
def literal (escape : Value → String) : Value → String
  | .null => "NULL"
  | .list [] => "(FALSE)"
  | .list (v :: rest) => "(" ++ literal escape v ++ literalRest escape rest ++ ")"
  | .bool b => "'" ++ escape (.bool b) ++ "'"
  | .int i => "'" ++ escape (.int i) ++ "'"
  | .float x => "'" ++ escape (.float x) ++ "'"
  | .text s => "'" ++ escape (.text s) ++ "'"
termination_by structural v => v

/-- The items of a list after the first. -/
def literalRest (escape : Value → String) : List Value → String
  | [] => ""
  | v :: rest => ", " ++ literal escape v ++ literalRest escape rest
termination_by structural l => l

end

/-- A character of a placeholder name: an ASCII letter or digit, or an underscore. -/
def isNameChar (c : Char) : Bool :=
  ('a' ≤ c && c ≤ 'z') || ('A' ≤ c && c ≤ 'Z') || ('0' ≤ c && c ≤ '9') || c == '_'

/-- Replaces each colon that is followed by a known name, together with the longest run
of name characters behind it. `skip` counts the characters of a name that has just
been replaced. -/
def substitute (lookup : List Char → Option (List Char)) :
    Nat → List Char → List Char
  | _, [] => []
  | skip + 1, _ :: rest => substitute lookup skip rest
  | 0, c :: rest =>
      if c = ':' then
        let name := rest.takeWhile isNameChar
        match if name.isEmpty then none else lookup name with
        | some text => text ++ substitute lookup name.length rest
        | none => c :: substitute lookup 0 rest
      else c :: substitute lookup 0 rest

end Query

/-- The statement with its values in place; `escape` makes a scalar safe to stand
between single quotes. -/
def Statement.toSql (escape : Value → String) (s : Statement) : String :=
  String.ofList <| substitute
    (fun name => (s.values.get? (String.ofList name)).map fun v => (literal escape v).toList)
    0 s.sql.toList

end RecordMapper
