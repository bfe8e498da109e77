import RecordMapper.Text.Visible
import RecordMapper.Value.Basic

/-!
# Values in error messages

Messages that quote a value name its type with it, as in `Int(1)` or
`List([Text("a"), Null])`. Texts are quoted, with quotation marks, backslashes
and characters that would not show escaped.
-/

namespace RecordMapper.Value

/-- In messages a double keeps its fraction, and below `1e-4` and from `1e16` on it has
an exponent. -/
def messageLayout : Decimal.Layout where
  tie := .away
  positional := some (-4, 15)
  keepsFraction := true
  plusSign := false

/-- A character inside a quoted text. -/
def describeChar (c : Char) : List Char :=
  if c = '"' then ['\\', '"']
  else if c = '\\' then ['\\', '\\']
  else if c = '\n' then ['\\', 'n']
  else if c = '\r' then ['\\', 'r']
  else if c = '\t' then ['\\', 't']
  else if c.toNat = 0 then ['\\', '0']
  else if Text.isVisible c then [c]
  else "\\u\x7b".toList ++ Nat.toDigits 16 c.toNat ++ ['}']

mutual

def describe : Value → String
  | .null => "Null"
  | .bool b => if b then "Bool(true)" else "Bool(false)"
  | .int i => "Int(" ++ String.ofList (Json.printInt i.toInt) ++ ")"
  | .float x => "Float(" ++ messageLayout.write x ++ ")"
  | .text s => "Text(\"" ++ String.ofList (s.toList.flatMap describeChar) ++ "\")"
  | .list items => "List([" ++ describeItems items ++ "])"
termination_by structural v => v

/-- The items of a list, with commas between them. -/
def describeItems : List Value → String
  | [] => ""
  | v :: rest => describe v ++ describeMore rest
termination_by structural l => l

def describeMore : List Value → String
  | [] => ""
  | v :: rest => ", " ++ describe v ++ describeMore rest
termination_by structural l => l

end

end RecordMapper.Value
