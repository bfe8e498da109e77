import RecordMapper.Decimal.Layout
import RecordMapper.Json.Basic

/-!
# Printing JSON

The compact text of a tree: no blanks, members in key order, and in strings only
the quotation mark, the backslash and the control characters below the blank are
escaped. A double always shows that it is one, by a fraction or an exponent; the
infinities and not-a-number have no JSON form and print as `null`.
-/

namespace RecordMapper.Json

/-- Doubles are written in full from `1e-5` up to `1e16`, otherwise with a signed
exponent. -/
def floatLayout : Decimal.Layout where
  tie := .toEven
  positional := some (-5, 15)
  keepsFraction := true
  plusSign := true

/-- A character as it stands inside a string. -/
def escapeChar (c : Char) : List Char :=
  if c = '"' then ['\\', '"']
  else if c = '\\' then ['\\', '\\']
  else if c = '\x08' then ['\\', 'b']
  else if c = '\x0c' then ['\\', 'f']
  else if c = '\n' then ['\\', 'n']
  else if c = '\r' then ['\\', 'r']
  else if c = '\t' then ['\\', 't']
  else if c.toNat < 0x20 then
    ['\\', 'u', '0', '0', Nat.digitChar (c.toNat / 16), Nat.digitChar (c.toNat % 16)]
  else [c]

def printString (s : String) : List Char :=
  '"' :: (s.toList.flatMap escapeChar ++ ['"'])

def printInt (i : Int) : List Char :=
  if i < 0 then '-' :: Nat.toDigits 10 i.natAbs else Nat.toDigits 10 i.natAbs

def printFloat (x : Float) : List Char :=
  if x.isFinite then (floatLayout.write x).toList else "null".toList

mutual

/-- The compact text of a tree, as characters. -/
def print : Json → List Char
  | .null => "null".toList
  | .bool true => "true".toList
  | .bool false => "false".toList
  | .int i => printInt i
  | .float x => printFloat x
  | .str s => printString s
  | .arr items => '[' :: printItems items
  | .obj members => '{' :: printMembers members
termination_by structural j => j

/-- The rest of an array at its first item, with the closing bracket. -/
def printItems : List Json → List Char
  | [] => [']']
  | x :: rest => print x ++ printMoreItems rest
termination_by structural l => l

/-- The rest of an array after an item. -/
def printMoreItems : List Json → List Char
  | [] => [']']
  | x :: rest => ',' :: (print x ++ printMoreItems rest)
termination_by structural l => l

/-- The rest of an object at its first member, with the closing brace. -/
def printMembers : List (String × Json) → List Char
  | [] => ['}']
  | (key, x) :: rest => printString key ++ ':' :: (print x ++ printMoreMembers rest)
termination_by structural l => l

/-- The rest of an object after a member. -/
def printMoreMembers : List (String × Json) → List Char
  | [] => ['}']
  | (key, x) :: rest => ',' :: (printString key ++ ':' :: (print x ++ printMoreMembers rest))
termination_by structural l => l

end

def render (j : Json) : String :=
  String.ofList (print j)

end RecordMapper.Json
