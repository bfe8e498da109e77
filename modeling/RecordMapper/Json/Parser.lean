import RecordMapper.Json.Number

/-!
# Reading JSON

A strict reader: one value, blanks around it, and nothing else. Lone halves of
surrogate pairs and raw control characters in strings are refused, and so are
containers nested more than 127 deep.

The nesting allowance is the recursion argument of `value`; within one container
the items are bounded by the characters that are left.
-/

namespace RecordMapper.Json.Parser

open Text

def isBlank (c : Char) : Bool :=
  c == ' ' || c == '\t' || c == '\n' || c == '\r'

def skipBlanks (cs : List Char) : List Char := cs.dropWhile isBlank

/-! ## Strings -/

/-- The character that `\u` and its digits stand for; a high surrogate needs its low
half right behind it. -/
def unicodeEscape : Reader Char := fun cs => do
  let (high, rest) ← hexDigits 0 4 cs
  if high < 0xD800 ∨ 0xE000 ≤ high then
    some (Char.ofNat high, rest)
  else if high < 0xDC00 then
    match rest with
    | '\\' :: 'u' :: rest => do
        let (low, rest) ← hexDigits 0 4 rest
        if 0xDC00 ≤ low ∧ low < 0xE000 then
          some (Char.ofNat (0x10000 + (high - 0xD800) * 0x400 + (low - 0xDC00)), rest)
        else none
    | _ => none
  else none

/-- What follows a backslash. -/
def escape : Reader Char
  | [] => none
  | c :: rest =>
      if c = '"' ∨ c = '\\' ∨ c = '/' then some (c, rest)
      else if c = 'b' then some ('\x08', rest)
      else if c = 'f' then some ('\x0c', rest)
      else if c = 'n' then some ('\n', rest)
      else if c = 'r' then some ('\r', rest)
      else if c = 't' then some ('\t', rest)
      else if c = 'u' then unicodeEscape rest
      else none

/-- The rest of a string behind its opening quotation mark. The first argument bounds
the number of characters. -/
def stringBody : Nat → Reader (List Char)
  | 0, _ => none
  | _ + 1, [] => none
  | n + 1, c :: rest =>
      if c = '"' then some ([], rest)
      else if c = '\\' then do
        let (x, rest) ← escape rest
        let (xs, rest) ← stringBody n rest
        some (x :: xs, rest)
      else if c.toNat < 0x20 then none
      else do
        let (xs, rest) ← stringBody n rest
        some (c :: xs, rest)

/-- A string behind its opening quotation mark. -/
def string : Reader String := fun cs => do
  let (xs, rest) ← stringBody cs.length cs
  some (String.ofList xs, rest)

/-! ## Values -/

/-- A value that is no container, with no blanks before it. -/
def scalar : Reader Json
  | [] => none
  | c :: rest =>
      if c = '"' then (string rest).map fun (s, rest) => (.str s, rest)
      else if c = 'n' then (dropWord? "ull".toList rest).map fun rest => (.null, rest)
      else if c = 't' then (dropWord? "rue".toList rest).map fun rest => (.bool true, rest)
      else if c = 'f' then (dropWord? "alse".toList rest).map fun rest => (.bool false, rest)
      else Number.read (c :: rest)

/-- Items with commas between them, up to the closing character. There is at least one
item; the first argument bounds their number. -/
def separated {α : Type} (item : Reader α) (close : Char) : Nat → Reader (List α)
  | 0, _ => none
  | n + 1, cs => do
      let (x, rest) ← item cs
      match skipBlanks rest with
      | [] => none
      | c :: rest =>
          if c = close then some ([x], rest)
          else if c = ',' then do
            let (xs, rest) ← separated item close n rest
            some (x :: xs, rest)
          else none

/-- What stands between the brackets of a container, which may be nothing. -/
def contents {α : Type} (item : Reader α) (close : Char) : Reader (List α) := fun cs =>
  match skipBlanks cs with
  | [] => none
  | c :: rest => if c = close then some ([], rest) else separated item close cs.length cs

/-- A key, a colon and a value. -/
def member (value : Reader Json) : Reader (String × Json) := fun cs =>
  match skipBlanks cs with
  | '"' :: rest => do
      let (key, rest) ← string rest
      match skipBlanks rest with
      | ':' :: rest => do
          let (x, rest) ← value rest
          some ((key, x), rest)
      | _ => none
  | _ => none

/-- A value with blanks before it and at most `depth` containers one in the other. -/
def value : Nat → Reader Json
  | 0, cs => scalar (skipBlanks cs)
  | depth + 1, cs =>
      match skipBlanks cs with
      | '[' :: rest => (contents (value depth) ']' rest).map
          fun (items, rest) => (.arr items, rest)
      | '{' :: rest => (contents (member (value depth)) '}' rest).map
          fun (members, rest) => (Json.object members, rest)
      | cs => scalar cs

/-- How many containers may enclose one another. -/
def maxNesting : Nat := 127

end Parser

/-- The tree that a text spells. -/
def parse? (cs : List Char) : Option Json :=
  match Parser.value Parser.maxNesting cs with
  | some (j, rest) => if (Parser.skipBlanks rest).isEmpty then some j else none
  | none => none

end RecordMapper.Json
