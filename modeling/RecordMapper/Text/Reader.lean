/-!
# Readers

A reader takes the text at hand and returns what it read together with the text
that is left, or refuses. The readers of JSON and of settings files are put
together from these.
-/

namespace RecordMapper.Text

abbrev Reader (α : Type) := List Char → Option (α × List Char)

/-- The text after `word`, if it starts with it. -/
def dropWord? : List Char → List Char → Option (List Char)
  | [], cs => some cs
  | _ :: _, [] => none
  | w :: ws, c :: cs => if w = c then dropWord? ws cs else none

/-- The value of a hexadecimal digit of either case. -/
def hexValue? (c : Char) : Option Nat :=
  if '0' ≤ c ∧ c ≤ '9' then some (c.toNat - '0'.toNat)
  else if 'a' ≤ c ∧ c ≤ 'f' then some (c.toNat - 'a'.toNat + 10)
  else if 'A' ≤ c ∧ c ≤ 'F' then some (c.toNat - 'A'.toNat + 10)
  else none

/-- Exactly `count` hexadecimal digits, continuing a number. -/
def hexDigits (acc : Nat) : Nat → Reader Nat
  | 0, cs => some (acc, cs)
  | _ + 1, [] => none
  | count + 1, c :: cs =>
      match hexValue? c with
      | some d => hexDigits (acc * 16 + d) count cs
      | none => none

end RecordMapper.Text
