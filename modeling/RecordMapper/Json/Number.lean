import RecordMapper.Decimal.Read
import RecordMapper.Json.Basic
import RecordMapper.Text.Reader

/-!
# Numbers of JSON

A number without fraction and exponent is an integer when it fits 64 bits,
signed or unsigned, and a double otherwise; minus zero is a double. Leading
zeros are refused, and so are numbers beyond the range of a double.

A double is found in two steps. Its digits are gathered into one word of 64 bits
for as long as they fit, and the word, rounded to a double, is then multiplied
or divided by a power of ten. Both steps round, so the outcome may be a
neighbour of the nearest double.
-/

namespace RecordMapper.Json.Number

open Text

/-! ## Parts of a number -/

/-- A non-empty run of digits. -/
def digits : Reader (List Char) := fun cs =>
  let ds := cs.takeWhile Decimal.isDigit
  if ds.isEmpty then none else some (ds, cs.dropWhile Decimal.isDigit)

/-- A run of digits that does not start with a needless zero. -/
def wholePart : Reader (List Char) := fun cs => do
  let (ds, rest) ← digits cs
  if ds.head? = some '0' ∧ ds.length ≠ 1 then none else some (ds, rest)

/-- The digits behind a point; none without a point. -/
def fractionPart : Reader (Option (List Char))
  | '.' :: rest => do
      let (ds, rest) ← digits rest
      some (some ds, rest)
  | cs => some (none, cs)

/-- The exponent behind a letter e; none without one. -/
def exponentPart : Reader (Option Int)
  | [] => some (none, [])
  | c :: rest =>
      if c = 'e' ∨ c = 'E' then do
        let (negative, rest) := Decimal.splitSign rest
        let (ds, rest) ← digits rest
        let n : Int := Decimal.ofDigits ds
        some (some (if negative then -n else n), rest)
      else some (none, c :: rest)

/-! ## Values of numbers -/

/-- Continues a word of 64 bits by digits; returns it with the digits from the first one
on that would not fit. -/
def gather (word : Nat) : List Char → Nat × List Char
  | [] => (word, [])
  | d :: ds =>
      let next := 10 * word + Decimal.digitValue d
      if next < Decimal.wordLimit then gather next ds else (word, d :: ds)

/-- The largest power of ten within the range of a double. -/
def largestPower : Nat := 308

/-- A word times a power of ten, rounded at each step. Smaller exponents than twice the
least power need a third step, and leave nothing of any word. -/
def scaled? (word : Nat) (exponent : Int) : Option Float :=
  let x := Decimal.nearest word 0
  if word = 0 then some 0.0
  else match exponent with
    | .ofNat e =>
        let y := x * Decimal.nearest 1 e
        if largestPower < e ∨ y.isInf then none else some y
    | .negSucc e =>
        if e < largestPower then some (x / Decimal.nearest 1 (e + 1))
        else if e < 2 * largestPower then
          some (x / Decimal.nearest 1 largestPower / Decimal.nearest 1 (e + 1 - largestPower))
        else some 0.0

/-- The double that the parts of a number make, unless it is beyond range. A digit of the
whole part that does not fit the word counts as a power of ten; one of the fraction does
not count. -/
def float? (whole fraction : List Char) (exponent : Int) : Option Float :=
  let (word, surplus) := gather 0 whole
  let (word, unused) := gather word fraction
  scaled? word (exponent + surplus.length + unused.length - fraction.length)

/-- What digits without fraction and exponent make, if it is an integer. -/
def integer? (negative : Bool) (whole : List Char) : Option Int :=
  let n : Int := Decimal.ofDigits whole
  if negative then (if n ≠ 0 ∧ Decimal.fitsInt64 (-n) then some (-n) else none)
  else if n < Decimal.wordLimit then some n
  else none

/-- A number behind its sign. -/
def magnitude (negative : Bool) : Reader Json := fun cs => do
  let (whole, rest) ← wholePart cs
  let (fraction, rest) ← fractionPart rest
  let (exponent, rest) ← exponentPart rest
  let asInteger := if fraction.isNone && exponent.isNone then integer? negative whole else none
  match asInteger with
  | some i => some (.int i, rest)
  | none => do
      let x ← float? whole (fraction.getD []) (exponent.getD 0)
      some (.float (if negative then -x else x), rest)

/-- A number with its sign. -/
def read : Reader Json
  | '-' :: rest => magnitude true rest
  | cs => magnitude false cs

end RecordMapper.Json.Number
