import RecordMapper.Text.Fold

/-!
# Reading numbers

Decimal text to integers and doubles. The notation is strict: an optional sign,
ASCII digits, and for doubles a point, an exponent and the names of infinity and
not-a-number. There is no room for blanks, separators or other bases. Magnitudes
too large for a double become infinite.
-/

namespace RecordMapper.Decimal

def isDigit (c : Char) : Bool := '0' ≤ c && c ≤ '9'

def digitValue (c : Char) : Nat := c.toNat - '0'.toNat

/-- The number that a run of digits spells. -/
def ofDigits (ds : List Char) : Nat :=
  ds.foldl (fun n c => 10 * n + digitValue c) 0

/-- A non-empty run of digits and nothing else. -/
def readNat? (cs : List Char) : Option Nat :=
  if cs.isEmpty || !cs.all isDigit then none else some (ofDigits cs)

/-- A sign and what follows it; true stands for minus. -/
def splitSign : List Char → Bool × List Char
  | '+' :: rest => (false, rest)
  | '-' :: rest => (true, rest)
  | cs => (false, cs)

/-- The integers that 64 signed bits hold. -/
def fitsInt64 (i : Int) : Bool := Int64.minValue.toInt ≤ i && i ≤ Int64.maxValue.toInt

/-- An optional sign and digits, within 64 signed bits. -/
def readInt64? (s : String) : Option Int64 :=
  let (negative, ds) := splitSign s.toList
  match readNat? ds with
  | none => none
  | some n =>
      let i : Int := if negative then -(n : Int) else n
      if fitsInt64 i then some (Int64.ofInt i) else none

/-- The natural numbers below `2 ^ 64` are those that 64 bits hold. -/
def wordLimit : Nat := 0x10000000000000000

/-- An optional plus and digits, within 64 unsigned bits. -/
def readWord? (s : String) : Option Nat :=
  let ds := match s.toList with
    | '+' :: rest => rest
    | cs => cs
  match readNat? ds with
  | none => none
  | some n => if n < wordLimit then some n else none

/-- The double nearest to `coefficient * 10 ^ exponent`; ties go to the even mantissa.
Far below the least double all is zero, and from `1e310` on all is infinite, so that no
exponent asks for a power beyond reach. -/
def nearest (coefficient : Nat) (exponent : Int) : Float :=
  if coefficient = 0 ∨ exponent + (coefficient.log2 / 3 : Nat) < -330 then 0.0
  else match exponent with
    | .ofNat e => Float.ofScientific coefficient false (min e 310)
    | .negSucc e => Float.ofScientific coefficient true (e + 1)

/-- The exponent that follows a coefficient: nothing, or a letter e with an integer. -/
def readExponent? : List Char → Option Int
  | [] => some 0
  | c :: rest =>
      if c = 'e' ∨ c = 'E' then
        let (negative, ds) := splitSign rest
        (readNat? ds).map fun n => if negative then -(n : Int) else n
      else none

/-- Digits with an optional point and exponent; there is a digit beside the point. -/
def readMagnitude? (cs : List Char) : Option Float :=
  let whole := cs.takeWhile isDigit
  let rest := cs.dropWhile isDigit
  let (fraction, tail) := match rest with
    | '.' :: after => (after.takeWhile isDigit, after.dropWhile isDigit)
    | _ => ([], rest)
  if whole.isEmpty && fraction.isEmpty then none
  else (readExponent? tail).map fun e =>
    nearest (ofDigits (whole ++ fraction)) (e - fraction.length)

/-- The names of infinity and of not-a-number are read in either case. -/
def readFloat? (s : String) : Option Float :=
  let (negative, cs) := splitSign s.toList
  let magnitude := match String.ofList (cs.map Text.foldChar) with
    | "inf" | "infinity" => some (1.0 / 0.0)
    | "nan" => some (0.0 / 0.0)
    | _ => readMagnitude? cs
  magnitude.map fun x => if negative then -x else x

end RecordMapper.Decimal
