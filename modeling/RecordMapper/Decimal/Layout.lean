import RecordMapper.Decimal.Shortest

/-!
# How the digits of a number are written

A `Layout` records the decisions of one output format: which magnitudes are
written out in full, whether a whole number keeps its `.0`, whether a positive
exponent carries a sign, and how a tie between two shortest decimals is settled.
`Layout.write` applies them to a double.
-/

namespace RecordMapper.Decimal

structure Layout where
  tie : Tie
  /-- The decimal exponents written positionally, ends included; none means all. -/
  positional : Option (Int × Int)
  /-- A whole number in positional form ends in `.0`. -/
  keepsFraction : Bool
  /-- A positive exponent is written with its sign. -/
  plusSign : Bool
deriving DecidableEq, Repr

namespace Layout

def isPositional (l : Layout) (exponent : Int) : Bool :=
  match l.positional with
  | none => true
  | some (low, high) => low ≤ exponent && exponent ≤ high

/-- The digits with the point after the first `point` of them, padded with zeros where
the point falls outside. -/
def writePositional (l : Layout) (ds : List Char) (point : Int) : List Char :=
  if point ≤ 0 then
    '0' :: '.' :: (List.replicate (-point).toNat '0' ++ ds)
  else if ds.length ≤ point.toNat then
    ds ++ List.replicate (point.toNat - ds.length) '0'
      ++ (if l.keepsFraction then ['.', '0'] else [])
  else
    ds.take point.toNat ++ '.' :: ds.drop point.toNat

/-- One digit, the rest behind a point, and the exponent. -/
def writeExponent (l : Layout) (ds : List Char) (exponent : Int) : List Char :=
  let fraction := match ds.tail with
    | [] => []
    | rest => '.' :: rest
  let sign := if exponent < 0 then ['-'] else if l.plusSign then ['+'] else []
  ds.take 1 ++ fraction ++ 'e' :: (sign ++ Nat.toDigits 10 exponent.natAbs)

/-- Moves trailing zeros of the coefficient into the exponent. -/
def dropZeros (d : Digits) : List Char × Int :=
  let ds := Nat.toDigits 10 d.coefficient
  let kept := (ds.reverse.dropWhile (· == '0')).reverse
  if kept.isEmpty then (['0'], 0) else (kept, d.exponent + (ds.length - kept.length : Nat))

/-- A finite magnitude. -/
def writeMagnitude (l : Layout) (x : Binary) : List Char :=
  let (ds, exponent) := dropZeros (x.shortest l.tie)
  let point := exponent + ds.length
  if l.isPositional (point - 1) then l.writePositional ds point
  else l.writeExponent ds (point - 1)

/-- The sign of zero is written; not-a-number has none. -/
def write (l : Layout) (x : Float) : String :=
  if x.isNaN then "NaN"
  else
    let sign := if x.toBits.toNat < 0x8000000000000000 then [] else ['-']
    let magnitude := if x.isInf then "inf".toList else l.writeMagnitude (Binary.ofBits x.toBits)
    String.ofList (sign ++ magnitude)

end Layout

end RecordMapper.Decimal
