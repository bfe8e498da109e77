/-!
# The fewest digits that identify a number

A finite binary number stands for an interval of reals: all that round to it.
`Binary.shortest` finds the decimal with the fewest digits inside that interval,
and of two such decimals the one nearer to the number itself. Everything is
exact arithmetic on naturals; how the digits are then written is the matter of
`Decimal.Layout`.
-/

namespace RecordMapper.Decimal

/-- A finite non-negative number `mantissa * 2 ^ exponent`. -/
structure Binary where
  mantissa : Nat
  exponent : Int
  /-- The number below lies half as far away as the number above. -/
  narrowBelow : Bool
deriving DecidableEq, Repr

/-- The first mantissa of full width: doubles have 53 binary digits. -/
def fullMantissa : Nat := 0x10000000000000

/-- The magnitude of a finite double with these bits. -/
def Binary.ofBits (bits : UInt64) : Binary :=
  let field : Nat := bits.toNat / fullMantissa % 0x800
  let fraction : Nat := bits.toNat % fullMantissa
  if field = 0 then ⟨fraction, -1074, false⟩
  else ⟨fullMantissa + fraction, (field : Int) - 1075, fraction == 0 && 1 < field⟩

/-- A decimal `coefficient * 10 ^ exponent`. -/
structure Digits where
  coefficient : Nat
  exponent : Int
deriving DecidableEq, Repr

/-- Which of two equally short and equally near decimals is taken. -/
inductive Tie where
  | toEven
  | away
deriving DecidableEq, Repr

/-- The power of `base`, and one where the exponent is negative. -/
def power (base : Nat) (exponent : Int) : Nat := Nat.pow base exponent.toNat

/-- Compares `a * 10 ^ i` with `n * 2 ^ j`. -/
def compareScaled (a : Nat) (i : Int) (n : Nat) (j : Int) : Ordering :=
  compare (a * power 10 i * power 2 (-j)) (n * power 2 j * power 10 (-i))

namespace Binary

/-- `d` lies among the reals that round to `x`. The ends are halfway to the
neighbours and belong to `x` when its mantissa is even. -/
def readsBack (x : Binary) (d : Digits) : Bool :=
  let low := if x.narrowBelow then 4 * x.mantissa - 1 else 4 * x.mantissa - 2
  let high := 4 * x.mantissa + 2
  let closed := x.mantissa % 2 == 0
  let atLow := compareScaled d.coefficient d.exponent low (x.exponent - 2)
  let atHigh := compareScaled d.coefficient d.exponent high (x.exponent - 2)
  (atLow == .gt || (closed && atLow == .eq)) && (atHigh == .lt || (closed && atHigh == .eq))

/-- The largest multiple of `10 ^ grid` not above `x`, in units of the grid. -/
def floorOn (x : Binary) (grid : Int) : Nat :=
  x.mantissa * power 2 x.exponent * power 10 (-grid)
    / (power 2 (-x.exponent) * power 10 grid)

/-- The upper of the two grid neighbours is the one to take. -/
def prefersUpper (x : Binary) (tie : Tie) (lower : Nat) (grid : Int) : Bool :=
  match compareScaled (2 * lower + 1) grid (2 * x.mantissa) x.exponent with
  | .lt => true
  | .gt => false
  | .eq => match tie with
    | .away => true
    | .toEven => lower % 2 == 1

/-- The decimal on this grid that identifies `x`, if there is one. -/
def onGrid? (x : Binary) (tie : Tie) (grid : Int) : Option Digits :=
  let lower := x.floorOn grid
  match x.readsBack ⟨lower, grid⟩, x.readsBack ⟨lower + 1, grid⟩ with
  | true, true => some ⟨if x.prefersUpper tie lower grid then lower + 1 else lower, grid⟩
  | true, false => some ⟨lower, grid⟩
  | false, true => some ⟨lower + 1, grid⟩
  | false, false => none

/-- The least `k` with `x < 10 ^ k`, for `x` above zero: estimated from the binary
logarithm and then corrected. -/
def scale (x : Binary) : Int :=
  let estimate := ((x.mantissa.log2 : Int) + x.exponent) * 30103 / 100000 - 1
  let above := fun (k : Int) => compareScaled 1 k x.mantissa x.exponent == .gt
  match [estimate, estimate + 1, estimate + 2].find? above with
  | some k => k
  | none => estimate + 3

/-- Zero has the single digit 0. Seventeen digits always suffice; should none of the
seventeen grids hold a decimal, the exact value answers. -/
def shortest (x : Binary) (tie : Tie) : Digits :=
  if x.mantissa = 0 then ⟨0, 0⟩
  else
    let k := x.scale
    match (List.range 17).findSome? fun (n : Nat) => x.onGrid? tie (k - 1 - (n : Int)) with
    | some d => d
    | none => ⟨x.mantissa * power 2 x.exponent * power 5 (-x.exponent), min x.exponent 0⟩

end Binary

end RecordMapper.Decimal
