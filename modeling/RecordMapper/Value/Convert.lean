import RecordMapper.Decimal.Read
import RecordMapper.Value.Basic

/-!
# Typed views of values

A typed accessor reads a stored value as the type its column declares. Engines
often deliver numbers as text, so texts are parsed; a value that does not fit
reads as absent rather than as an error. `Column.read` is the view of one
declared column.
-/

namespace RecordMapper

namespace Value

/-- Integers as they are, and texts that spell one. -/
def toInt64? : Value → Option Int64
  | .int i => some i
  | .text s => Decimal.readInt64? s
  | _ => none

/-- As `toInt64?`, within 32 bits. -/
def toInt32? (v : Value) : Option Int64 :=
  v.toInt64?.filter fun i => Int32.minValue.toInt ≤ i.toInt && i.toInt ≤ Int32.maxValue.toInt

def toFloat? : Value → Option Float
  | .float x => some x
  | .int i => some (Float.ofInt i.toInt)
  | .text s => Decimal.readFloat? s
  | _ => none

/-- Truth values, and integers by whether they differ from zero. -/
def toBool? : Value → Option Bool
  | .bool b => some b
  | .int i => some (i != 0)
  | _ => none

/-- The key text of a scalar; neither null nor a list is a text. -/
def toText? : Value → Option String
  | .null => none
  | .list _ => none
  | v => some v.key

/-- A number stored in single precision is rounded to it first. -/
def ofSingle (x : Float) : Value := .float x.toFloat32.toFloat

/-- An absent value is null. -/
def ofOption : Option Value → Value
  | none => .null
  | some v => v

end Value

/-- The type that a column declares. -/
inductive ColumnType where
  | int64
  | int32
  | float
  | bool
  | text
  /-- Any value, as stored. -/
  | value
deriving DecidableEq, Repr

namespace ColumnType

/-- A stored value seen as this type. -/
def read : ColumnType → Value → Option Value
  | .int64, v => v.toInt64?.map .int
  | .int32, v => v.toInt32?.map .int
  | .float, v => v.toFloat?.map .float
  | .bool, v => v.toBool?.map .bool
  | .text, v => v.toText?.map .text
  | .value, v => some v

end ColumnType

end RecordMapper
