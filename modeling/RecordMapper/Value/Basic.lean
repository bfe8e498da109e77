import RecordMapper.Decimal.Read
import RecordMapper.Json.Printer

/-!
# Column values

A `Value` is what a column holds and what a filter compares with: nothing, a
truth value, a 64-bit integer, a double, a text, or a list of values. Values map
onto JSON without tags: every JSON tree free of objects is a value, and every
value has a JSON tree. The one loss is that the infinities and not-a-number
become `null`.
-/

namespace RecordMapper

inductive Value where
  | null
  | bool (b : Bool)
  | int (i : Int64)
  | float (x : Float)
  | text (s : String)
  /-- An array operand, for tests of membership. -/
  | list (items : List Value)
deriving BEq, Inhabited

namespace Value

def isNull : Value → Bool
  | .null => true
  | _ => false

def asText? : Value → Option String
  | .text s => some s
  | _ => none

def asInt? : Value → Option Int64
  | .int i => some i
  | _ => none

/-! ## JSON -/

mutual

def toJson : Value → Json
  | .null => .null
  | .bool b => .bool b
  | .int i => .int i.toInt
  | .float x => if x.isFinite then .float x else .null
  | .text s => .str s
  | .list items => .arr (toJsonAll items)
termination_by structural v => v

def toJsonAll : List Value → List Json
  | [] => []
  | v :: rest => toJson v :: toJsonAll rest
termination_by structural l => l

end

/-- An integer keeps its type when 64 signed bits hold it. -/
def ofJsonInt (i : Int) : Value :=
  if Decimal.fitsInt64 i then .int (Int64.ofInt i) else .float (Float.ofInt i)

mutual

/-- The value of a tree; objects have none. -/
def ofJson? : Json → Option Value
  | .null => some .null
  | .bool b => some (.bool b)
  | .int i => some (ofJsonInt i)
  | .float x => some (.float x)
  | .str s => some (.text s)
  | .arr items => (ofJsonAll? items).map .list
  | .obj _ => none
termination_by structural j => j

def ofJsonAll? : List Json → Option (List Value)
  | [] => some []
  | j :: rest =>
      match ofJson? j, ofJsonAll? rest with
      | some v, some vs => some (v :: vs)
      | _, _ => none
termination_by structural l => l

end

/-! ## Keys -/

/-- In keys a double is written in full, and a whole one without a fraction. -/
def keyLayout : Decimal.Layout where
  tie := .away
  positional := none
  keepsFraction := false
  plusSign := false

/-- The text that identifies a value in keyed results. Scalars are plain text; lists
are JSON arrays, whose quotes keep the parts apart. -/
def key : Value → String
  | .null => ""
  | .bool b => if b then "true" else "false"
  | .int i => String.ofList (Json.printInt i.toInt)
  | .float x => keyLayout.write x
  | .text s => s
  | .list items => (Json.arr (toJsonAll items)).render

mutual

/-- The first infinity or not-a-number, also inside lists. -/
def nonFinite? : Value → Option Float
  | .float x => if x.isFinite then none else some x
  | .list items => nonFiniteAmong? items
  | _ => none
termination_by structural v => v

def nonFiniteAmong? : List Value → Option Float
  | [] => none
  | v :: rest =>
      match nonFinite? v with
      | some x => some x
      | none => nonFiniteAmong? rest
termination_by structural l => l

end

end Value

end RecordMapper
