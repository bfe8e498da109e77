import RecordMapper.Error
import RecordMapper.Filter.Basic
import RecordMapper.Json.Parser
import RecordMapper.Text.Base64
import RecordMapper.Text.Blank
import RecordMapper.Text.Fold

/-!
# Filters in transport

A filter travels as JSON in base64. A comparison is an object whose only key is
its operator and whose value is the array of field and operand; a group is an
object whose only key is `AND` or `OR`. Groups may list any number of operands
and are then folded to the left, which is how pushing the operands one by one
would have nested them. What arrives is not trusted: only the operators listed
here are taken, in their own spelling whatever the sender's.
-/

namespace RecordMapper.Filter

/-- The operators that transport accepts, in the spelling that queries use. -/
def operators : List String :=
  ["=", "!=", "<>", "<", "<=", ">", ">=", "LIKE", "NOT LIKE", "IN", "NOT IN",
    "IS NULL", "IS NOT NULL"]

/-- The operator that a key names, blanks around it and letter case aside. -/
def operator? (key : String) : Option String :=
  operators.find? fun op => Text.sameWord op (Text.trim key)

/-- Groups are named exactly. -/
def connective? (key : String) : Option Connective :=
  if key = "AND" then some .and else if key = "OR" then some .or else none

namespace Node

/-! ## To JSON -/

def toJson : Node → Json
  | .comparison field operator operand =>
      .obj [(operator, .arr (.str field :: (operand.map Value.toJson).toList))]
  | .logical op left right => .obj [(op.keyword, .arr [left.toJson, right.toJson])]

/-! ## From JSON -/

/-- A comparison out of its key and operands; operands after the second are not read. -/
def ofOperands (key : String) (operands : List Json) : Except Error Node :=
  match operator? key with
  | none => .error (.unknownOperator key)
  | some operator =>
      match operands with
      | .str field :: rest =>
          match rest with
          | [] => .ok (.unary field operator)
          | j :: _ =>
              match Value.ofJson? j with
              | some v => .ok (.binary field operator v)
              | none => .error (.unsupportedOperand field j.render)
      | _ => .error (.noFieldName key)

mutual

def ofJson : Json → Except Error Node
  | .obj [(key, .arr operands)] =>
      match connective? key with
      | some op => ofGroup op key operands
      | none => ofOperands key operands
  | .obj [(key, _)] => .error (.operandsNotArray key)
  | .obj members => .error (.notOneOperator members.length)
  | j => .error (.notAFilter j.render)
termination_by structural j => j

/-- The operands of a group. -/
def ofGroup (op : Connective) (key : String) : List Json → Except Error Node
  | [] => .error (.emptyGroup key)
  | j :: rest =>
      match ofJson j with
      | .error e => .error e
      | .ok first => ofMore op first rest
termination_by structural l => l

/-- Joins further operands to the group read so far; the first that cannot be read
decides the error. -/
def ofMore (op : Connective) (left : Node) : List Json → Except Error Node
  | [] => .ok left
  | j :: rest =>
      match ofJson j with
      | .error e => .error e
      | .ok right => ofMore op (.logical op left right) rest
termination_by structural l => l

end

end Node

/-! ## Whole filters -/

/-- The nested JSON of a filter; an empty one is an empty object. -/
def toJson (f : Filter) : Json :=
  match f.root with
  | some root => root.toJson
  | none => .obj []

/-- The text that carries a filter across a request. Numbers that JSON cannot carry
are refused. -/
def encode (f : Filter) : Except Error String :=
  match f.root.bind Node.nonFinite? with
  | some (field, x) => .error (.notFinite field (Value.keyLayout.write x))
  | none => .ok (Text.Base64.encodeText f.toJson.render)

/-- The filter of a JSON tree; `null` and empty containers stand for no condition. -/
def ofJson (j : Json) : Except Error Filter :=
  match j with
  | .null | .arr [] | .obj [] => .ok ∅
  | j => (Node.ofJson j).map ofNode

/-- Reads what `encode` writes. -/
def decode (text : String) : Except Error Filter :=
  match Text.Base64.decode? (Text.trim text).toList with
  | none => .error .notEncoded
  | some bytes =>
      match (Text.Base64.textOf? bytes).bind fun s => Json.parse? s.toList with
      | none => .error .notJson
      | some j => ofJson j

end RecordMapper.Filter
