import RecordMapper.Error
import RecordMapper.Filter.Basic
import RecordMapper.Ordered
import RecordMapper.Value.Description

/-!
# Record types as the database sees them

A `Descriptor` names the table of a record type, its primary key and its
columns. A `Model` is a descriptor with its chain of ancestors: each ancestor's
table is joined to the table of the type right before it in the chain.
-/

namespace RecordMapper

/-- The stored columns of a record, in order. -/
abbrev Fields := OrderedMap Value

structure Descriptor where
  name : String
  table : String
  primaryKey : List String
  /-- The declared columns, selected when the type is joined as an ancestor. -/
  columns : List String
deriving DecidableEq, Repr

/-- A type inherited from: its table is joined on its `localKey` and the
`foreignKey` of the inheriting type's table. -/
structure Ancestor extends Descriptor where
  localKey : String
  foreignKey : String
deriving DecidableEq, Repr

structure Model extends Descriptor where
  /-- The types inherited from, nearest first. -/
  ancestors : List Ancestor
deriving DecidableEq, Repr

namespace Descriptor

/-- A table and a primary key of named columns are required. -/
def validate (d : Descriptor) : Except Error Unit :=
  if d.table.isEmpty then .error (.missingTable d.name)
  else if d.primaryKey.isEmpty || d.primaryKey.any String.isEmpty then
    .error (.missingKey d.name)
  else .ok ()

/-- Joins equality tests on further key columns to `node`. -/
def joinKeys (node : Filter.Node) (pairs : List (String × Value)) : Filter.Node :=
  pairs.foldl (fun n p => .logical .and n (.binary p.1 "=" p.2)) node

/-- The filter that finds the row with this identifier. A composite key takes a list
with a value for each of its columns. -/
def keyFilter (d : Descriptor) (id : Value) : Except Error Filter.Node := do
  d.validate
  match d.primaryKey, id with
  | [key], id => .ok (.binary key "=" id)
  | key :: keys, .list (v :: vs) =>
      if vs.length = keys.length then .ok (joinKeys (.binary key "=" v) (keys.zip vs))
      else .error (.keyMismatch d.name d.primaryKey.length id.describe)
  | _, id => .error (.keyMismatch d.name d.primaryKey.length id.describe)

/-- The values of the key columns, if all are stored and none is null. -/
def keyValues? (d : Descriptor) (fields : Fields) : Option (List Value) :=
  d.primaryKey.mapM fun key => (fields.get? key).filter fun v => !v.isNull

/-- The identifier of a record: its key value, or the list of them. -/
def id? (d : Descriptor) (fields : Fields) : Option Value :=
  (d.keyValues? fields).map fun
    | [v] => v
    | vs => .list vs

end Descriptor

end RecordMapper
