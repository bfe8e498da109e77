import RecordMapper.Engine
import RecordMapper.Query.Select

/-!
# Records

What the library needs to know of a program's records: which type they have,
what they store, which relations they declare, and how a relation is resolved.
Records of all types of a program share one carrier `ρ`, so that a relation may
lead from any type to any other and back.
-/

namespace RecordMapper

/-- What can be read off a record alone. -/
class Entity (ρ : Type) where
  model : ρ → Model
  fields : ρ → Fields
  /-- The relations expanded when the record is hydrated, in order. -/
  relations : ρ → List String := fun _ => []
  /-- A short form that stands for the record wherever a relation leads to it. -/
  reference : ρ → Option Json := fun _ => none

/-- What a relation leads to. -/
inductive Relation (ρ : Type) where
  | absent
  | scalar (v : Value)
  | one (r : ρ)
  | many (rs : List ρ)
  | list (items : List (Relation ρ))
  /-- A query that runs only when the relation is hydrated. -/
  | deferred (q : Select)

/-- The record if there is one. -/
def Relation.optional {ρ : Type} : Option ρ → Relation ρ
  | none => .absent
  | some r => .one r

/-- How the records of a program come out of a database: the relations they resolve,
and the records that rows of a model are loaded as. -/
structure Schema (σ ρ : Type) where
  /-- A name that is no relation of the record resolves to `absent`. -/
  resolve : ρ → String → Session σ (Relation ρ)
  load : Model → Fields → Except Error ρ

namespace Entity

variable {ρ : Type} [Entity ρ]

/-- The name of the record's type. -/
def typeName (r : ρ) : String := (model r).name

def get? (r : ρ) (field : String) : Option Value := (fields r).get? field

/-- The primary key value, a list for composite keys; none if a part is missing or null. -/
def id? (r : ρ) : Option Value := (model r).id? (fields r)

end Entity

end RecordMapper
