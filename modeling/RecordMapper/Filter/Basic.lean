import RecordMapper.Value.Basic

/-!
# Filters

The condition of a query is a binary tree of comparisons. A `Filter` starts
empty; the first condition pushed becomes the root, and every later one is
joined to the whole of what is there, so `a AND b OR c` stands as
`((a AND b) OR c)`. Nothing pushed later can reach into the tree that was built
before.
-/

namespace RecordMapper

inductive Connective where
  | and
  | or
deriving DecidableEq, Repr

def Connective.keyword : Connective → String
  | .and => "AND"
  | .or => "OR"

namespace Filter

inductive Node where
  /-- Tests a field; the operand is absent for operators such as `IS NULL`. -/
  | comparison (field operator : String) (operand : Option Value)
  | logical (op : Connective) (left right : Node)
deriving BEq, Inhabited

namespace Node

def unary (field operator : String) : Node := .comparison field operator none

def binary (field operator : String) (operand : Value) : Node :=
  .comparison field operator (some operand)

/-- A comparison written as a tuple; one on an empty field stands for no condition. -/
def ofTuple (field operator : String) (operand : Option Value) : Option Node :=
  if field.isEmpty then none else some (.comparison field operator operand)

/-- The first field compared with an infinity or not-a-number, and that number. -/
def nonFinite? : Node → Option (String × Float)
  | .comparison field _ operand =>
      match operand with
      | none => none
      | some v => v.nonFinite?.map fun x => (field, x)
  | .logical _ left right =>
      match left.nonFinite? with
      | some found => some found
      | none => right.nonFinite?

end Node

/-- A name that says which table it belongs to. -/
def isQualified (name : String) : Bool := name.toList.contains '.'

/-- A bare name, made to belong to `table`. -/
def qualifyName (table name : String) : String :=
  if isQualified name then name else table ++ "." ++ name

/-- Makes the bare fields of a tree belong to `table`. -/
def Node.qualify (table : String) : Node → Node
  | .comparison field operator operand =>
      .comparison (qualifyName table field) operator operand
  | .logical op left right => .logical op (left.qualify table) (right.qualify table)

end Filter

/-- A condition that may be absent. -/
structure Filter where
  root : Option Filter.Node
deriving BEq, Inhabited

namespace Filter

def empty : Filter := ⟨none⟩

instance : EmptyCollection Filter := ⟨empty⟩

def isEmpty (f : Filter) : Bool := f.root.isNone

def ofNode (node : Node) : Filter := ⟨some node⟩

/-- Joins a condition to the whole of the filter, or makes it the root. -/
def push (f : Filter) (op : Connective) (node : Node) : Filter :=
  match f.root with
  | none => ⟨some node⟩
  | some root => ⟨some (.logical op root node)⟩

/-- Pushes a condition if there is one. -/
def append (f : Filter) (op : Connective) : Option Node → Filter
  | none => f
  | some node => f.push op node

def qualify (f : Filter) (table : String) : Filter :=
  ⟨f.root.map (Node.qualify table)⟩

end Filter

end RecordMapper
