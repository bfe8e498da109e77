import RecordMapper.Filter.Basic

/-!
# What a filter tree shows

The fields and operators of a tree from left to right, and what becomes of them
when the fields are made to belong to a table.
-/

namespace RecordMapper.Filter

namespace Node

def fields : Node → List String
  | .comparison field _ _ => [field]
  | .logical _ left right => left.fields ++ right.fields

def operators : Node → List String
  | .comparison _ operator _ => [operator]
  | .logical _ left right => left.operators ++ right.operators

/-- The tree without the values of its operands; that there is one still shows. -/
def blank : Node → Node
  | .comparison field operator operand => .comparison field operator (operand.map fun _ => .null)
  | .logical op left right => .logical op left.blank right.blank

@[simp] theorem operators_qualify (table : String) (node : Node) :
    (node.qualify table).operators = node.operators := by
  induction node with
  | comparison field operator operand => rfl
  | logical op left right ihl ihr => rw [qualify, operators, ihl, ihr, operators]

@[simp] theorem fields_qualify (table : String) (node : Node) :
    (node.qualify table).fields = node.fields.map (qualifyName table) := by
  induction node with
  | comparison field operator operand => rfl
  | logical op left right ihl ihr => rw [qualify, fields, ihl, ihr, fields, List.map_append]

theorem blank_qualify (table : String) (node : Node) :
    (node.qualify table).blank = node.blank.qualify table := by
  induction node with
  | comparison field operator operand => rfl
  | logical op left right ihl ihr => rw [qualify, blank, ihl, ihr, blank, qualify]

end Node

def fields (f : Filter) : List String := f.root.elim [] Node.fields

def operatorTexts (f : Filter) : List String := f.root.elim [] Node.operators

@[simp] theorem operatorTexts_qualify (f : Filter) (table : String) :
    (f.qualify table).operatorTexts = f.operatorTexts := by
  obtain ⟨root⟩ := f
  cases root with
  | none => rfl
  | some node => exact node.operators_qualify table

/-- What the leaves of a tree show, they show of one tree and then of the one joined to it. -/
theorem elim_root_push {α : Type} {shown : Node → List α}
    (h : ∀ op left right, shown (.logical op left right) = shown left ++ shown right)
    (f : Filter) (op : Connective) (node : Node) :
    (f.push op node).root.elim [] shown = f.root.elim [] shown ++ shown node := by
  obtain ⟨root⟩ := f
  cases root with
  | none => rfl
  | some root => exact h op root node

/-- Conditions pushed behind a root are joined to it one after the other. -/
theorem root_foldl_push (op : Connective) : ∀ (nodes : List Node) (root : Node),
    (nodes.foldl (fun f node => f.push op node) (ofNode root)).root
      = some (nodes.foldl (.logical op) root)
  | [], _ => rfl
  | node :: rest, root => root_foldl_push op rest (.logical op root node)

theorem fields_append (f : Filter) (op : Connective) (node : Option Node) :
    (f.append op node).fields = f.fields ++ node.elim [] Node.fields := by
  cases node with
  | none => exact (List.append_nil _).symm
  | some node => exact elim_root_push (fun _ _ _ => rfl) f op node

end RecordMapper.Filter
