import RecordMapper.Filter.Basic

/-!
# What a filter tree says of a row

Of a row, each comparison is true, false or, where NULL is involved, unknown, and
a row is selected only if its condition is true. A tree is evaluated here under
any assignment of truth values to its comparisons; the assignments without
`unknown` are those of plain two-valued logic (`eval_ofBool`).
-/

namespace RecordMapper

inductive Truth where
  | holds
  | fails
  | unknown
deriving DecidableEq, Repr

namespace Truth

def and : Truth → Truth → Truth
  | .holds, b => b
  | .fails, _ => .fails
  | .unknown, .fails => .fails
  | .unknown, _ => .unknown

def or : Truth → Truth → Truth
  | .holds, _ => .holds
  | .fails, b => b
  | .unknown, .holds => .holds
  | .unknown, _ => .unknown

def ofBool : Bool → Truth
  | true => .holds
  | false => .fails

@[simp] theorem and_eq_holds_iff {a b : Truth} : a.and b = .holds ↔ a = .holds ∧ b = .holds := by
  cases a <;> cases b <;> simp [and]

@[simp] theorem ofBool_eq_holds_iff {b : Bool} : ofBool b = .holds ↔ b = true := by
  cases b <;> simp [ofBool]

theorem ofBool_and (a b : Bool) : ofBool (a && b) = (ofBool a).and (ofBool b) := by
  cases a <;> rfl

theorem ofBool_or (a b : Bool) : ofBool (a || b) = (ofBool a).or (ofBool b) := by
  cases a <;> rfl

end Truth

def Connective.eval : Connective → Truth → Truth → Truth
  | .and => Truth.and
  | .or => Truth.or

namespace Filter.Node

/-- The truth of a tree, given that of its comparisons. -/
def eval (truth : String → String → Option Value → Truth) : Node → Truth
  | .comparison field operator operand => truth field operator operand
  | .logical op left right => op.eval (left.eval truth) (right.eval truth)

/-- The same where every comparison is true or false. -/
def test (truth : String → String → Option Value → Bool) : Node → Bool
  | .comparison field operator operand => truth field operator operand
  | .logical .and left right => left.test truth && right.test truth
  | .logical .or left right => left.test truth || right.test truth

theorem eval_ofBool (truth : String → String → Option Value → Bool) (node : Node) :
    node.eval (fun field operator operand => .ofBool (truth field operator operand))
      = .ofBool (node.test truth) := by
  induction node with
  | comparison field operator operand => rfl
  | logical op left right ihl ihr =>
      cases op with
      | and => rw [eval, ihl, ihr, test, Truth.ofBool_and, Connective.eval]
      | or => rw [eval, ihl, ihr, test, Truth.ofBool_or, Connective.eval]

/-- Whatever is joined to a tree by AND, it selects no row that the tree does not. -/
theorem eval_and_eq_holds_iff {truth : String → String → Option Value → Truth}
    {left right : Node} :
    (logical .and left right).eval truth = .holds
      ↔ left.eval truth = .holds ∧ right.eval truth = .holds := by
  simp [eval, Connective.eval]

end Filter.Node

end RecordMapper
