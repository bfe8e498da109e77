import RecordMapper.Filter.Transport
import RecordMapper.Proofs.Filter.Tree
import RecordMapper.Proofs.Query.Layout
import RecordMapper.Proofs.Query.Substitution
import RecordMapper.Text.Reader

/-!
# Reading conditions back

One fixed reader takes the text of a condition apart again: quoted identifiers,
groups of two in parentheses, the accepted operators, and placeholders for
operands. It knows neither the table nor the tree that the text was written from.

The reader is put together like the text: `identifierRest` undoes `quoteRest`,
`operator` the operator, `pattern` the condition. Each part is told where its
piece of text ends by what follows. Behind an identifier that is a blank (or
anything but a back-quote and a point with a back-quote), behind an operator a
blank, a parenthesis or nothing, which matters because one operator may start
another; behind a condition that is a parenthesis, nothing, or a blank that no
colon follows. So each part reads its piece whatever stands behind, and the whole
condition comes back by induction on the tree. Looking the placeholders up in the
values of the statement then gives the tree itself.
-/

namespace RecordMapper

open Text

namespace Query

/-! ## The reader -/

/-- A condition as its text shows it, with names of placeholders for operands. -/
inductive Pattern where
  | comparison (field operator : String) (operand : Option String)
  | logical (op : Connective) (left right : Pattern)
deriving DecidableEq, Repr

namespace Pattern

/-- The names of placeholders, from left to right. -/
def placeholders : Pattern → List String
  | .comparison _ _ operand => operand.toList
  | .logical _ left right => left.placeholders ++ right.placeholders

/-- The tree with the operands that the values file under the names. -/
def resolve (values : OrderedMap Value) : Pattern → Option Filter.Node
  | .comparison field operator none => some (.unary field operator)
  | .comparison field operator (some name) =>
      (values.get? name).map fun v => .binary field operator v
  | .logical op left right => do
      let left ← left.resolve values
      let right ← right.resolve values
      some (.logical op left right)

end Pattern

namespace Read

/-- An identifier behind its first back-quote. A doubled back-quote is one character, and
a point between two back-quotes goes on with the next part. -/
def identifierRest : Reader (List Char)
  | [] => none
  | c :: rest =>
      if c = backquote then
        match rest with
        | [] => some ([], [])
        | d :: behind =>
            if d = backquote then
              (identifierRest behind).map fun (cs, rest) => (backquote :: cs, rest)
            else
              match behind with
              | [] => some ([], [d])
              | e :: more =>
                  if d = '.' ∧ e = backquote then
                    (identifierRest more).map fun (cs, rest) => ('.' :: cs, rest)
                  else some ([], d :: e :: more)
      else (identifierRest rest).map fun (cs, rest) => (c :: cs, rest)

def identifier : Reader String
  | [] => none
  | c :: rest =>
      if c = backquote then
        (identifierRest rest).map fun (cs, rest) => (String.ofList cs, rest)
      else none

/-- Nothing, or a character that stands behind an operator. -/
def endsOperator : List Char → Bool
  | [] => true
  | c :: _ => c == ' ' || c == ')'

/-- One of the accepted operators, whole. -/
def operator : Reader String := fun cs =>
  Filter.operators.findSome? fun op =>
    match dropWord? op.toList cs with
    | some rest => if endsOperator rest then some (op, rest) else none
    | none => none

/-- The name of a placeholder, if there is one. -/
def operand (cs : List Char) : Option String × List Char :=
  match dropWord? [' ', ':'] cs with
  | some rest => (some (String.ofList (rest.takeWhile isNameChar)), rest.dropWhile isNameChar)
  | none => (none, cs)

def connective : Reader Connective := fun cs =>
  match dropWord? " AND ".toList cs with
  | some rest => some (.and, rest)
  | none => (dropWord? " OR ".toList cs).map fun rest => (.or, rest)

def comparison : Reader Pattern := fun cs => do
  let (field, cs) ← identifier cs
  let cs ← dropWord? [' '] cs
  let (op, cs) ← operator cs
  let (name, cs) := operand cs
  some (.comparison field op name, cs)

/-- A group behind its opening parenthesis. -/
def group (item : Reader Pattern) : Reader Pattern := fun cs => do
  let (left, cs) ← item cs
  let (op, cs) ← connective cs
  let (right, cs) ← item cs
  let cs ← dropWord? [')'] cs
  some (.logical op left right, cs)

/-- A condition with fewer than `depth` groups one in the other. -/
def pattern : Nat → Reader Pattern
  | 0, _ => none
  | depth + 1, cs =>
      match cs with
      | '(' :: rest => group (pattern depth) rest
      | cs => comparison cs

/-- The statement of a bare table, up to its condition. -/
def head : Reader String := fun cs => do
  let cs ← dropWord? "SELECT SQL_CALC_FOUND_ROWS ".toList cs
  let (_, cs) ← identifier cs
  let cs ← dropWord? ".* FROM ".toList cs
  let (table, cs) ← identifier cs
  let cs ← dropWord? " WHERE ".toList cs
  some (table, cs)

end Read

end Query

open Query

/-- What the statement of a bare table shows behind the word WHERE. -/
def Statement.pattern? (s : Statement) : Option Pattern := do
  let (_, cs) ← Read.head s.sql.toList
  let (p, rest) ← Read.pattern cs.length cs
  if rest.isEmpty then some p else none

/-- The condition of a statement, read off its text and its values. -/
def Statement.condition? (s : Statement) : Option Filter.Node := do
  let p ← s.pattern?
  p.resolve s.values

namespace Query

namespace Read

/-! ## Words -/

theorem dropWord?_append : ∀ (word rest : List Char),
    dropWord? word (word ++ rest) = some rest
  | [], rest => rfl
  | c :: word, rest => by
      rw [List.cons_append, dropWord?, if_pos rfl, dropWord?_append word rest]

/-! ## Identifiers -/

/-- The text can stand behind an identifier without going on with it. -/
def EndsIdentifier (cs : List Char) : Prop :=
  ∀ more, cs ≠ backquote :: more ∧ cs ≠ '.' :: backquote :: more

theorem endsIdentifier_of_head {c : Char} {cs : List Char} (hq : c ≠ backquote)
    (hd : c ≠ '.') : EndsIdentifier (c :: cs) := by
  intro more
  constructor
  · intro h
    exact hq (List.cons.inj h).1
  · intro h
    exact hd (List.cons.inj h).1

theorem identifierRest_close {rest : List Char} (h : EndsIdentifier rest) :
    identifierRest (backquote :: rest) = some ([], rest) := by
  cases rest with
  | nil => rfl
  | cons d behind =>
      have hd : ¬ d = backquote := fun he => (h behind).1 (by rw [he])
      cases behind with
      | nil => simp [identifierRest, hd]
      | cons e more =>
          have he : ¬ (d = '.' ∧ e = backquote) := by
            rintro ⟨rfl, rfl⟩
            exact (h more).2 rfl
          simp [identifierRest, hd, he]

theorem identifierRest_doubled (cs : List Char) :
    identifierRest (backquote :: backquote :: cs)
      = (identifierRest cs).map fun (cs, rest) => (backquote :: cs, rest) := by
  cases cs <;> simp [identifierRest]

theorem identifierRest_point (cs : List Char) :
    identifierRest (backquote :: '.' :: backquote :: cs)
      = (identifierRest cs).map fun (cs, rest) => ('.' :: cs, rest) := by
  have hdot : ¬ '.' = backquote := by decide
  simp [identifierRest, hdot]

theorem identifierRest_cons_of_ne {c : Char} (hc : c ≠ backquote) (cs : List Char) :
    identifierRest (c :: cs) = (identifierRest cs).map fun (cs, rest) => (c :: cs, rest) := by
  rw [identifierRest.eq_def (c :: cs)]
  exact if_neg hc

theorem identifierRest_quoteRest {rest : List Char} (h : EndsIdentifier rest) :
    ∀ cs : List Char, identifierRest (quoteRest cs ++ rest) = some (cs, rest)
  | [] => identifierRest_close h
  | c :: cs => by
      have ih := identifierRest_quoteRest h cs
      by_cases hd : c = '.'
      · subst hd
        rw [quoteRest, if_pos rfl, List.cons_append, List.cons_append, List.cons_append,
          identifierRest_point, ih]
        rfl
      · by_cases hq : c = backquote
        · subst hq
          rw [quoteRest, if_neg hd, if_pos rfl, List.cons_append, List.cons_append,
            identifierRest_doubled, ih]
          rfl
        · rw [quoteRest, if_neg hd, if_neg hq, List.cons_append,
            identifierRest_cons_of_ne hq, ih]
          rfl

/-- A quoted name is read back, whatever ends it. -/
theorem identifier_quote (name : String) {rest : List Char} (h : EndsIdentifier rest) :
    identifier ((quote name).toList ++ rest) = some (name, rest) := by
  rw [toList_quote, List.cons_append, identifier, if_pos rfl, identifierRest_quoteRest h]
  simp

/-! ## Operators and operands -/

/-- The text can stand behind a condition without going on with it. -/
inductive EndsCondition : List Char → Prop where
  | nil : EndsCondition []
  | close (rest : List Char) : EndsCondition (')' :: rest)
  | blank {c : Char} (rest : List Char) (h : c ≠ ':') : EndsCondition (' ' :: c :: rest)

theorem EndsCondition.endsName {cs : List Char} (h : EndsCondition cs) : EndsName cs := by
  cases h with
  | nil => exact endsName_nil
  | close rest => exact endsName_cons (by decide)
  | blank rest h => exact endsName_cons (by decide)

theorem EndsCondition.endsOperator {cs : List Char} (h : EndsCondition cs) :
    endsOperator cs = true := by
  cases h <;> rfl

theorem EndsCondition.endsIdentifier {cs : List Char} (h : EndsCondition cs) :
    EndsIdentifier cs := by
  cases h with
  | nil => exact fun more => ⟨by simp, by simp⟩
  | close rest => exact endsIdentifier_of_head (by decide) (by decide)
  | blank rest h => exact endsIdentifier_of_head (by decide) (by decide)

/-- No accepted operator goes on with a blank or a parenthesis where another one ends, so
the operator read is the operator written. -/
theorem operator_append {op : String} (hop : op ∈ Filter.operators) {cs : List Char}
    (h : endsOperator cs = true) : operator (op.toList ++ cs) = some (op, cs) := by
  have hcs : cs = [] ∨ (∃ rest, cs = ' ' :: rest) ∨ ∃ rest, cs = ')' :: rest := by
    cases cs with
    | nil => exact Or.inl rfl
    | cons c rest =>
        simp only [Read.endsOperator, Bool.or_eq_true, beq_iff_eq] at h
        rcases h with rfl | rfl
        · exact Or.inr (Or.inl ⟨rest, rfl⟩)
        · exact Or.inr (Or.inr ⟨rest, rfl⟩)
  simp only [Filter.operators, List.mem_cons, List.not_mem_nil, or_false] at hop
  rcases hop with rfl | rfl | rfl | rfl | rfl | rfl | rfl | rfl | rfl | rfl | rfl | rfl | rfl <;>
    rcases hcs with rfl | ⟨rest, rfl⟩ | ⟨rest, rfl⟩ <;> rfl

theorem operand_none {cs : List Char} (h : EndsCondition cs) : operand cs = (none, cs) := by
  cases h with
  | nil => rfl
  | close rest => rfl
  | blank rest h =>
      have hne : ¬ ':' = _ := fun he => h he.symm
      simp [operand, dropWord?, hne]

theorem operand_placeholder (number : Nat) {cs : List Char} (h : EndsName cs) :
    operand (' ' :: ':' :: ((placeholder number).toList ++ cs))
      = (some (placeholder number), cs) := by
  have hname : ∀ c ∈ (placeholder number).toList, isNameChar c = true :=
    fun c hc => isNameChar_of_mem_placeholder hc
  have hdrop : cs.dropWhile isNameChar = cs := by
    cases cs with
    | nil => rfl
    | cons c rest => rw [List.dropWhile_cons_of_neg (by simp [h c rfl])]
  simp only [operand, dropWord?, if_pos, takeWhile_name hname h,
    List.dropWhile_append_of_pos hname, hdrop, String.ofList_toList]

theorem connective_append (op : Connective) (cs : List Char) :
    connective ((" " ++ op.keyword ++ " ").toList ++ cs) = some (op, cs) := by
  cases op <;> rfl

end Read

/-! ## Patterns of trees -/

/-- What the text of a tree shows when its first operand has number `first`. -/
def patternOf (first : Nat) : Filter.Node → Pattern
  | .comparison field operator operand =>
      .comparison field operator (operand.map fun _ => placeholder first)
  | .logical op left right =>
      .logical op (patternOf first left) (patternOf (first + (operands left).length) right)

theorem placeholders_patternOf : ∀ (node : Filter.Node) (first : Nat),
    (patternOf first node).placeholders
      = (List.range' first (operands node).length).map placeholder
  | .comparison field operator none, first => rfl
  | .comparison field operator (some v), first => rfl
  | .logical op left right, first => by
      rw [patternOf, Pattern.placeholders, placeholders_patternOf left,
        placeholders_patternOf right, operands, List.length_append, ← List.map_append,
        List.range'_append_1]

theorem resolve_patternOf {values : OrderedMap Value} : ∀ (node : Filter.Node) {first : Nat},
    (∀ i v, (operands node)[i]? = some v →
      values.get? (placeholder (first + i)) = some v) →
    (patternOf first node).resolve values = some node
  | .comparison field operator none, first, _ => rfl
  | .comparison field operator (some v), first, h => by
      have hget : values.get? (placeholder first) = some v := h 0 v rfl
      rw [patternOf, Option.map_some, Pattern.resolve, hget]
      rfl
  | .logical op left right, first, h => by
      have hleft : (patternOf first left).resolve values = some left :=
        resolve_patternOf left fun i v hv => h i v (by
          rw [operands, List.getElem?_append_left (List.getElem?_eq_some_iff.mp hv).1]
          exact hv)
      have hright : (patternOf (first + (operands left).length) right).resolve values
          = some right :=
        resolve_patternOf right fun i v hv => by
          rw [Nat.add_assoc]
          exact h _ v (by rw [operands, List.getElem?_append_right (by omega)]; simpa using hv)
      rw [patternOf, Pattern.resolve, hleft, hright]
      rfl

/-- How many groups of a tree stand one in the other, its comparisons counted as one. -/
def height : Filter.Node → Nat
  | .comparison _ _ _ => 1
  | .logical _ left right => max (height left) (height right) + 1

theorem height_le_length : ∀ (node : Filter.Node) (first : Nat),
    height node ≤ (condition first node).toList.length
  | .comparison field operator none, first => by
      rw [toList_condition_unary, toList_quote]
      simp [height]
  | .comparison field operator (some v), first => by
      rw [toList_condition_binary, toList_quote]
      simp [height]
  | .logical op left right, first => by
      have hleft := height_le_length left first
      have hright := height_le_length right (first + (operands left).length)
      rw [toList_condition_logical, height]
      simp only [List.length_cons, List.length_append]
      omega

namespace Read

/-- A comparison is read back before anything that ends a condition. -/
theorem comparison_append {field op : String} (value : Option Value) {first : Nat}
    (hop : op ∈ Filter.operators) {cs : List Char} (hcs : EndsCondition cs) :
    comparison ((condition first (.comparison field op value)).toList ++ cs)
      = some (patternOf first (.comparison field op value), cs) := by
  have hblank : " ".toList = [' '] := by decide
  have hfield : ∀ rest, EndsIdentifier (' ' :: rest) :=
    fun rest => endsIdentifier_of_head (by decide) (by decide)
  cases value with
  | none =>
      have htext : (condition first (.comparison field op none)).toList ++ cs
          = (quote field).toList ++ ' ' :: (op.toList ++ cs) := by
        rw [toList_condition_unary]
        simp only [String.toList_append, hblank, List.append_assoc, List.cons_append,
          List.nil_append]
      rw [htext, comparison, identifier_quote field (hfield _)]
      simp only [Option.bind_eq_bind, Option.bind_some, dropWord?, if_pos,
        operator_append hop hcs.endsOperator, operand_none hcs]
      rfl
  | some v =>
      have htext : (condition first (.comparison field op (some v))).toList ++ cs
          = (quote field).toList ++ ' ' :: (op.toList
            ++ ' ' :: ':' :: ((placeholder first).toList ++ cs)) := by
        rw [toList_condition_binary]
        simp only [String.toList_append, hblank, List.append_assoc, List.cons_append,
          List.nil_append]
      rw [htext, comparison, identifier_quote field (hfield _)]
      simp only [Option.bind_eq_bind, Option.bind_some, dropWord?, if_pos]
      rw [operator_append hop rfl]
      simp only [Option.bind_some, operand_placeholder first hcs.endsName]
      rfl

theorem exists_comparison_cons (first : Nat) (field op : String) (value : Option Value) :
    ∃ rest, (condition first (.comparison field op value)).toList = backquote :: rest := by
  cases value with
  | none =>
      rw [toList_condition_unary, toList_quote]
      exact ⟨_, rfl⟩
  | some v =>
      rw [toList_condition_binary, toList_quote]
      exact ⟨_, rfl⟩

/-- The text of a tree is read back, whatever ends it. -/
theorem pattern_append : ∀ (node : Filter.Node) {first depth : Nat} {cs : List Char},
    (∀ op ∈ node.operators, op ∈ Filter.operators) → height node ≤ depth → EndsCondition cs →
    pattern depth ((condition first node).toList ++ cs) = some (patternOf first node, cs)
  | .comparison field op value, first, 0, cs, _, hd, _ => by
      simp [height] at hd
  | .comparison field op value, first, depth + 1, cs, hops, _, hcs => by
      have hread : comparison ((condition first (.comparison field op value)).toList ++ cs)
          = some (patternOf first (.comparison field op value), cs) :=
        comparison_append value (hops op (List.mem_singleton_self _)) hcs
      obtain ⟨rest, htext⟩ := exists_comparison_cons first field op value
      rw [htext] at hread ⊢
      exact hread
  | .logical op left right, first, 0, cs, _, hd, _ => by
      simp [height] at hd
  | .logical op left right, first, depth + 1, cs, hops, hd, hcs => by
      rw [Filter.Node.operators, List.forall_mem_append] at hops
      rw [height] at hd
      have hop : EndsCondition ((" " ++ op.keyword ++ " ").toList
          ++ ((condition (first + (operands left).length) right).toList ++ ')' :: cs)) := by
        cases op with
        | and => exact .blank _ (by decide)
        | or => exact .blank _ (by decide)
      rw [toList_condition_logical]
      simp only [List.cons_append, List.append_assoc, List.nil_append]
      rw [pattern, group, pattern_append left hops.1 (by omega) hop]
      simp only [Option.bind_eq_bind, Option.bind_some, connective_append]
      rw [pattern_append right hops.2 (by omega) (.close cs)]
      rfl

theorem head_append (table : String) (cs : List Char) :
    head ("SELECT SQL_CALC_FOUND_ROWS ".toList ++ ((quote table).toList ++ (".* FROM ".toList
      ++ ((quote table).toList ++ (" WHERE ".toList ++ cs))))) = some (table, cs) := by
  have hstar : EndsIdentifier (".* FROM ".toList ++ ((quote table).toList
      ++ (" WHERE ".toList ++ cs))) := by
    intro more
    constructor <;> intro h <;> simp [backquote] at h
  have hwhere : EndsIdentifier (" WHERE ".toList ++ cs) :=
    endsIdentifier_of_head (by decide) (by decide)
  unfold head
  simp only [Option.bind_eq_bind, dropWord?_append, Option.bind_some,
    identifier_quote table hstar, identifier_quote table hwhere]

end Read

/-! ## Statements of bare tables -/

/-- The query for the rows of a table that satisfy a tree. -/
def rowsWhere (table : String) (node : Filter.Node) : Select :=
  (Select.ofTable table).andWhere (some node)

theorem root_rowsWhere (table : String) (node : Filter.Node) :
    (rowsWhere table node).filter.root = some (node.qualify table) := rfl

theorem operands_qualify (table : String) : ∀ node : Filter.Node,
    operands (node.qualify table) = operands node
  | .comparison field operator operand => rfl
  | .logical op left right => by
      rw [Filter.Node.qualify, operands, operands_qualify table left,
        operands_qualify table right, operands]

theorem bound_rowsWhere (table : String) (node : Filter.Node) :
    bound (rowsWhere table node) = operands node := operands_qualify table node

theorem sql_rowsWhere (table : String) (node : Filter.Node) :
    (rowsWhere table node).build.sql.toList
      = "SELECT SQL_CALC_FOUND_ROWS ".toList ++ ((quote table).toList ++ (".* FROM ".toList
        ++ ((quote table).toList ++ (" WHERE ".toList
        ++ (condition 1 (node.qualify table)).toList)))) := by
  have hcolumns : columnList (rowsWhere table node) = [quote table ++ ".*"] := rfl
  have htail : tailText (rowsWhere table node) = "" := rfl
  have hstar : ".*".toList ++ " FROM ".toList = ".* FROM ".toList := by decide
  rw [sql_build_of_some (root_rowsWhere table node), htail, ← hstar]
  simp only [String.toList_append, toList_headText, hcolumns, List.map_cons, List.map_nil,
    List.intercalate_singleton, List.append_assoc, String.toList_empty, List.append_nil]
  rfl

/-- The conditions that one operator of transport each makes are read back whole. -/
theorem pattern?_rowsWhere (table : String) {node : Filter.Node}
    (h : ∀ op ∈ node.operators, op ∈ Filter.operators) :
    (rowsWhere table node).build.pattern? = some (patternOf 1 (node.qualify table)) := by
  have hread : Read.pattern (condition 1 (node.qualify table)).toList.length
      ((condition 1 (node.qualify table)).toList ++ [])
        = some (patternOf 1 (node.qualify table), []) :=
    Read.pattern_append (node.qualify table)
      (by rwa [Filter.Node.operators_qualify]) (height_le_length _ 1) .nil
  rw [List.append_nil] at hread
  rw [Statement.pattern?, sql_rowsWhere, Read.head_append]
  simp only [Option.bind_eq_bind, Option.bind_some, hread]
  rfl

theorem condition?_rowsWhere (table : String) {node : Filter.Node}
    (h : ∀ op ∈ node.operators, op ∈ Filter.operators) :
    (rowsWhere table node).build.condition? = some (node.qualify table) := by
  rw [Statement.condition?, pattern?_rowsWhere table h]
  simp only [Option.bind_eq_bind, Option.bind_some]
  refine resolve_patternOf _ fun i v hv => ?_
  rw [get?_values_build, bound_rowsWhere]
  exact ⟨i, by rwa [operands_qualify] at hv, by rw [Nat.add_comm]⟩

theorem entries_values_rowsWhere (table : String) (node : Filter.Node) :
    (rowsWhere table node).build.values.entries
      = ((List.range' 1 (operands node).length).map placeholder).zip (operands node) := by
  rw [entries_values_build, bound_rowsWhere, numbered_eq_zip]

/-! ## Values and text -/

theorem length_operands_blank : ∀ node : Filter.Node,
    (operands node.blank).length = (operands node).length
  | .comparison field operator none => rfl
  | .comparison field operator (some v) => rfl
  | .logical op left right => by
      rw [Filter.Node.blank, operands, operands, List.length_append, List.length_append,
        length_operands_blank left, length_operands_blank right]

/-- The text of a condition does not show the values of its operands. -/
theorem condition_blank : ∀ (node : Filter.Node) (first : Nat),
    condition first node.blank = condition first node
  | .comparison field operator none, first => rfl
  | .comparison field operator (some v), first => by
      rw [← String.toList_inj, Filter.Node.blank, Option.map_some, toList_condition_binary,
        toList_condition_binary]
  | .logical op left right, first => by
      rw [Filter.Node.blank, condition, condition, condition_blank left, condition_blank right,
        length_operands_blank left]

theorem sql_rowsWhere_congr (table : String) {node node' : Filter.Node}
    (h : node'.blank = node.blank) :
    (rowsWhere table node').build.sql = (rowsWhere table node).build.sql := by
  have hcondition : condition 1 (node'.qualify table) = condition 1 (node.qualify table) := by
    rw [← condition_blank (node'.qualify table), ← condition_blank (node.qualify table),
      Filter.Node.blank_qualify, Filter.Node.blank_qualify, h]
  rw [← String.toList_inj, sql_rowsWhere, sql_rowsWhere, hcondition]

/-- Nothing of a condition is lost in its statement. The tree is read back off the text and
the values; the text shows the placeholders `value1`, `value2` and so on in this order,
and the values file the operands of the tree under them, from left to right; different
trees have different statements; and the text depends on everything in the tree but the
values of its operands. -/
theorem rowsWhere_lossless (table : String) (node : Filter.Node)
    (h : ∀ op ∈ node.operators, op ∈ Filter.operators) :
    (rowsWhere table node).build.condition? = some (node.qualify table)
      ∧ (∃ p, (rowsWhere table node).build.pattern? = some p
          ∧ p.placeholders = (List.range' 1 (operands node).length).map placeholder
          ∧ p.placeholders.Nodup)
      ∧ (rowsWhere table node).build.values.entries
          = ((List.range' 1 (operands node).length).map placeholder).zip (operands node)
      ∧ (∀ table' node', (∀ op ∈ node'.operators, op ∈ Filter.operators) →
          (rowsWhere table' node').build = (rowsWhere table node).build →
          node'.qualify table' = node.qualify table)
      ∧ ∀ node', node'.blank = node.blank →
          (rowsWhere table node').build.sql = (rowsWhere table node).build.sql := by
  have hread := condition?_rowsWhere table h
  have hshown : (patternOf 1 (node.qualify table)).placeholders
      = (List.range' 1 (operands node).length).map placeholder := by
    rw [placeholders_patternOf, operands_qualify]
  refine ⟨hread, ⟨_, pattern?_rowsWhere table h, hshown, ?_⟩,
    entries_values_rowsWhere table node, ?_, fun node' => sql_rowsWhere_congr table⟩
  · rw [hshown]
    exact nodup_placeholders ..
  · intro table' node' h' hsame
    have hread' := condition?_rowsWhere table' h'
    rw [hsame, hread] at hread'
    exact (Option.some.inj hread').symm

/-- Fields that hold back-quotes, parentheses, words and placeholders of their own, and an
operator that starts another. -/
theorem condition?_rowsWhere_hostile :
    let node : Filter.Node := .logical .or
      (.logical .and (.unary "a`.b`) OR (" "IS NULL") (.binary "" "<" (.text ":value2")))
      (.logical .or (.binary ".:value1 = " "<=" .null) (.unary "AND" "NOT LIKE"))
    (∀ op ∈ node.operators, op ∈ Filter.operators)
      ∧ (rowsWhere "t`" node).build.condition? = some (node.qualify "t`") := by
  exact ⟨by decide, (rowsWhere_lossless "t`" _ (by decide)).1⟩

end Query

end RecordMapper
