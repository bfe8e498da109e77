import RecordMapper.Proofs.Ordered
import RecordMapper.Query.Statement

/-!
# How statements are laid out

The characters of a statement, clause by clause, and what stands in it for the
operands of its condition. The operands are filed under the names `value1`,
`value2` and so on, in the order in which the condition shows them. The names are
distinct, so the values of a statement are exactly the numbered operands
(`entries_values_build`), and looking up the name with number `n` finds operand
`n` (`get?_values_build`).
-/

namespace RecordMapper.Query

/-! ## Names -/

theorem toList_placeholder (number : Nat) :
    (placeholder number).toList = 'v' :: 'a' :: 'l' :: 'u' :: 'e' :: Nat.toDigits 10 number := by
  simp [placeholder]

theorem isNameChar_of_isDigit {c : Char} (h : c.isDigit = true) : isNameChar c = true := by
  simp only [Char.isDigit, Bool.and_eq_true, decide_eq_true_eq] at h
  have h0 : '0' ≤ c := h.1
  have h9 : c ≤ '9' := h.2
  simp [isNameChar, h0, h9]

theorem isNameChar_of_mem_placeholder {number : Nat} {c : Char}
    (h : c ∈ (placeholder number).toList) : isNameChar c = true := by
  rw [toList_placeholder] at h
  simp only [List.mem_cons] at h
  rcases h with rfl | rfl | rfl | rfl | rfl | h
  · decide
  · decide
  · decide
  · decide
  · decide
  · exact isNameChar_of_isDigit (Nat.isDigit_of_mem_toDigits (by decide) (by decide) h)

theorem placeholder_ne_nil (number : Nat) : (placeholder number).toList ≠ [] := by
  simp [toList_placeholder]

theorem placeholder_inj {i j : Nat} (h : placeholder i = placeholder j) : i = j := by
  have hd : Nat.toDigits 10 i = Nat.toDigits 10 j := by
    have := congrArg String.toList h
    simpa [toList_placeholder] using this
  have hn := congrArg (fun ds => Nat.ofDigitChars 10 ds 0) hd
  simpa [Nat.ofDigitChars_ten_toDigits] using hn

/-! ## Operands under their names -/

theorem map_fst_numbered : ∀ (first : Nat) (vs : List Value),
    (numbered first vs).map Prod.fst = (List.range' first vs.length).map placeholder
  | _, [] => rfl
  | first, v :: rest => by
      rw [numbered, List.map_cons, map_fst_numbered (first + 1) rest, List.length_cons,
        List.range'_succ, List.map_cons]

theorem numbered_eq_zip : ∀ (first : Nat) (vs : List Value),
    numbered first vs = ((List.range' first vs.length).map placeholder).zip vs
  | _, [] => rfl
  | first, v :: rest => by
      rw [numbered, numbered_eq_zip (first + 1) rest, List.length_cons, List.range'_succ,
        List.map_cons, List.zip_cons_cons]

theorem nodup_placeholders (first count : Nat) :
    ((List.range' first count).map placeholder).Nodup := by
  have hlt : (List.range' first count).Pairwise (· < ·) := List.pairwise_lt_range'
  rw [List.Nodup, List.pairwise_map]
  exact hlt.imp fun hij h => Nat.ne_of_lt hij (placeholder_inj h)

theorem mem_numbered {name : String} {v : Value} : ∀ {first : Nat} {vs : List Value},
    (name, v) ∈ numbered first vs
      ↔ ∃ i, vs[i]? = some v ∧ name = placeholder (first + i)
  | first, [] => by simp [numbered]
  | first, w :: rest => by
      rw [numbered, List.mem_cons, mem_numbered]
      constructor
      · rintro (h | ⟨i, hi, rfl⟩)
        · obtain ⟨rfl, rfl⟩ := Prod.mk.inj h
          exact ⟨0, rfl, rfl⟩
        · exact ⟨i + 1, by simpa using hi, by rw [Nat.add_assoc, Nat.add_comm 1]⟩
      · rintro ⟨i, hi, rfl⟩
        cases i with
        | zero =>
            obtain rfl : w = v := Option.some.inj hi
            exact Or.inl rfl
        | succ i =>
            exact Or.inr ⟨i, by simpa using hi, by rw [Nat.add_assoc, Nat.add_comm 1]⟩

/-! ## The text of a condition -/

theorem toList_condition_unary (first : Nat) (field operator : String) :
    (condition first (.comparison field operator none)).toList
      = (quote field).toList ++ (" " ++ operator).toList := by
  unfold condition
  simp only [String.toList_append, String.toList_empty, List.append_nil, List.append_assoc]

theorem toList_condition_binary (first : Nat) (field operator : String) (v : Value) :
    (condition first (.comparison field operator (some v))).toList
      = ((quote field).toList ++ (" " ++ operator ++ " ").toList)
        ++ ':' :: (placeholder first).toList := by
  have hcolon : " :".toList = " ".toList ++ [':'] := by decide
  unfold condition
  simp only [String.toList_append, hcolon, List.append_assoc, List.singleton_append]

theorem toList_condition_logical (first : Nat) (op : Connective) (left right : Filter.Node) :
    (condition first (.logical op left right)).toList
      = '(' :: ((condition first left).toList ++ ((" " ++ op.keyword ++ " ").toList
        ++ ((condition (first + (operands left).length) right).toList ++ [')']))) := by
  have hopen : "(".toList = ['('] := by decide
  have hclose : ")".toList = [')'] := by decide
  rw [condition]
  simp only [String.toList_append, hopen, hclose, List.append_assoc, List.nil_append,
    List.cons_append]

/-- The text of a condition. Its operands are numbered from the first number on, and the last number
is the next one to give. -/
inductive Written : Nat → Filter.Node → String → Nat → Prop
  | unary {first : Nat} {field operator : String} :
      Written first (.comparison field operator none) (quote field ++ " " ++ operator) first
  | binary {first : Nat} {field operator : String} {v : Value} :
      Written first (.comparison field operator (some v))
        (quote field ++ " " ++ operator ++ " :value" ++ first.repr) (first + 1)
  | conjunction {first middle next : Nat} {left right : Filter.Node} {text text' : String} :
      Written first left text middle → Written middle right text' next →
      Written first (.logical .and left right) ("(" ++ text ++ " AND " ++ text' ++ ")") next
  | disjunction {first middle next : Nat} {left right : Filter.Node} {text text' : String} :
      Written first left text middle → Written middle right text' next →
      Written first (.logical .or left right) ("(" ++ text ++ " OR " ++ text' ++ ")") next

theorem condition_logical {op : Connective} {word : String} (h : " " ++ op.keyword ++ " " = word)
    (first : Nat) (left right : Filter.Node) :
    condition first (.logical op left right) = "(" ++ condition first left ++ word
      ++ condition (first + (operands left).length) right ++ ")" := by
  rw [condition, ← h]
  simp only [String.append_assoc]

theorem written_condition (node : Filter.Node) : ∀ first,
    Written first node (condition first node) (first + (operands node).length) := by
  induction node with
  | comparison field operator operand =>
      intro first
      cases operand with
      | none =>
          have htext : condition first (.comparison field operator none)
              = quote field ++ " " ++ operator := String.append_empty
          rw [htext]
          exact .unary
      | some v =>
          have hcolon : " :" ++ placeholder first = " :value" ++ first.repr := by
            have hname : " :" ++ "value" = " :value" := by decide
            rw [placeholder, ← String.append_assoc, hname]
          have htext : condition first (.comparison field operator (some v))
              = quote field ++ " " ++ operator ++ " :value" ++ first.repr := by
            rw [String.append_assoc, ← hcolon]
            rfl
          rw [htext]
          exact .binary
  | logical op left right ihl ihr =>
      intro first
      have hright := ihr (first + (operands left).length)
      rw [Nat.add_assoc, ← List.length_append] at hright
      cases op with
      | and =>
          have hword : " " ++ Connective.and.keyword ++ " " = " AND " := by decide
          rw [condition_logical hword]
          exact .conjunction (ihl first) hright
      | or =>
          have hword : " " ++ Connective.or.keyword ++ " " = " OR " := by decide
          rw [condition_logical hword]
          exact .disjunction (ihl first) hright

/-! ## The text of a clause -/

theorem toList_joinText (j : Join) :
    (joinText j).toList = " INNER JOIN ".toList ++ (quote j.table).toList ++ " ON ".toList
      ++ (quote (j.table ++ "." ++ j.localKey)).toList ++ " = ".toList
      ++ (quote (j.base ++ "." ++ j.foreignKey)).toList := by
  unfold joinText
  simp only [String.toList_append]

theorem toList_headText (q : Select) :
    (headText q).toList = "SELECT SQL_CALC_FOUND_ROWS ".toList
      ++ ", ".toList.intercalate ((columnList q).map String.toList)
      ++ " FROM ".toList ++ (quote q.table).toList
      ++ q.joins.flatMap fun j => (joinText j).toList := by
  unfold headText
  simp only [String.toList_append, String.toList_intercalate, String.toList_join,
    List.flatMap_map]

/-- A sort key with its direction. -/
def orderItem (e : String × Direction) : List Char :=
  (quote e.1).toList ++ " ".toList ++ e.2.keyword.toList

theorem toList_orderText {q : Select} (h : q.orders.isEmpty = false) :
    (orderText q).toList
      = " ORDER BY ".toList ++ ", ".toList.intercalate (q.orders.entries.map orderItem) := by
  have hitems : (q.orders.entries.map fun e => quote e.1 ++ " " ++ e.2.keyword).map String.toList
      = q.orders.entries.map orderItem := by
    rw [List.map_map]
    refine List.map_congr_left fun e _ => ?_
    simp only [Function.comp_apply, String.toList_append, orderItem]
  unfold orderText
  rw [if_neg (by simp [h])]
  simp only [String.toList_append, String.toList_intercalate, hitems]

/-! ## The parts of a statement -/

theorem sql_build_of_none {q : Select} (h : q.filter.root = none) :
    q.build.sql = headText q ++ tailText q := by
  unfold Select.build
  rw [h]

theorem sql_build_of_some {q : Select} {root : Filter.Node} (h : q.filter.root = some root) :
    q.build.sql = headText q ++ " WHERE " ++ condition 1 root ++ tailText q := by
  unfold Select.build
  rw [h]

theorem sql_build_eq (q : Select) : q.build.sql = headText q
    ++ (q.filter.root.elim "" fun root => " WHERE " ++ condition 1 root) ++ tailText q := by
  cases hroot : q.filter.root with
  | none => rw [sql_build_of_none hroot, Option.elim_none, String.append_empty]
  | some root => rw [sql_build_of_some hroot, Option.elim_some, ← String.append_assoc]

/-- A statement clause by clause, its joins and its condition written out. -/
theorem exists_sql_build_eq (q : Select) : ∃ columns condition,
    q.build.sql = "SELECT SQL_CALC_FOUND_ROWS " ++ columns ++ " FROM " ++ quote q.table
        ++ String.join (q.joins.map fun j => " INNER JOIN " ++ quote j.table
          ++ " ON " ++ quote (j.table ++ "." ++ j.localKey)
          ++ " = " ++ quote (j.base ++ "." ++ j.foreignKey))
        ++ condition ++ tailText q
      ∧ (q.filter.root = none → condition = "")
      ∧ ∀ root, q.filter.root = some root →
        ∃ text next, Written 1 root text next ∧ condition = " WHERE " ++ text := by
  refine ⟨String.intercalate ", " (columnList q),
    q.filter.root.elim "" fun root => " WHERE " ++ condition 1 root, sql_build_eq q,
    fun h => ?_, fun root h => ?_⟩
  · rw [h, Option.elim_none]
  · rw [h, Option.elim_some]
    exact ⟨_, _, written_condition root 1, rfl⟩

/-- The operands that a query binds. -/
def bound (q : Select) : List Value :=
  match q.filter.root with
  | none => []
  | some root => operands root

theorem entries_values_build (q : Select) :
    q.build.values.entries = numbered 1 (bound q) := by
  unfold Select.build bound
  cases q.filter.root with
  | none => rfl
  | some root =>
      have hnodup : ((numbered 1 (operands root)).map Prod.fst).Nodup := by
        rw [map_fst_numbered]
        exact nodup_placeholders ..
      exact OrderedMap.entries_ofList hnodup

/-- What the statement files under a name is the operand with the number of the name. -/
theorem get?_values_build {q : Select} {name : String} {v : Value} :
    q.build.values.get? name = some v
      ↔ ∃ i, (bound q)[i]? = some v ∧ name = placeholder (i + 1) := by
  rw [OrderedMap.get?_eq_some_iff, entries_values_build, mem_numbered]
  simp only [Nat.add_comm 1]

end RecordMapper.Query
