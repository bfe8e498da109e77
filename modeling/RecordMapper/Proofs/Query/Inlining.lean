import RecordMapper.Proofs.Filter.Tree
import RecordMapper.Proofs.Query.Layout
import RecordMapper.Proofs.Query.Substitution

/-!
# Statements with their values in place

A statement is written in two steps, a text with placeholders and then values in
the place of the placeholders. `Select.inlined` writes the same statement at
once: every name between back-quotes, every value where its operand belongs.

The two agree except where a name looks like a placeholder. The second step scans
the text, names included, so a colon in a name with `value1` behind it is
replaced like any other, inside the quotes. The main statement says exactly when
this happens, in terms of the names as they were given: quoting does not make or
break a mention, since neither a back-quote nor a point belongs to a name.
-/

namespace RecordMapper

namespace Query

/-! ## Writing at once -/

/-- The text of a condition with its operands in place. -/
def inlinedCondition (escape : Value → String) : Filter.Node → String
  | .comparison field operator operand =>
      quote field ++ " " ++ operator
        ++ match operand with
          | none => ""
          | some v => " " ++ literal escape v
  | .logical op left right =>
      "(" ++ inlinedCondition escape left ++ " " ++ op.keyword ++ " "
        ++ inlinedCondition escape right ++ ")"

end Query

open Query

/-- Writes a query out with its values in place. -/
def Select.inlined (escape : Value → String) (q : Select) : String :=
  match q.filter.root with
  | none => headText q ++ tailText q
  | some root => headText q ++ " WHERE " ++ inlinedCondition escape root ++ tailText q

namespace Query

/-! ## What a statement shows -/

def joinNames (j : Join) : List String :=
  [j.table, j.table ++ "." ++ j.localKey, j.base ++ "." ++ j.foreignKey]

/-- The names that a statement shows between back-quotes, in front of its condition. -/
def headNames (q : Select) : List String :=
  q.table :: q.columns.names ++ q.joins.flatMap joinNames

/-- The names that a statement shows between back-quotes. -/
def shownNames (q : Select) : List String :=
  headNames q ++ q.filter.fields ++ q.orders.keys

/-- One of the first `count` placeholder names. -/
def IsPlaceholder (count : Nat) (name : List Char) : Prop :=
  ∃ i < count, name = (placeholder (i + 1)).toList

/-! ## Mentions in the clauses

A clause is cut before each of its names and before each of the words between
them, and the words have no colon. -/

section Clauses

variable {known : List Char → Prop}

theorem endsName_columnList (q : Select) : ∀ column ∈ columnList q, EndsName column.toList := by
  intro column hc
  rcases List.mem_append.mp hc with hown | hnamed
  · split at hown
    · simp at hown
    · obtain rfl := List.mem_singleton.mp hown
      rw [String.toList_append]
      exact endsName_append (endsName_quote _) (endsName_word (by decide))
  · obtain ⟨name, -, rfl⟩ := List.mem_map.mp hnamed
    exact endsName_quote name

theorem mentions_columnList (q : Select) :
    (∃ column ∈ columnList q, Mentions known column.toList)
      ↔ (selectsOwn q = false ∧ Mentions known q.table.toList)
        ∨ ∃ name ∈ q.columns.names, Mentions known name.toList := by
  have hstar : Mentions known (quote q.table ++ ".*").toList
      ↔ Mentions known q.table.toList := by
    have hdot : separates ".*" = true := by decide
    rw [String.toList_append, mentions_append_word hdot, mentions_quote]
  constructor
  · rintro ⟨column, hc, hm⟩
    rcases List.mem_append.mp hc with hown | hnamed
    · cases h : selectsOwn q with
      | true => simp [h] at hown
      | false =>
          rw [h] at hown
          obtain rfl := List.mem_singleton.mp hown
          exact Or.inl ⟨rfl, hstar.mp hm⟩
    · obtain ⟨name, hn, rfl⟩ := List.mem_map.mp hnamed
      exact Or.inr ⟨name, hn, (mentions_quote name).mp hm⟩
  · rintro (⟨h, hm⟩ | ⟨name, hn, hm⟩)
    · exact ⟨_, List.mem_append_left _ (by rw [h]; exact List.mem_singleton_self _), hstar.mpr hm⟩
    · exact ⟨quote name, List.mem_append_right _ (List.mem_map_of_mem hn),
        (mentions_quote name).mpr hm⟩

theorem endsName_joinText (j : Join) : EndsName (joinText j).toList := by
  simp only [toList_joinText, List.append_assoc]
  exact endsName_cons (by decide)

theorem mentions_joinText (j : Join) :
    Mentions known (joinText j).toList ↔ ∃ name ∈ joinNames j, Mentions known name.toList := by
  have hjoin : ¬ Mentions known " INNER JOIN ".toList := not_mentions_of_no_colon (by decide)
  have hon : separates " ON " = true := by decide
  have heq : separates " = " = true := by decide
  rw [toList_joinText, mentions_append_quote, mentions_append_word heq, mentions_append_quote,
    mentions_append_word hon, mentions_append_quote, or_iff_right hjoin]
  simp only [joinNames, List.mem_cons, List.not_mem_nil, or_false, exists_eq_or_imp,
    exists_eq_left, or_assoc]

/-- In front of the condition only names mention anything. -/
theorem mentions_headText (q : Select) :
    Mentions known (headText q).toList ↔ ∃ name ∈ headNames q, Mentions known name.toList := by
  have hcomma : separates ", " = true := by decide
  have hfrom : separates " FROM " = true := by decide
  have hselect : ¬ Mentions known "SELECT SQL_CALC_FOUND_ROWS ".toList :=
    not_mentions_of_no_colon (by decide)
  have hjoins : ∀ j ∈ q.joins, EndsName (joinText j).toList := fun j _ => endsName_joinText j
  rw [toList_headText, mentions_append (endsName_flatMap hjoins), mentions_append_quote,
    mentions_append_word hfrom,
    mentions_append (endsName_intercalate (endsName_word hcomma) (endsName_columnList q)),
    or_iff_right hselect,
    mentions_intercalate (endsName_word hcomma)
      (not_mentions_of_no_colon (no_colon_word hcomma)) (endsName_columnList q),
    mentions_columnList, mentions_flatMap hjoins]
  simp only [mentions_joinText, headNames, List.cons_append, List.mem_cons, List.mem_append,
    List.mem_flatMap, or_and_right, exists_or, exists_eq_left]
  constructor
  · rintro (((⟨-, h⟩ | h) | h) | ⟨j, hj, name, hn, h⟩)
    · exact Or.inl h
    · exact Or.inr (Or.inl h)
    · exact Or.inl h
    · exact Or.inr (Or.inr ⟨name, ⟨j, hj, hn⟩, h⟩)
  · rintro (h | h | ⟨name, ⟨j, hj, hn⟩, h⟩)
    · exact Or.inl (Or.inr h)
    · exact Or.inl (Or.inl (Or.inr h))
    · exact Or.inr ⟨j, hj, name, hn, h⟩

theorem endsName_orderItem (e : String × Direction) : EndsName (orderItem e) := by
  rw [orderItem, List.append_assoc]
  exact endsName_append (endsName_quote e.1) (endsName_cons (by decide))

theorem separates_keyword (d : Direction) : separates (" " ++ d.keyword) = true := by
  cases d <;> decide

theorem mentions_orderItem (e : String × Direction) :
    Mentions known (orderItem e) ↔ Mentions known e.1.toList := by
  rw [orderItem, List.append_assoc, ← String.toList_append,
    mentions_append_word (separates_keyword e.2), mentions_quote]

theorem endsName_orderText (q : Select) : EndsName (orderText q).toList := by
  cases h : q.orders.isEmpty with
  | true =>
      unfold orderText
      rw [if_pos h]
      exact endsName_nil
  | false =>
      rw [toList_orderText h]
      exact endsName_cons (by decide)

theorem mentions_orderText (q : Select) :
    Mentions known (orderText q).toList ↔ ∃ name ∈ q.orders.keys, Mentions known name.toList := by
  have hcomma : separates ", " = true := by decide
  have horder : ¬ Mentions known " ORDER BY ".toList := not_mentions_of_no_colon (by decide)
  have hitems : ∀ e ∈ q.orders.entries, EndsName (orderItem e) :=
    fun e _ => endsName_orderItem e
  cases h : q.orders.isEmpty with
  | true =>
      have hnil : q.orders.entries = [] := List.isEmpty_iff.mp h
      unfold orderText
      rw [if_pos h]
      simp [OrderedMap.keys, hnil, not_mentions_nil]
  | false =>
      rw [toList_orderText h,
        mentions_append (endsName_intercalate (endsName_word hcomma) hitems),
        or_iff_right horder,
        mentions_intercalate (endsName_word hcomma)
          (not_mentions_of_no_colon (no_colon_word hcomma)) hitems]
      constructor
      · rintro ⟨e, he, hm⟩
        exact ⟨e.1, List.mem_map_of_mem he, (mentions_orderItem e).mp hm⟩
      · rintro ⟨name, hn, hm⟩
        obtain ⟨e, he, rfl⟩ := List.mem_map.mp hn
        exact ⟨e, he, (mentions_orderItem e).mpr hm⟩

theorem no_colon_repr (n : Nat) : ':' ∉ n.repr.toList := by
  intro h
  rw [Nat.toList_repr] at h
  exact absurd (Nat.isDigit_of_mem_toDigits (by decide) (by decide) h) (by decide)

/-- The LIMIT clause is a word like those between names. -/
theorem separates_limitText (q : Select) : separates (limitText q) = true := by
  cases h : q.limit with
  | none =>
      unfold limitText
      rw [h]
      rfl
  | some limit =>
      have hoffset := no_colon_repr q.offset
      have hlimit := no_colon_repr limit
      unfold limitText
      rw [h]
      simp only [Nat.toList_repr] at hoffset hlimit
      have hblank : isNameChar ' ' = false := by decide
      simp [separates, hoffset, hlimit, hblank]

theorem endsName_tailText (q : Select) : EndsName (tailText q).toList := by
  rw [tailText, String.toList_append]
  exact endsName_append (endsName_orderText q) (endsName_word (separates_limitText q))

/-- Behind the condition only the sort keys mention anything. -/
theorem mentions_tailText (q : Select) :
    Mentions known (tailText q).toList ↔ ∃ name ∈ q.orders.keys, Mentions known name.toList := by
  rw [tailText, String.toList_append, mentions_append_word (separates_limitText q),
    mentions_orderText]

end Clauses

/-! ## The two texts of a condition -/

theorem toList_inlinedCondition_binary (escape : Value → String) (field operator : String)
    (v : Value) :
    (inlinedCondition escape (.comparison field operator (some v))).toList
      = ((quote field).toList ++ (" " ++ operator ++ " ").toList)
        ++ (literal escape v).toList := by
  unfold inlinedCondition
  simp only [String.toList_append, List.append_assoc]

theorem toList_inlinedCondition_logical (escape : Value → String) (op : Connective)
    (left right : Filter.Node) :
    (inlinedCondition escape (.logical op left right)).toList
      = '(' :: ((inlinedCondition escape left).toList ++ ((" " ++ op.keyword ++ " ").toList
        ++ ((inlinedCondition escape right).toList ++ [')']))) := by
  have hopen : "(".toList = ['('] := by decide
  have hclose : ")".toList = [')'] := by decide
  rw [inlinedCondition]
  simp only [String.toList_append, hopen, hclose, List.append_assoc, List.nil_append,
    List.cons_append]

/-- A condition starts with a back-quote or a parenthesis. -/
theorem endsName_condition (first : Nat) (node : Filter.Node) :
    EndsName (condition first node).toList := by
  cases node with
  | comparison field operator operand =>
      cases operand with
      | none =>
          rw [toList_condition_unary, toList_quote]
          exact endsName_cons (by decide)
      | some v =>
          rw [toList_condition_binary, toList_quote]
          exact endsName_cons (by decide)
  | logical op left right =>
      rw [toList_condition_logical]
      exact endsName_cons (by decide)

theorem separates_connective (op : Connective) :
    separates (" " ++ op.keyword ++ " ") = true := by
  cases op <;> decide

section Values

variable {lookup : List Char → Option (List Char)} {escape : Value → String}

theorem toList_append_append {start : String} {c : Char} (h : start.toList = [c])
    (s close : String) : (start ++ s ++ close).toList = c :: (s ++ close).toList := by
  simp only [String.toList_append, h, List.nil_append, List.cons_append]

/-- A literal starts with a quote, a parenthesis or the first letter of NULL. -/
theorem exists_literal_cons (escape : Value → String) (v : Value) :
    ∃ c rest, (literal escape v).toList = c :: rest ∧ c ≠ ':' := by
  have hquote : "'".toList = ['\''] := by decide
  have hopen : "(".toList = ['('] := by decide
  have scalar : ∀ s : String, ∃ c rest, ("'" ++ s ++ "'").toList = c :: rest ∧ c ≠ ':' :=
    fun s => ⟨_, _, toList_append_append hquote s "'", by decide⟩
  cases v with
  | null => exact ⟨'N', ['U', 'L', 'L'], by rw [literal]; decide, by decide⟩
  | bool b => exact scalar _
  | int i => exact scalar _
  | float x => exact scalar _
  | text s => exact scalar _
  | list items =>
      cases items with
      | nil => exact ⟨'(', ['F', 'A', 'L', 'S', 'E', ')'], by rw [literal]; decide, by decide⟩
      | cons v rest =>
          refine ⟨'(', (literal escape v ++ (literalRest escape rest ++ ")")).toList, ?_, by decide⟩
          rw [literal, String.append_assoc]
          exact toList_append_append hopen (literal escape v) (literalRest escape rest ++ ")")

/-- The look-up answers the placeholders of these operands, numbered from `first` on. -/
def Serves (lookup : List Char → Option (List Char)) (escape : Value → String) (first : Nat)
    (vs : List Value) : Prop :=
  ∀ i v, vs[i]? = some v →
    lookup (placeholder (first + i)).toList = some (literal escape v).toList

theorem Serves.left {first : Nat} {vs ws : List Value}
    (h : Serves lookup escape first (vs ++ ws)) : Serves lookup escape first vs := by
  intro i v hv
  exact h i v (List.getElem?_append_left (List.getElem?_eq_some_iff.mp hv).1 ▸ hv)

theorem Serves.right {first : Nat} {vs ws : List Value}
    (h : Serves lookup escape first (vs ++ ws)) :
    Serves lookup escape (first + vs.length) ws := by
  intro i v hv
  rw [Nat.add_assoc]
  exact h (vs.length + i) v (by rw [List.getElem?_append_right (by omega)]; simpa using hv)

theorem substitute_placeholder {number : Nat} {text b : List Char}
    (h : lookup (placeholder number).toList = some text) (hb : EndsName b) :
    substitute lookup 0 (':' :: ((placeholder number).toList ++ b))
      = text ++ substitute lookup 0 b :=
  substitute_name (fun _ hc => isNameChar_of_mem_placeholder hc) (placeholder_ne_nil number) h hb

/-- Substitution turns the one text of a condition into the other exactly when no field
mentions a name: the placeholders are replaced in any case, and the operators, free of
colons, are not touched. -/
theorem substitute_condition_eq_iff (hl : Telling lookup) :
    ∀ (node : Filter.Node) {first : Nat} {b r : List Char},
      (∀ op ∈ node.operators, ':' ∉ op.toList) →
      Serves lookup escape first (operands node) → EndsName b →
      (substitute lookup 0 ((condition first node).toList ++ b)
          = (inlinedCondition escape node).toList ++ r
        ↔ (∀ field ∈ node.fields, ¬ Mentions (Known lookup) field.toList)
          ∧ substitute lookup 0 b = r)
  | .comparison field operator none, first, b, r, hops, _, hb => by
      have hop : ':' ∉ operator.toList := hops operator (List.mem_singleton_self _)
      have hword : separates (" " ++ operator) = true := by
        have hblank : isNameChar ' ' = false := by decide
        simp [separates, hop, hblank]
      have htext : inlinedCondition escape (.comparison field operator none)
          = condition first (.comparison field operator none) := by
        unfold inlinedCondition condition
        rfl
      rw [htext, toList_condition_unary, substitute_append_eq_iff hl hb,
        mentions_append_word hword, mentions_quote]
      simp only [Filter.Node.fields, List.forall_mem_singleton]
  | .comparison field operator (some v), first, b, r, hops, hserves, hb => by
      have hop : ':' ∉ operator.toList := hops operator (List.mem_singleton_self _)
      have hword : separates (" " ++ operator ++ " ") = true := by
        have hblank : isNameChar ' ' = false := by decide
        simp [separates, hop, hblank]
      have hcut : EndsName (':' :: ((placeholder first).toList ++ b)) :=
        endsName_cons (by decide)
      have hput : substitute lookup 0 (':' :: ((placeholder first).toList ++ b))
          = (literal escape v).toList ++ substitute lookup 0 b :=
        substitute_placeholder (hserves 0 v rfl) hb
      rw [toList_condition_binary, toList_inlinedCondition_binary, List.append_assoc,
        List.cons_append, List.append_assoc _ (literal escape v).toList r,
        substitute_append_eq_iff hl hcut, mentions_append_word hword, mentions_quote, hput,
        List.append_right_inj]
      simp only [Filter.Node.fields, List.forall_mem_singleton]
  | .logical op left right, first, b, r, hops, hserves, hb => by
      rw [Filter.Node.operators, List.forall_mem_append] at hops
      have hclose : EndsName (')' :: b) := endsName_cons (by decide)
      have hright : EndsName ((condition (first + (operands left).length) right).toList
          ++ ')' :: b) := endsName_append (endsName_condition _ right) hclose
      have hword := separates_connective op
      have hleft := endsName_append (endsName_word hword) hright
      have hplain : ¬ Mentions (Known lookup) (" " ++ op.keyword ++ " ").toList :=
        not_mentions_of_no_colon (no_colon_word hword)
      rw [toList_condition_logical, toList_inlinedCondition_logical]
      simp only [List.cons_append, List.append_assoc, List.nil_append]
      rw [substitute_cons_of_ne (by decide), List.cons_inj_right,
        substitute_condition_eq_iff hl left hops.1 hserves.left hleft,
        substitute_append_eq_iff hl hright,
        substitute_condition_eq_iff hl right hops.2 hserves.right hclose,
        substitute_cons_of_ne (by decide), List.cons_inj_right]
      simp only [Filter.Node.fields, List.forall_mem_append, hplain, not_false_eq_true, true_and,
        and_assoc]

end Values

/-! ## Whole statements -/

/-- What `Statement.toSql` looks up in the statement of a query. -/
def valueTexts (escape : Value → String) (q : Select) (name : List Char) :
    Option (List Char) :=
  (q.build.values.get? (String.ofList name)).map fun v => (literal escape v).toList

theorem toSql_build (escape : Value → String) (q : Select) :
    (q.build.toSql escape).toList = substitute (valueTexts escape q) 0 q.build.sql.toList := by
  rw [Statement.toSql, String.toList_ofList]
  rfl

theorem telling_valueTexts (escape : Value → String) (q : Select) :
    Telling (valueTexts escape q) := by
  intro name text h
  obtain ⟨v, -, rfl⟩ := Option.map_eq_some_iff.mp h
  exact exists_literal_cons escape v

theorem serves_valueTexts (escape : Value → String) (q : Select) :
    Serves (valueTexts escape q) escape 1 (bound q) := by
  intro i v hv
  have hget : q.build.values.get? (placeholder (1 + i)) = some v :=
    get?_values_build.mpr ⟨i, hv, by rw [Nat.add_comm]⟩
  rw [valueTexts, String.ofList_toList, hget]
  rfl

/-- Exactly the placeholders of the operands are known. -/
theorem known_valueTexts (escape : Value → String) (q : Select) (name : List Char) :
    Known (valueTexts escape q) name ↔ IsPlaceholder (bound q).length name := by
  constructor
  · rintro ⟨-, text, h⟩
    obtain ⟨v, hv, -⟩ := Option.map_eq_some_iff.mp h
    obtain ⟨i, hi, hname⟩ := get?_values_build.mp hv
    refine ⟨i, (List.getElem?_eq_some_iff.mp hi).1, ?_⟩
    rw [← hname, String.toList_ofList]
  · rintro ⟨i, hi, rfl⟩
    rw [Nat.add_comm i]
    exact ⟨placeholder_ne_nil (1 + i), _,
      serves_valueTexts escape q i _ (List.getElem?_eq_getElem hi)⟩

theorem known_valueTexts_eq (escape : Value → String) (q : Select) :
    Known (valueTexts escape q) = IsPlaceholder (bound q).length :=
  funext fun name => propext (known_valueTexts escape q name)

theorem toSql_build_eq_iff (escape : Value → String) (q : Select)
    (hops : ∀ op ∈ q.filter.operatorTexts, ':' ∉ op.toList) :
    q.build.toSql escape = q.inlined escape
      ↔ ∀ name ∈ shownNames q, ¬ Mentions (Known (valueTexts escape q)) name.toList := by
  have hl := telling_valueTexts escape q
  have htail : substitute (valueTexts escape q) 0 (tailText q).toList = (tailText q).toList
      ↔ ∀ name ∈ q.orders.keys, ¬ Mentions (Known (valueTexts escape q)) name.toList := by
    have h := substitute_append_eq_iff (r := []) hl endsName_nil (tailText q).toList
    rw [List.append_nil, mentions_tailText] at h
    simpa [substitute] using h
  rw [← String.toList_inj, toSql_build]
  simp only [shownNames, List.forall_mem_append]
  cases hroot : q.filter.root with
  | none =>
      have hinlined : q.inlined escape = headText q ++ tailText q := by
        unfold Select.inlined
        rw [hroot]
      have hfields : q.filter.fields = [] := by
        rw [Filter.fields, hroot]
        rfl
      rw [sql_build_of_none hroot, hinlined, String.toList_append,
        substitute_append_eq_iff hl (endsName_tailText q), htail, mentions_headText, hfields]
      simp only [not_exists, not_and, List.not_mem_nil, false_imp_iff, implies_true, and_true]
  | some root =>
      have hsql : q.build.sql.toList = (headText q ++ " WHERE ").toList
          ++ ((condition 1 root).toList ++ (tailText q).toList) := by
        rw [sql_build_of_some hroot]
        simp only [String.toList_append, List.append_assoc]
      have hinlined : (q.inlined escape).toList = (headText q ++ " WHERE ").toList
          ++ ((inlinedCondition escape root).toList ++ (tailText q).toList) := by
        unfold Select.inlined
        rw [hroot]
        simp only [String.toList_append, List.append_assoc]
      have hfields : q.filter.fields = root.fields := by
        rw [Filter.fields, hroot]
        rfl
      have hserves : Serves (valueTexts escape q) escape 1 (operands root) := by
        have h := serves_valueTexts escape q
        rwa [bound, hroot] at h
      have hword : separates " WHERE " = true := by decide
      rw [Filter.operatorTexts, hroot] at hops
      rw [hsql, hinlined,
        substitute_append_eq_iff hl
          (endsName_append (endsName_condition 1 root) (endsName_tailText q)),
        substitute_condition_eq_iff hl root hops hserves (endsName_tailText q), htail,
        String.toList_append, mentions_append_word hword, mentions_headText, hfields]
      simp only [not_exists, not_and, and_assoc]

/-- Substitution gives the statement with its values in place exactly when no name that the
statement shows has a colon with one of its placeholder names behind it. -/
theorem toSql_build_eq_inlined_iff (q : Select) (escape : Value → String)
    (hops : ∀ op ∈ q.filter.operatorTexts, ':' ∉ op.toList) :
    q.build.toSql escape = q.inlined escape
      ↔ ∀ name ∈ shownNames q, ¬ Mentions (IsPlaceholder (bound q).length) name.toList := by
  rw [toSql_build_eq_iff escape q hops, known_valueTexts_eq]

/-- A longer name than that of the one placeholder is no mention, nor is any text in a
value. -/
theorem toSql_build_of_longer_name :
    let q := (Select.ofTable "t").andWhere
      (Filter.Node.ofTuple "at:value10" "=" (some (.text ":value1")))
    (∀ op ∈ q.filter.operatorTexts, ':' ∉ op.toList)
      ∧ q.build.toSql Value.key = q.inlined Value.key
      ∧ ∀ name ∈ shownNames q, ¬ Mentions (IsPlaceholder (bound q).length) name.toList := by
  refine ⟨by decide, by decide +kernel, ?_⟩
  exact (toSql_build_eq_inlined_iff _ Value.key (by decide)).mp (by decide +kernel)

/-- A table named like the placeholder of the operand: the value lands between the
back-quotes, three times over. -/
theorem toSql_build_of_placeholder_table :
    let q := (Select.ofTable ":value1").andWhere (Filter.Node.ofTuple "a" "=" (some (.int 1)))
    (∀ op ∈ q.filter.operatorTexts, ':' ∉ op.toList)
      ∧ q.build.toSql Value.key
        = "SELECT SQL_CALC_FOUND_ROWS `'1'`.* FROM `'1'` WHERE `'1'`.`a` = '1'"
      ∧ q.inlined Value.key
        = "SELECT SQL_CALC_FOUND_ROWS `:value1`.* FROM `:value1` WHERE `:value1`.`a` = '1'"
      ∧ q.build.toSql Value.key ≠ q.inlined Value.key := by
  decide +kernel

end Query

end RecordMapper
