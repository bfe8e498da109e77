import RecordMapper.Proofs.Query.Reading

/-!
# Statements as tokens

A lexer that knows back-quotes and no more of the grammar than the spelling of the
accepted operators. Outside of identifiers it takes whatever it finds: runs of name
characters are words, and a character that nothing else begins with is a mark. So
what stands outside of identifiers in a text shows in its tokens.

Each token is read off its own text if what follows cannot go on with it. A list of
tokens of which this holds throughout (`Readable`) is what the lexer makes of its
text (`lex_of_readable`), and the parts of a statement are such lists.
-/

namespace RecordMapper.Query

open Text

inductive Token where
  | blank
  /-- A quoted identifier, all its parts. -/
  | identifier (name : String)
  | operator (op : String)
  /-- A run of letters, digits and underscores. -/
  | word (text : String)
  /-- A colon with the run of name characters behind it. -/
  | placeholder (name : String)
  | mark (c : Char)
deriving DecidableEq, Repr

namespace Token

def text : Token → List Char
  | blank => [' ']
  | identifier name => (quote name).toList
  | operator op => op.toList
  | word w => w.toList
  | placeholder name => ':' :: name.toList
  | mark c => [c]

end Token

/-- The words of a statement before its bounds. -/
def keywords : List String :=
  ["SELECT", "SQL_CALC_FOUND_ROWS", "FROM", "WHERE", "AND", "OR", "ORDER", "BY", "ASC", "DESC"]

def marks : List Char := ['.', '*', ',', '(', ')']

namespace Read

/-! ## The lexer -/

def token : Reader Token
  | [] => none
  | c :: rest =>
      if c = backquote then
        (identifier (c :: rest)).map fun (name, rest) => (.identifier name, rest)
      else if c = ' ' then some (.blank, rest)
      else if c = ':' then
        some (.placeholder (String.ofList (rest.takeWhile isNameChar)),
          rest.dropWhile isNameChar)
      else
        match operator (c :: rest) with
        | some (op, rest) => some (.operator op, rest)
        | none =>
            if isNameChar c then
              some (.word (String.ofList ((c :: rest).takeWhile isNameChar)),
                (c :: rest).dropWhile isNameChar)
            else some (.mark c, rest)

theorem length_dropWord? : ∀ {word cs rest : List Char}, dropWord? word cs = some rest →
    rest.length + word.length = cs.length
  | [], cs, rest, h => by
      cases h
      rfl
  | w :: word, [], rest, h => by
      cases h
  | w :: word, c :: cs, rest, h => by
      rw [dropWord?] at h
      split at h
      · have ih := length_dropWord? h
        simp only [List.length_cons]
        omega
      · cases h

theorem length_operator {cs rest : List Char} {op : String} (h : operator cs = some (op, rest)) :
    rest.length < cs.length := by
  have hlong : ∀ op ∈ Filter.operators, 0 < op.toList.length := by decide
  obtain ⟨op', hop, hread⟩ := List.exists_of_findSome?_eq_some h
  split at hread
  · next rest' hdrop =>
      have hlength := length_dropWord? hdrop
      have hpos := hlong op' hop
      split at hread
      · cases hread
        omega
      · cases hread
  · cases hread

theorem length_identifierRest {cs name rest : List Char} :
    identifierRest cs = some (name, rest) → rest.length < cs.length := by
  fun_induction identifierRest cs generalizing name rest with
  | case1 => simp
  | case2 => simp_all
  | case4 => simp_all
  | case6 => simp_all
  | case3 => grind [Option.map_eq_some_iff]
  | case5 => grind [Option.map_eq_some_iff]
  | case7 => grind [Option.map_eq_some_iff]

theorem length_token {cs rest : List Char} {t : Token} (h : token cs = some (t, rest)) :
    rest.length < cs.length := by
  cases cs with
  | nil => cases h
  | cons c cs =>
      have hrun := (List.dropWhile_sublist isNameChar : (cs.dropWhile isNameChar).Sublist cs).length_le
      rw [token] at h
      split at h
      · obtain ⟨⟨name, rest'⟩, hread, hpair⟩ := Option.map_eq_some_iff.mp h
        cases hpair
        rw [identifier, if_pos ‹_›] at hread
        obtain ⟨⟨name', rest'⟩, hread, hpair⟩ := Option.map_eq_some_iff.mp hread
        cases hpair
        have hlength := length_identifierRest hread
        simp only [List.length_cons]
        omega
      · split at h
        · cases h
          simp
        · split at h
          · cases h
            simp only [List.length_cons]
            omega
          · split at h
            · next hread =>
                cases h
                exact length_operator hread
            · split at h
              · next hname =>
                  cases h
                  rw [List.dropWhile_cons_of_pos hname]
                  simp only [List.length_cons]
                  omega
              · cases h
                simp

end Read

/-- The tokens of a text; none if a back-quote is left open. -/
def lex : List Char → Option (List Token)
  | [] => some []
  | c :: cs =>
      match _hread : Read.token (c :: cs) with
      | none => none
      | some (t, rest) => (lex rest).map (t :: ·)
termination_by cs => cs.length
decreasing_by exact Read.length_token ‹_›

theorem lex_of_token {cs rest : List Char} {t : Token} (h : Read.token cs = some (t, rest)) :
    lex cs = (lex rest).map (t :: ·) := by
  cases cs with
  | nil => cases h
  | cons c cs =>
      rw [lex]
      split
      · next hnone =>
          rw [h] at hnone
          cases hnone
      · next t' rest' hsome =>
          rw [h] at hsome
          cases hsome
          rfl

/-! ## Readable lists -/

/-- Every token is read off its text before the text of those behind it. -/
def Readable : List Token → Prop
  | [] => True
  | t :: ts =>
      Read.token (t.text ++ ts.flatMap Token.text) = some (t, ts.flatMap Token.text)
        ∧ Readable ts

theorem lex_of_readable : ∀ {ts : List Token}, Readable ts → lex (ts.flatMap Token.text) = some ts
  | [], _ => by
      rw [List.flatMap_nil, lex]
  | t :: ts, h => by
      rw [List.flatMap_cons, lex_of_token h.1, lex_of_readable h.2]
      rfl

namespace Read

/-- No operator starts with the character. -/
theorem operator_eq_none {c : Char} (h : ∀ op ∈ Filter.operators, op.toList.head? ≠ some c)
    (cs : List Char) : operator (c :: cs) = none := by
  rw [operator, List.findSome?_eq_none_iff]
  intro op hop
  have hhead := h op hop
  have hne : op.toList ≠ [] := by
    have hall : ∀ op ∈ Filter.operators, op.toList ≠ [] := by decide
    exact hall op hop
  obtain ⟨d, ds, hds⟩ := List.exists_cons_of_ne_nil hne
  rw [hds] at hhead ⊢
  have hd : ¬ d = c := by simpa using hhead
  simp [dropWord?, hd]

theorem token_blank (rest : List Char) : token (' ' :: rest) = some (.blank, rest) := by
  have hback : ¬ ' ' = backquote := by decide
  simp [token, hback]

theorem token_identifier (name : String) {rest : List Char} (h : EndsIdentifier rest) :
    token ((quote name).toList ++ rest) = some (.identifier name, rest) := by
  have hread := identifier_quote name h
  rw [toList_quote, List.cons_append] at hread ⊢
  rw [token, if_pos rfl, hread]
  rfl

theorem token_placeholder (number : Nat) {rest : List Char} (h : EndsName rest) :
    token (':' :: ((placeholder number).toList ++ rest))
      = some (.placeholder (placeholder number), rest) := by
  have hback : ¬ ':' = backquote := by decide
  have hread := operand_placeholder number h
  simp only [operand, dropWord?, if_pos, Prod.mk.injEq, Option.some.injEq] at hread
  simp [token, hback, hread]

theorem token_operator {op : String} (hop : op ∈ Filter.operators) {rest : List Char}
    (h : endsOperator rest = true) : token (op.toList ++ rest) = some (.operator op, rest) := by
  have hheads : ∀ op ∈ Filter.operators, ∃ c cs, op.toList = c :: cs
      ∧ c ≠ backquote ∧ c ≠ ' ' ∧ c ≠ ':' := by
    simp only [Filter.operators, List.forall_mem_cons]
    refine ⟨?_, ?_, ?_, ?_, ?_, ?_, ?_, ?_, ?_, ?_, ?_, ?_, ?_, by simp⟩ <;>
      exact ⟨_, _, rfl, by decide, by decide, by decide⟩
  have hread := operator_append hop h
  obtain ⟨c, cs, hcs, hback, hblank, hcolon⟩ := hheads op hop
  rw [hcs, List.cons_append] at hread ⊢
  rw [token, if_neg hback, if_neg hblank, if_neg hcolon, hread]

theorem token_word {w : String} (hname : ∀ c ∈ w.toList, isNameChar c = true)
    {rest : List Char} (hop : operator (w.toList ++ rest) = none) (hne : w.toList ≠ [])
    (h : EndsName rest) : token (w.toList ++ rest) = some (.word w, rest) := by
  obtain ⟨c, cs, hcs⟩ := List.exists_cons_of_ne_nil hne
  have hc : isNameChar c = true := hname c (hcs ▸ List.mem_cons_self)
  have hback : ¬ c = backquote := by
    rintro rfl
    exact absurd hc (by decide)
  have hblank : ¬ c = ' ' := by
    rintro rfl
    exact absurd hc (by decide)
  have hcolon : ¬ c = ':' := by
    rintro rfl
    exact absurd hc (by decide)
  have htake := takeWhile_name hname h
  have hdrop : (w.toList ++ rest).dropWhile isNameChar = rest := by
    rw [List.dropWhile_append_of_pos hname]
    cases rest with
    | nil => rfl
    | cons d rest => rw [List.dropWhile_cons_of_neg (by simp [h d rfl])]
  rw [hcs, List.cons_append] at hop htake hdrop ⊢
  rw [token, if_neg hback, if_neg hblank, if_neg hcolon, hop]
  simp only [if_pos hc, htake, hdrop, ← hcs, String.ofList_toList]

theorem token_mark {c : Char} (hc : c ∈ marks) (rest : List Char) :
    token (c :: rest) = some (.mark c, rest) := by
  have hall : (marks.all fun c => decide (¬ c = backquote ∧ ¬ c = ' ' ∧ ¬ c = ':'
      ∧ ¬ isNameChar c = true ∧ ∀ op ∈ Filter.operators, op.toList.head? ≠ some c)) = true := by
    decide
  obtain ⟨hback, hblank, hcolon, hname, hhead⟩ :=
    of_decide_eq_true (List.all_eq_true.mp hall c hc)
  rw [token, if_neg hback, if_neg hblank, if_neg hcolon, operator_eq_none hhead]
  simp only [if_neg hname]

theorem token_keyword {w : String} (hw : w ∈ keywords) {rest : List Char} (h : EndsName rest) :
    token (w.toList ++ rest) = some (.word w, rest) := by
  have hall : ∀ w ∈ keywords, w.toList.all isNameChar = true ∧ w.toList ≠ []
      ∧ ∀ op ∈ Filter.operators, op.toList.head? ≠ w.toList.head? := by
    decide
  obtain ⟨hname, hne, hhead⟩ := hall w hw
  refine token_word (List.all_eq_true.mp hname) ?_ hne h
  obtain ⟨c, cs, hcs⟩ := List.exists_cons_of_ne_nil hne
  rw [hcs] at hhead ⊢
  exact operator_eq_none hhead _

theorem token_number (n : Nat) {rest : List Char} (h : EndsName rest) :
    token (n.repr.toList ++ rest) = some (.word n.repr, rest) := by
  have hdigits : ∀ c ∈ n.repr.toList, c.isDigit = true := by
    rw [Nat.toList_repr]
    exact fun c hc => Nat.isDigit_of_mem_toDigits (by decide) (by decide) hc
  have hne : n.repr.toList ≠ [] := by
    rw [Nat.toList_repr]
    exact Nat.toDigits_ne_nil
  refine token_word (fun c hc => isNameChar_of_isDigit (hdigits c hc)) ?_ hne h
  obtain ⟨c, cs, hcs⟩ := List.exists_cons_of_ne_nil hne
  have hc : c.isDigit = true := hdigits c (hcs ▸ List.mem_cons_self)
  have hheads : ∀ op ∈ Filter.operators, op.toList.head?.any Char.isDigit = false := by decide
  rw [hcs]
  refine operator_eq_none (fun op hop hhead => ?_) _
  have hnot := hheads op hop
  rw [hhead, Option.any_some, hc] at hnot
  cases hnot

end Read

/-! ## The tokens of a condition -/

def conditionTokens (first : Nat) : Filter.Node → List Token
  | .comparison field operator none => [.identifier field, .blank, .operator operator]
  | .comparison field operator (some _) =>
      [.identifier field, .blank, .operator operator, .blank, .placeholder (placeholder first)]
  | .logical op left right =>
      .mark '(' :: (conditionTokens first left ++ .blank :: .word op.keyword :: .blank ::
        (conditionTokens (first + (operands left).length) right ++ [.mark ')']))

theorem text_conditionTokens : ∀ (node : Filter.Node) (first : Nat),
    (conditionTokens first node).flatMap Token.text = (condition first node).toList
  | .comparison field operator none, first => by
      rw [toList_condition_unary]
      simp [conditionTokens, Token.text]
  | .comparison field operator (some v), first => by
      rw [toList_condition_binary]
      simp [conditionTokens, Token.text]
  | .logical op left right, first => by
      have hleft := text_conditionTokens left first
      have hright := text_conditionTokens right (first + (operands left).length)
      rw [toList_condition_logical]
      simp [conditionTokens, Token.text, hleft, hright]

/-- What the text of the tokens behind a condition has to be like. -/
def Ends (ts : List Token) : Prop := Read.EndsCondition (ts.flatMap Token.text)

/-- A condition is readable before anything that ends it. -/
theorem readable_condition : ∀ (node : Filter.Node) {first : Nat} {after : List Token},
    (∀ op ∈ node.operators, op ∈ Filter.operators) → Ends after → Readable after →
      Readable (conditionTokens first node ++ after)
  | .comparison field op none, first, after, hops, hends, hafter => by
      have hfield : ∀ rest, Read.EndsIdentifier (' ' :: rest) :=
        fun rest => Read.endsIdentifier_of_head (by decide) (by decide)
      have hop := hops op (List.mem_singleton_self _)
      exact ⟨Read.token_identifier field (hfield _), Read.token_blank _,
        Read.token_operator hop hends.endsOperator, hafter⟩
  | .comparison field op (some v), first, after, hops, hends, hafter => by
      have hfield : ∀ rest, Read.EndsIdentifier (' ' :: rest) :=
        fun rest => Read.endsIdentifier_of_head (by decide) (by decide)
      have hop := hops op (List.mem_singleton_self _)
      exact ⟨Read.token_identifier field (hfield _), Read.token_blank _,
        Read.token_operator hop rfl, Read.token_blank _,
        Read.token_placeholder first hends.endsName, hafter⟩
  | .logical op left right, first, after, hops, hends, hafter => by
      rw [Filter.Node.operators, List.forall_mem_append] at hops
      let closed := conditionTokens (first + (operands left).length) right ++ .mark ')' :: after
      have hends' : Ends (.mark ')' :: after) := .close _
      have hright : Readable closed :=
        readable_condition right hops.2 hends' ⟨Read.token_mark (by decide) _, hafter⟩
      have hword : op.keyword ∈ keywords := by cases op <;> decide
      have hmiddle : Readable (.blank :: .word op.keyword :: .blank :: closed) :=
        ⟨Read.token_blank _, Read.token_keyword hword (endsName_cons (by decide)),
          Read.token_blank _, hright⟩
      have hop : Ends (.blank :: .word op.keyword :: .blank :: closed) := by
        cases op with
        | and => exact .blank _ (by decide)
        | or => exact .blank _ (by decide)
      have hleft : Readable (conditionTokens first left ++ .blank :: .word op.keyword :: .blank
          :: closed) :=
        readable_condition left hops.1 hop hmiddle
      refine ⟨Read.token_mark (by decide) _, ?_⟩
      simpa [conditionTokens, closed] using hleft

end RecordMapper.Query
