import RecordMapper.Engine.Scripted
import RecordMapper.Proofs.Query.Replacement
import RecordMapper.Proofs.Query.Tokens

/-!
# Values in statements

What is put in for a placeholder is an operand: NULL, a literal between single quotes, or operands
in parentheses. The lexer of statements is extended by literals. In one of them a backslash takes
the next character with it, and a doubled quote is a character of the literal, so a literal ends
at the first quote that is neither.

If the engine escapes scalars in such a way that quotes and backslashes come in pairs with a
backslash in front (`Paired`), the text of a value is read as the operand that the value is
(`lexemes_literal`), whatever its scalars hold. Operands can be read in one way only, and none
begins another one (`Operand.lexemes_append_inj`). With the contents of the literals taken out,
what is left of the text is the shape of the value (`literal_closes`).
-/

namespace RecordMapper

open Text

namespace Query

/-! ## Literals -/

def apostrophe : Char := '\x27'

def backslash : Char := '\\'

/-- Quotes and backslashes stand in pairs that a backslash begins, and nowhere else. -/
inductive Paired : List Char → Prop
  | nil : Paired []
  | plain {c : Char} {cs : List Char} :
      c ≠ apostrophe → c ≠ backslash → Paired cs → Paired (c :: cs)
  | pair {c : Char} {cs : List Char} : Paired cs → Paired (backslash :: c :: cs)

/-- A scripted engine escapes in this way. -/
theorem paired_escapeText (s : String) : Paired (Script.escapeText s).toList := by
  rw [Script.escapeText, String.toList_ofList]
  induction s.toList with
  | nil => exact .nil
  | cons c cs ih =>
      rw [List.flatMap_cons]
      split
      · exact .pair ih
      · next hback =>
          split
          · exact .pair ih
          · next hquote => exact .plain hquote hback ih

/-- A token, or a literal with the text between its quotes. -/
inductive Lexeme where
  | quoted (body : String)
  | plain (token : Token)
deriving DecidableEq, Repr

/-- A lexeme without the text that stands between quotes. -/
def Lexeme.hollow : Lexeme → Lexeme
  | quoted _ => quoted ""
  | plain t => plain t

namespace Read

/-- A literal behind its first quote, up to and with its last. -/
def literalBody : Reader (List Char)
  | [] => none
  | c :: rest =>
      if c = backslash then
        match rest with
        | [] => none
        | d :: behind => (literalBody behind).map fun (cs, rest) => (backslash :: d :: cs, rest)
      else if c = apostrophe then
        match rest with
        | [] => some ([], [])
        | d :: behind =>
            if d = apostrophe then
              (literalBody behind).map fun (cs, rest) => (apostrophe :: apostrophe :: cs, rest)
            else some ([], d :: behind)
      else (literalBody rest).map fun (cs, rest) => (c :: cs, rest)

def lexeme : Reader Lexeme
  | [] => none
  | c :: rest =>
      if c = apostrophe then
        (literalBody rest).map fun (cs, rest) => (.quoted (String.ofList cs), rest)
      else (token (c :: rest)).map fun (t, rest) => (.plain t, rest)

theorem length_literalBody {cs read rest : List Char} :
    literalBody cs = some (read, rest) → rest.length < cs.length := by
  fun_induction literalBody cs generalizing read rest with
  | case1 => simp
  | case2 => simp
  | case3 => grind [Option.map_eq_some_iff]
  | case4 => simp_all
  | case5 => grind [Option.map_eq_some_iff]
  | case6 => simp_all
  | case7 => grind [Option.map_eq_some_iff]

theorem length_lexeme {cs rest : List Char} {l : Lexeme} (h : lexeme cs = some (l, rest)) :
    rest.length < cs.length := by
  cases cs with
  | nil => cases h
  | cons c cs =>
      rw [lexeme] at h
      split at h
      · obtain ⟨⟨body, behind⟩, hread, hpair⟩ := Option.map_eq_some_iff.mp h
        cases hpair
        exact Nat.lt_succ_of_lt (length_literalBody hread)
      · obtain ⟨⟨t, behind⟩, hread, hpair⟩ := Option.map_eq_some_iff.mp h
        cases hpair
        exact length_token hread

/-- A literal ends where its text was written to end, unless another quote follows. -/
theorem literalBody_paired {cs rest : List Char} (h : Paired cs)
    (hrest : rest.head? ≠ some apostrophe) :
    literalBody (cs ++ apostrophe :: rest) = some (cs, rest) := by
  have hquote : ¬ apostrophe = backslash := by decide
  induction h with
  | nil =>
      cases rest with
      | nil => simp [literalBody, hquote]
      | cons d behind =>
          have hd : ¬ d = apostrophe := fun he => hrest (congrArg some he)
          simp [literalBody, hquote, hd]
  | plain hc hb _ ih =>
      rw [List.cons_append, literalBody.eq_def]
      simp only [if_neg hc, if_neg hb, ih, Option.map_some]
  | pair _ ih =>
      rw [List.cons_append, List.cons_append, literalBody.eq_def]
      simp only [if_pos, ih, Option.map_some]

end Read

/-- The tokens and literals of a text; none if a quote of either kind is left open. -/
def lexemes : List Char → Option (List Lexeme)
  | [] => some []
  | c :: cs =>
      match _hread : Read.lexeme (c :: cs) with
      | none => none
      | some (l, rest) => (lexemes rest).map (l :: ·)
termination_by cs => cs.length
decreasing_by exact Read.length_lexeme ‹_›

theorem lexemes_of_lexeme {cs rest : List Char} {l : Lexeme}
    (h : Read.lexeme cs = some (l, rest)) : lexemes cs = (lexemes rest).map (l :: ·) := by
  cases cs with
  | nil => cases h
  | cons c cs =>
      rw [lexemes]
      split
      · next hnone => cases h.symm.trans hnone
      · next l' rest' hsome =>
          cases h.symm.trans hsome
          rfl

theorem lexemes_of_token {c : Char} {cs rest : List Char} {t : Token} (hc : c ≠ apostrophe)
    (h : Read.token (c :: cs) = some (t, rest)) :
    lexemes (c :: cs) = (lexemes rest).map (.plain t :: ·) := by
  refine lexemes_of_lexeme ?_
  rw [Read.lexeme, if_neg hc, h]
  rfl

theorem lexemes_quoted {cs rest : List Char} (h : Paired cs)
    (hrest : rest.head? ≠ some apostrophe) :
    lexemes (apostrophe :: (cs ++ apostrophe :: rest))
      = (lexemes rest).map (.quoted (String.ofList cs) :: ·) := by
  refine lexemes_of_lexeme ?_
  rw [Read.lexeme, if_pos rfl, Read.literalBody_paired h hrest]
  rfl

theorem lexemes_mark {c : Char} (hc : c ∈ marks) (rest : List Char) :
    lexemes (c :: rest) = (lexemes rest).map (.plain (.mark c) :: ·) := by
  have hne : c ≠ apostrophe := by
    rintro rfl
    exact absurd hc (by decide)
  exact lexemes_of_token hne (Read.token_mark hc rest)

theorem lexemes_blank (rest : List Char) :
    lexemes (' ' :: rest) = (lexemes rest).map (.plain .blank :: ·) :=
  lexemes_of_token (by decide) (Read.token_blank rest)

/-- The words that a value can show are no operators. -/
theorem lexemes_word {w : String} (hw : w ∈ ["NULL", "FALSE"]) {rest : List Char}
    (h : EndsName rest) :
    lexemes (w.toList ++ rest) = (lexemes rest).map (.plain (.word w) :: ·) := by
  have hword : w.toList.all isNameChar = true ∧ w.toList.head? ≠ some apostrophe
      ∧ w.toList ≠ [] := by
    revert w
    decide
  obtain ⟨hname, hhead, hne⟩ := hword
  have hop : Read.operator (w.toList ++ rest) = none := by
    rw [Read.operator, List.findSome?_eq_none_iff]
    simp only [List.mem_cons, List.not_mem_nil, or_false] at hw
    rcases hw with rfl | rfl <;> simp [Filter.operators, dropWord?]
  have htoken := Read.token_word (List.all_eq_true.mp hname) hop hne h
  obtain ⟨c, cs, hcs⟩ := List.exists_cons_of_ne_nil hne
  rw [hcs, List.cons_append] at htoken ⊢
  exact lexemes_of_token (fun hc => hhead (by rw [hcs, hc]; rfl)) htoken

/-! ## Operands -/

/-- What can stand for a placeholder, with an `α` for each literal. -/
inductive Operand (α : Type) where
  | null
  | literal (body : α)
  | list (items : List (Operand α))

namespace Operand

variable {α β : Type}

mutual

def map (f : α → β) : Operand α → Operand β
  | .null => .null
  | .literal body => .literal (f body)
  | .list items => .list (mapAll f items)
termination_by structural o => o

def mapAll (f : α → β) : List (Operand α) → List (Operand β)
  | [] => []
  | o :: rest => map f o :: mapAll f rest
termination_by structural l => l

end

mutual

/-- How an operand is written. -/
def lexemes : Operand String → List Lexeme
  | .null => [.plain (.word "NULL")]
  | .literal body => [.quoted body]
  | .list items => .plain (.mark '(') :: itemLexemes items
termination_by structural o => o

/-- A list behind its opening parenthesis. There is always something in front of the closing
one. -/
def itemLexemes : List (Operand String) → List Lexeme
  | [] => [.plain (.word "FALSE"), .plain (.mark ')')]
  | o :: rest => lexemes o ++ moreLexemes rest
termination_by structural l => l

/-- A list behind one of its items. -/
def moreLexemes : List (Operand String) → List Lexeme
  | [] => [.plain (.mark ')')]
  | o :: rest => .plain (.mark ',') :: .plain .blank :: (lexemes o ++ moreLexemes rest)
termination_by structural l => l

end

/-- An operand begins neither like the inside of a list without items nor like the end of one. -/
theorem exists_lexemes_cons (o : Operand String) : ∃ l rest, o.lexemes = l :: rest
    ∧ l ≠ .plain (.word "FALSE") ∧ l ≠ .plain (.mark ')') := by
  cases o with
  | null => exact ⟨_, _, rfl, by decide, by decide⟩
  | literal body => exact ⟨_, _, rfl, nofun, nofun⟩
  | list items => exact ⟨_, _, rfl, by decide, by decide⟩

mutual

/-- What is written of an operand never begins what is written of another one: its first lexeme
tells its kind, and the one behind a parenthesis whether a list has items. -/
theorem lexemes_append_inj : ∀ {o o' : Operand String} {ls ls' : List Lexeme},
    o.lexemes ++ ls = o'.lexemes ++ ls' → o = o' ∧ ls = ls'
  | .null, .null, _, _, h => ⟨rfl, (List.cons.inj h).2⟩
  | .literal _, .literal _, _, _, h => by
      obtain ⟨hbody, hls⟩ := List.cons.inj h
      exact ⟨by rw [Lexeme.quoted.inj hbody], hls⟩
  | .list _, .list _, _, _, h => by
      obtain ⟨rfl, hls⟩ := itemLexemes_append_inj (List.cons.inj h).2
      exact ⟨rfl, hls⟩
  | .null, .literal _, _, _, h | .null, .list _, _, _, h | .literal _, .null, _, _, h
  | .literal _, .list _, _, _, h | .list _, .null, _, _, h | .list _, .literal _, _, _, h => by
      simp [lexemes] at h

theorem itemLexemes_append_inj : ∀ {items items' : List (Operand String)} {ls ls' : List Lexeme},
    itemLexemes items ++ ls = itemLexemes items' ++ ls' → items = items' ∧ ls = ls'
  | [], [], _, _, h => by simpa [itemLexemes] using h
  | [], o' :: rest', _, _, h => by
      obtain ⟨l, more, hl, hne, -⟩ := exists_lexemes_cons o'
      simp only [itemLexemes, hl, List.cons_append, List.cons.injEq] at h
      exact absurd h.1.symm hne
  | o :: rest, [], _, _, h => by
      obtain ⟨l, more, hl, hne, -⟩ := exists_lexemes_cons o
      simp only [itemLexemes, hl, List.cons_append, List.cons.injEq] at h
      exact absurd h.1 hne
  | o :: rest, o' :: rest', _, _, h => by
      simp only [itemLexemes, List.append_assoc] at h
      obtain ⟨rfl, hrest⟩ := lexemes_append_inj h
      obtain ⟨rfl, hls⟩ := moreLexemes_append_inj hrest
      exact ⟨rfl, hls⟩

theorem moreLexemes_append_inj : ∀ {items items' : List (Operand String)} {ls ls' : List Lexeme},
    moreLexemes items ++ ls = moreLexemes items' ++ ls' → items = items' ∧ ls = ls'
  | [], [], _, _, h => ⟨rfl, (List.cons.inj h).2⟩
  | [], _ :: _, _, _, h | _ :: _, [], _, _, h => by simp [moreLexemes] at h
  | o :: rest, o' :: rest', _, _, h => by
      simp only [moreLexemes, List.cons_append, List.append_assoc, List.cons_inj_right] at h
      obtain ⟨rfl, hrest⟩ := lexemes_append_inj h
      obtain ⟨rfl, hls⟩ := moreLexemes_append_inj hrest
      exact ⟨rfl, hls⟩

end

theorem lexemes_injective : Function.Injective lexemes := by
  intro o o' h
  exact (lexemes_append_inj (congrArg (· ++ []) h)).1

/-- Two parentheses with nothing between them. -/
def emptyGroup : List Lexeme := [.plain (.mark '('), .plain (.mark ')')]

theorem emptyGroup_infix_cons_iff {l : Lexeme} {ls : List Lexeme} : emptyGroup <:+: l :: ls
    ↔ (l = .plain (.mark '(') ∧ ls.head? = some (.plain (.mark ')'))) ∨ emptyGroup <:+: ls := by
  have hhead : [Lexeme.plain (.mark ')')] <+: ls ↔ ls.head? = some (.plain (.mark ')')) := by
    cases ls with
    | nil => simp
    | cons next rest => simp [List.cons_prefix_cons, @eq_comm _ next]
  rw [List.infix_cons_iff, emptyGroup, List.cons_prefix_cons, hhead, @eq_comm _ l]

mutual

theorem not_emptyGroup_infix_lexemes : ∀ (o : Operand String) {ls : List Lexeme},
    ¬ emptyGroup <:+: ls → ¬ emptyGroup <:+: o.lexemes ++ ls
  | .null, ls, h | .literal _, ls, h => by simpa [lexemes, emptyGroup_infix_cons_iff] using h
  | .list [], ls, h => by simpa [lexemes, itemLexemes, emptyGroup_infix_cons_iff] using h
  | .list (o :: rest), ls, h => by
      have hitems := not_emptyGroup_infix_lexemes o (not_emptyGroup_infix_moreLexemes rest h)
      obtain ⟨l, more, hl, -, hne⟩ := exists_lexemes_cons o
      rw [lexemes, itemLexemes, List.cons_append, List.append_assoc, emptyGroup_infix_cons_iff,
        not_or]
      refine ⟨?_, hitems⟩
      rintro ⟨-, hhead⟩
      rw [hl, List.cons_append, List.head?_cons] at hhead
      exact hne (Option.some.inj hhead)

theorem not_emptyGroup_infix_moreLexemes : ∀ (items : List (Operand String)) {ls : List Lexeme},
    ¬ emptyGroup <:+: ls → ¬ emptyGroup <:+: moreLexemes items ++ ls
  | [], ls, h => by simpa [moreLexemes, emptyGroup_infix_cons_iff] using h
  | o :: rest, ls, h => by
      have hitems := not_emptyGroup_infix_lexemes o (not_emptyGroup_infix_moreLexemes rest h)
      simpa [moreLexemes, emptyGroup_infix_cons_iff] using hitems

end

mutual

theorem map_hollow_lexemes : ∀ o : Operand String,
    o.lexemes.map Lexeme.hollow = (o.map fun _ => "").lexemes
  | .null | .literal _ | .list [] => rfl
  | .list (o :: rest) => by
      rw [lexemes, itemLexemes, List.map_cons, List.map_append, map_hollow_lexemes o,
        map_hollow_moreLexemes rest, map, mapAll, lexemes, itemLexemes]
      rfl

theorem map_hollow_moreLexemes : ∀ items : List (Operand String),
    (moreLexemes items).map Lexeme.hollow = moreLexemes (mapAll (fun _ => "") items)
  | [] => rfl
  | o :: rest => by
      rw [moreLexemes, List.map_cons, List.map_cons, List.map_append, map_hollow_lexemes o,
        map_hollow_moreLexemes rest, mapAll, moreLexemes]
      rfl

end

end Operand

/-- The structure of a text outside of its literals. -/
def outline (cs : List Char) : Option (List Lexeme) :=
  (lexemes cs).map fun ls => ls.map Lexeme.hollow

end Query

open Query

namespace Value

/-! ## Values as operands -/

mutual

/-- The scalars of a value, also those inside lists, from left to right. -/
def scalars : Value → List Value
  | .null => []
  | .list items => scalarsAmong items
  | v => [v]
termination_by structural v => v

def scalarsAmong : List Value → List Value
  | [] => []
  | v :: rest => scalars v ++ scalarsAmong rest
termination_by structural l => l

end

section

variable {α β : Type}

mutual

/-- The operand that a value is, with its scalars written in some way. -/
def operand (write : Value → α) : Value → Operand α
  | .null => .null
  | .list items => .list (operandAll write items)
  | v => .literal (write v)
termination_by structural v => v

def operandAll (write : Value → α) : List Value → List (Operand α)
  | [] => []
  | v :: rest => operand write v :: operandAll write rest
termination_by structural l => l

end

/-- The nulls, scalars and lists of a value; of its scalars only that they are there. -/
def shape : Value → Operand Unit := operand fun _ => ()

mutual

theorem map_operand (f : α → β) (write : Value → α) : ∀ v : Value,
    (v.operand write).map f = v.operand (f ∘ write)
  | .null | .bool _ | .int _ | .float _ | .text _ => rfl
  | .list items => by rw [operand, Operand.map, mapAll_operandAll f write items, operand]

theorem mapAll_operandAll (f : α → β) (write : Value → α) : ∀ items : List Value,
    Operand.mapAll f (operandAll write items) = operandAll (f ∘ write) items
  | [] => rfl
  | v :: rest => by
      rw [operandAll, Operand.mapAll, map_operand f write v, mapAll_operandAll f write rest,
        operandAll]

end

/-- Written all alike, scalars tell no more than the shape. -/
theorem operand_const_eq_iff (mark : α) {v v' : Value} :
    (v.operand fun _ => mark) = (v'.operand fun _ => mark) ↔ v.shape = v'.shape := by
  have hshape : ∀ w : Value, (w.operand fun _ => mark).map (fun _ => ()) = w.shape :=
    fun w => map_operand _ _ w
  have hmark : ∀ w : Value, w.shape.map (fun _ => mark) = w.operand fun _ => mark :=
    fun w => map_operand _ _ w
  constructor
  · intro h
    rw [← hshape, h, hshape]
  · intro h
    rw [← hmark, h, hmark]

end

end Value

namespace Query

/-! ## The text of a value -/

variable {escape : Value → String} {rest : List Char}

/-- The text goes on neither with a word nor with a literal that it follows. -/
def EndsOperand (rest : List Char) : Prop :=
  ∀ c, rest.head? = some c → isNameChar c = false ∧ c ≠ apostrophe

theorem endsOperand_nil : EndsOperand [] := by
  intro c h
  cases h

theorem endsOperand_cons {c : Char} (hname : isNameChar c = false) (hc : c ≠ apostrophe)
    (cs : List Char) : EndsOperand (c :: cs) := by
  intro d hd
  obtain rfl : c = d := Option.some.inj hd
  exact ⟨hname, hc⟩

theorem EndsOperand.endsName (h : EndsOperand rest) : EndsName rest :=
  fun c hc => (h c hc).1

theorem EndsOperand.head?_ne_apostrophe (h : EndsOperand rest) : rest.head? ≠ some apostrophe :=
  fun hc => (h apostrophe hc).2 rfl

theorem toList_literal_list (v : Value) (items : List Value) :
    (literal escape (.list (v :: items))).toList
      = '(' :: ((literal escape v).toList ++ ((literalRest escape items).toList ++ [')'])) := by
  have hopen : "(".toList = ['('] := by decide
  have hclose : ")".toList = [')'] := by decide
  rw [literal]
  simp only [String.toList_append, hopen, hclose, List.append_assoc, List.cons_append,
    List.nil_append]

theorem toList_literalRest_cons (v : Value) (items : List Value) :
    (literalRest escape (v :: items)).toList
      = ',' :: ' ' :: ((literal escape v).toList ++ (literalRest escape items).toList) := by
  have hcomma : ", ".toList = [',', ' '] := by decide
  rw [literalRest]
  simp only [String.toList_append, hcomma, List.cons_append, List.nil_append]

/-- Behind the first item of a list stands a comma or the end of the list. -/
theorem endsOperand_literalRest (items : List Value) (rest : List Char) :
    EndsOperand ((literalRest escape items).toList ++ ')' :: rest) := by
  cases items with
  | nil =>
      rw [literalRest]
      exact endsOperand_cons (by decide) (by decide) rest
  | cons v items =>
      rw [toList_literalRest_cons]
      exact endsOperand_cons (by decide) (by decide) _

theorem lexemes_scalar {text : String} (h : Paired text.toList) (hrest : EndsOperand rest) :
    lexemes (("'" ++ text ++ "'").toList ++ rest) = (lexemes rest).map (.quoted text :: ·) := by
  have hquote : "'".toList = [apostrophe] := by decide
  have hread := lexemes_quoted h hrest.head?_ne_apostrophe
  rw [String.ofList_toList] at hread
  rw [← hread]
  simp only [String.toList_append, hquote, List.append_assoc, List.cons_append, List.nil_append]

mutual

/-- A value is read as one operand, and nothing of what follows is. -/
theorem lexemes_literal : ∀ (v : Value) {rest : List Char},
    (∀ x ∈ v.scalars, Paired (escape x).toList) → EndsOperand rest →
      lexemes ((literal escape v).toList ++ rest)
        = (lexemes rest).map ((v.operand escape).lexemes ++ ·)
  | .null, rest, _, hrest => by
      rw [literal]
      exact lexemes_word (by decide) hrest.endsName
  | .bool b, rest, h, hrest => lexemes_scalar (h _ (List.mem_singleton_self _)) hrest
  | .int i, rest, h, hrest => lexemes_scalar (h _ (List.mem_singleton_self _)) hrest
  | .float x, rest, h, hrest => lexemes_scalar (h _ (List.mem_singleton_self _)) hrest
  | .text s, rest, h, hrest => lexemes_scalar (h _ (List.mem_singleton_self _)) hrest
  | .list [], rest, _, _ => by
      have htext : (literal escape (.list [])).toList ++ rest
          = '(' :: ("FALSE".toList ++ ')' :: rest) := by
        rw [literal]
        rfl
      rw [htext, lexemes_mark (by decide), lexemes_word (by decide) (endsName_cons (by decide)),
        lexemes_mark (by decide), Option.map_map, Option.map_map]
      rfl
  | .list (v :: items), rest, h, _ => by
      rw [Value.scalars, Value.scalarsAmong, List.forall_mem_append] at h
      -- each item is read to its end, since a comma or a parenthesis follows
      rw [toList_literal_list, List.cons_append, List.append_assoc, List.append_assoc,
        List.singleton_append, lexemes_mark (by decide),
        lexemes_literal v h.1 (endsOperand_literalRest items rest),
        lexemes_literalRest items h.2, Option.map_map, Option.map_map]
      refine congrArg (fun f => (lexemes rest).map f) (funext fun ls => ?_)
      rw [Value.operand, Value.operandAll, Operand.lexemes, Operand.itemLexemes, List.cons_append,
        List.append_assoc]
      rfl

/-- The items of a list after the first are read to the end of the list. -/
theorem lexemes_literalRest : ∀ (items : List Value) {rest : List Char},
    (∀ x ∈ Value.scalarsAmong items, Paired (escape x).toList) →
      lexemes ((literalRest escape items).toList ++ ')' :: rest)
        = (lexemes rest).map (Operand.moreLexemes (Value.operandAll escape items) ++ ·)
  | [], rest, _ => lexemes_mark (by decide) rest
  | v :: items, rest, h => by
      rw [Value.scalarsAmong, List.forall_mem_append] at h
      rw [toList_literalRest_cons, List.cons_append, List.cons_append, List.append_assoc,
        lexemes_mark (by decide), lexemes_blank,
        lexemes_literal v h.1 (endsOperand_literalRest items rest),
        lexemes_literalRest items h.2, Option.map_map, Option.map_map, Option.map_map]
      refine congrArg (fun f => (lexemes rest).map f) (funext fun ls => ?_)
      rw [Value.operandAll, Operand.moreLexemes, List.cons_append, List.cons_append,
        List.append_assoc]
      rfl

end

/-- Read alone, the text of a value is one operand. -/
theorem lexemes_literal_alone {v : Value} (h : ∀ x ∈ v.scalars, Paired (escape x).toList) :
    lexemes (literal escape v).toList = some (v.operand escape).lexemes := by
  have hread := lexemes_literal v h endsOperand_nil
  rw [List.append_nil, lexemes, Option.map_some, List.append_nil] at hread
  exact hread

theorem outline_literal {v : Value} (h : ∀ x ∈ v.scalars, Paired (escape x).toList) :
    outline (literal escape v).toList = some (v.operand fun _ => "").lexemes := by
  rw [outline, lexemes_literal_alone h, Option.map_some, Operand.map_hollow_lexemes,
    Value.map_operand]
  rfl

/-! ## Values in their places -/

/-- The text goes on neither with the name of a placeholder nor with a literal, and no other
placeholder stands at its beginning. -/
def EndsPlaceholder (after : List Char) : Prop :=
  EndsOperand after ∧ after.head? ≠ some ':'

theorem EndsPlaceholder.endsOperand_substitute {lookup : List Char → Option (List Char)}
    {after : List Char} (h : EndsPlaceholder after) :
    EndsOperand (substitute lookup 0 after) := by
  cases after with
  | nil => exact endsOperand_nil
  | cons c rest =>
      have hc : c ≠ ':' := fun hc => h.2 (congrArg some hc)
      rw [substitute_cons_of_ne hc]
      exact endsOperand_cons (h.1 c rfl).1 (h.1 c rfl).2 _

/-- The value of a placeholder stands between what the text in front of it and the text behind
it give. -/
theorem toSql_placeholder (escape : Value → String) {values : OrderedMap Value} {name : String}
    {v : Value} (hfiled : values.get? name = some v) (hne : name ≠ "")
    (hname : ∀ c ∈ name.toList, isNameChar c = true) (before : String) {after : String}
    (hafter : EndsName after.toList) :
    Statement.toSql escape ⟨before ++ ":" ++ name ++ after, values⟩
      = Statement.toSql escape ⟨before, values⟩ ++ literal escape v
        ++ Statement.toSql escape ⟨after, values⟩ := by
  -- the names that are known do not depend on the text
  let lookup := Statement.valueText? escape ⟨after, values⟩
  have hfound : lookup name.toList = some (literal escape v).toList := by
    simp only [lookup, Statement.valueText?, String.ofList_toList, hfiled, Option.map_some]
  have hcut : EndsName (':' :: (name.toList ++ after.toList)) := endsName_cons (by decide)
  have hnonempty : name.toList ≠ [] := fun h => hne (String.toList_eq_nil_iff.mp h)
  have hcolon : ":".toList = [':'] := by decide
  have hsql : (before ++ ":" ++ name ++ after).toList
      = before.toList ++ ':' :: (name.toList ++ after.toList) := by
    simp only [String.toList_append, hcolon, List.append_assoc, List.cons_append, List.nil_append]
  have hscan : substitute lookup 0 (before.toList ++ ':' :: (name.toList ++ after.toList))
      = substitute lookup 0 before.toList
        ++ ((literal escape v).toList ++ substitute lookup 0 after.toList) := by
    rw [substitute_append hcut, substitute_name hname hnonempty hfound hafter]
  rw [← String.toList_inj, String.toList_append, String.toList_append, List.append_assoc]
  simp only [Statement.toList_toSql, hsql]
  exact hscan

/-- The text of a value, for every way to escape a scalar that pairs the quotes and backslashes.

It is read as an operand and as no other one, and the operand is all of it: the value with the
escaped scalars as literals. A list in it is never written as two bare parentheses. The same is
read of it before any text that goes on with neither a word nor a literal. With the contents of
the literals taken out, the texts of two values are the same exactly if the values have the
same shape, whatever their scalars are and in whatever way each is escaped.

In a statement the text takes the place of a placeholder, whatever stands in front of it and behind
it, and what comes behind it is such a text unless a quote or another placeholder follows at
once. -/
theorem literal_closes {escape : Value → String} {v : Value}
    (h : ∀ x ∈ v.scalars, Paired (escape x).toList) :
    (∀ o ls, lexemes (literal escape v).toList = some (o.lexemes ++ ls)
        ↔ o = v.operand escape ∧ ls = [])
      ∧ ¬ Operand.emptyGroup <:+: (v.operand escape).lexemes
      ∧ (∀ rest, EndsOperand rest → lexemes ((literal escape v).toList ++ rest)
          = (lexemes rest).map ((v.operand escape).lexemes ++ ·))
      ∧ (∀ (escape' : Value → String) (v' : Value),
          (∀ x ∈ v'.scalars, Paired (escape' x).toList) →
            (outline (literal escape' v').toList = outline (literal escape v).toList
              ↔ v'.shape = v.shape))
      ∧ ∀ (values : OrderedMap Value) (name before after : String),
          values.get? name = some v → name ≠ "" → (∀ c ∈ name.toList, isNameChar c = true) →
          EndsName after.toList →
            Statement.toSql escape ⟨before ++ ":" ++ name ++ after, values⟩
                = Statement.toSql escape ⟨before, values⟩ ++ literal escape v
                  ++ Statement.toSql escape ⟨after, values⟩
              ∧ (EndsPlaceholder after.toList →
                EndsOperand (Statement.toSql escape ⟨after, values⟩).toList) := by
  refine ⟨fun o ls => ?_, ?_, fun rest hrest => lexemes_literal v h hrest,
    fun escape' v' h' => ?_, fun values name before after hfiled hne hname hafter => ?_⟩
  · rw [lexemes_literal_alone h, Option.some.injEq]
    constructor
    · intro heq
      rw [← List.append_nil (v.operand escape).lexemes] at heq
      obtain ⟨ho, hls⟩ := Operand.lexemes_append_inj heq
      exact ⟨ho.symm, hls.symm⟩
    · rintro ⟨rfl, rfl⟩
      rw [List.append_nil]
  · have hnil : ¬ Operand.emptyGroup <:+: [] := by decide
    simpa using Operand.not_emptyGroup_infix_lexemes (v.operand escape) hnil
  · rw [outline_literal h, outline_literal h', Option.some.injEq,
      Operand.lexemes_injective.eq_iff, Value.operand_const_eq_iff]
  · refine ⟨toSql_placeholder escape hfiled hne hname before hafter, fun hends => ?_⟩
    rw [Statement.toList_toSql]
    exact hends.endsOperand_substitute

/-- Quotes, backslashes, parentheses and commas in the texts of a list, and lists without items in
it. Another list of the same shape shows the same structure, and in a statement the words behind
the placeholder stay behind the list. -/
theorem literal_closes_of_hostile :
    let escape := Script.engine.escape
    let v : Value := .list [.text "a\\', NULL), ('", .null, .list [], .list [.text "\\", .int 7]]
    let v' : Value := .list [.text "", .null, .list [], .list [.bool true, .text "(FALSE)"]]
    let values : OrderedMap Value := .ofList [("value1", v), ("value10", v')]
    (∀ x ∈ v.scalars, Paired (escape x).toList) ∧ (∀ x ∈ v'.scalars, Paired (escape x).toList)
      ∧ literal escape v = "('a\\\\\\', NULL), (\\'', NULL, (FALSE), ('\\\\', '7'))"
      ∧ literal escape v' = "('', NULL, (FALSE), ('true', '(FALSE)'))"
      ∧ lexemes (literal escape v).toList = some (v.operand escape).lexemes
      ∧ ¬ Operand.emptyGroup <:+: (v.operand escape).lexemes
      ∧ outline (literal escape v').toList = outline (literal escape v).toList
      ∧ Statement.toSql escape ⟨"`a` IN :value1 OR `b` IN :value10", values⟩
        = "`a` IN " ++ literal escape v ++ " OR `b` IN ('', NULL, (FALSE), ('true', '(FALSE)'))"
      ∧ EndsOperand (Statement.toSql escape ⟨" OR `b` IN :value10", values⟩).toList := by
  intro escape v v' values
  have h : ∀ x ∈ v.scalars, Paired (escape x).toList := fun x _ => paired_escapeText x.key
  have h' : ∀ x ∈ v'.scalars, Paired (escape x).toList := fun x _ => paired_escapeText x.key
  obtain ⟨hread, hempty, -, houtline, hplace⟩ := literal_closes h
  have hafter : EndsPlaceholder " OR `b` IN :value10".toList :=
    ⟨endsOperand_cons (by decide) (by decide) _, by decide⟩
  obtain ⟨hsql, hends⟩ := hplace values "value1" "`a` IN " " OR `b` IN :value10" rfl
    (by decide) (List.all_eq_true.mp rfl) hafter.1.endsName
  have hbehind : Statement.toSql escape ⟨" OR `b` IN :value10", values⟩
      = " OR `b` IN ('', NULL, (FALSE), ('true', '(FALSE)'))" := by decide +kernel
  have hfront : Statement.toSql escape ⟨"`a` IN ", values⟩ = "`a` IN " := by decide +kernel
  rw [hbehind, hfront] at hsql
  refine ⟨h, h', by decide +kernel, by decide +kernel, ?_, hempty, (houtline escape v' h').mpr rfl,
    hsql, hends hafter⟩
  simpa using (hread (v.operand escape) []).mpr ⟨rfl, rfl⟩

-- scalars that are not escaped can make two items of one
example : literal Value.key (.list [.text "a', 'b"])
    = literal Value.key (.list [.text "a", .text "b"]) := by
  decide +kernel

end Query

end RecordMapper
