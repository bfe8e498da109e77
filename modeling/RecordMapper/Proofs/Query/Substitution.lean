import RecordMapper.Query.Statement

/-!
# What substitution reaches

`substitute` scans a text once, and what it puts in is not scanned. So a text can
be cut into pieces, and each piece is left as it stands or changed on its own,
as long as no cut goes through a name: the piece behind the cut must not start
with a name character (`EndsName`).

A piece that is meant to stay is left alone exactly when no colon in it has a
known name behind it (`Mentions`). The converse needs one fact about what is put
in: it never starts with a colon, so at the first colon that is replaced the
texts already differ. `substitute_append_eq_iff` states both directions at once
and is what the comparison of whole statements is folded from.
-/

namespace RecordMapper.Query

/-! ## Cuts between names -/

/-- The text can stand behind a name without making it longer. -/
def EndsName (cs : List Char) : Prop :=
  ∀ c, cs.head? = some c → isNameChar c = false

theorem endsName_nil : EndsName [] := by
  intro c h
  cases h

theorem endsName_cons {c : Char} {cs : List Char} (h : isNameChar c = false) :
    EndsName (c :: cs) := by
  intro d hd
  obtain rfl : c = d := Option.some.inj hd
  exact h

theorem EndsName.takeWhile_eq_nil {cs : List Char} (h : EndsName cs) :
    cs.takeWhile isNameChar = [] := by
  cases cs with
  | nil => rfl
  | cons c rest => simp [h c rfl]

/-- The name at the start of a text ends at a cut. -/
theorem takeWhile_append_of_endsName {b : List Char} (hb : EndsName b) :
    ∀ a : List Char, (a ++ b).takeWhile isNameChar = a.takeWhile isNameChar
  | [] => hb.takeWhile_eq_nil
  | c :: rest => by
      have ih := takeWhile_append_of_endsName hb rest
      cases hc : isNameChar c with
      | true => simp [hc, ih]
      | false => simp [hc]

/-- A run of name characters before a cut is a whole name. -/
theorem takeWhile_name {name b : List Char} (hn : ∀ c ∈ name, isNameChar c = true)
    (hb : EndsName b) : (name ++ b).takeWhile isNameChar = name := by
  rw [List.takeWhile_append_of_pos hn, hb.takeWhile_eq_nil, List.append_nil]

theorem endsName_append {a b : List Char} (ha : EndsName a) (hb : EndsName b) :
    EndsName (a ++ b) := by
  cases a with
  | nil => exact hb
  | cons c rest => exact endsName_cons (ha c rfl)

theorem endsName_flatMap {α : Type} {f : α → List Char} : ∀ {l : List α},
    (∀ x ∈ l, EndsName (f x)) → EndsName (l.flatMap f)
  | [], _ => endsName_nil
  | x :: rest, h => by
      rw [List.forall_mem_cons] at h
      exact endsName_append h.1 (endsName_flatMap h.2)

theorem endsName_intercalate {α : Type} {f : α → List Char} {sep : List Char}
    (hs : EndsName sep) : ∀ {l : List α}, (∀ x ∈ l, EndsName (f x)) →
      EndsName (sep.intercalate (l.map f))
  | [], _ => endsName_nil
  | [x], h => by
      rw [List.map_singleton, List.intercalate_singleton]
      exact h x (List.mem_singleton_self x)
  | x :: y :: rest, h => by
      rw [List.forall_mem_cons] at h
      rw [List.map_cons, List.map_cons, List.intercalate_cons_cons, ← List.map_cons]
      exact endsName_append (endsName_append h.1 hs) (endsName_intercalate hs h.2)

/-! ## Mentions -/

/-- Some colon of the text has one of these names behind it, whole. -/
def Mentions (known : List Char → Prop) (cs : List Char) : Prop :=
  ∃ before after, cs = before ++ ':' :: after ∧ known (after.takeWhile isNameChar)

variable {known : List Char → Prop}

theorem not_mentions_nil : ¬ Mentions known [] := by
  rintro ⟨before, after, h, -⟩
  simp at h

theorem mentions_cons {c : Char} {cs : List Char} :
    Mentions known (c :: cs)
      ↔ (c = ':' ∧ known (cs.takeWhile isNameChar)) ∨ Mentions known cs := by
  constructor
  · rintro ⟨before, after, h, hk⟩
    cases before with
    | nil =>
        obtain ⟨rfl, rfl⟩ := List.cons.inj h
        exact Or.inl ⟨rfl, hk⟩
    | cons d before =>
        obtain ⟨-, rfl⟩ := List.cons.inj h
        exact Or.inr ⟨before, after, rfl, hk⟩
  · rintro (⟨rfl, hk⟩ | ⟨before, after, rfl, hk⟩)
    · exact ⟨[], cs, rfl, hk⟩
    · exact ⟨c :: before, after, rfl, hk⟩

/-- A character that is no colon mentions nothing. -/
theorem mentions_cons_of_ne {c : Char} {cs : List Char} (hc : c ≠ ':') :
    Mentions known (c :: cs) ↔ Mentions known cs := by
  rw [mentions_cons]
  exact or_iff_right fun h => hc h.1

/-- A text without colons mentions nothing. -/
theorem not_mentions_of_no_colon {cs : List Char} (h : ':' ∉ cs) : ¬ Mentions known cs := by
  rintro ⟨before, after, rfl, -⟩
  exact h (by simp)

/-- No mention goes across a cut. -/
theorem mentions_append {b : List Char} (hb : EndsName b) :
    ∀ a : List Char, Mentions known (a ++ b) ↔ Mentions known a ∨ Mentions known b
  | [] => by simp [not_mentions_nil]
  | c :: rest => by
      rw [List.cons_append, mentions_cons, mentions_cons, mentions_append hb rest,
        takeWhile_append_of_endsName hb rest, or_assoc]

/-- Pieces that all start at cuts mention a name where one of them does. -/
theorem mentions_flatMap {α : Type} {f : α → List Char} : ∀ {l : List α},
    (∀ x ∈ l, EndsName (f x)) → (Mentions known (l.flatMap f) ↔ ∃ x ∈ l, Mentions known (f x))
  | [], _ => by simp [not_mentions_nil]
  | x :: rest, h => by
      rw [List.forall_mem_cons] at h
      rw [List.flatMap_cons, mentions_append (endsName_flatMap h.2), mentions_flatMap h.2]
      simp

theorem mentions_intercalate {α : Type} {f : α → List Char} {sep : List Char}
    (hs : EndsName sep) (hm : ¬ Mentions known sep) : ∀ {l : List α},
    (∀ x ∈ l, EndsName (f x)) →
      (Mentions known (sep.intercalate (l.map f)) ↔ ∃ x ∈ l, Mentions known (f x))
  | [], _ => by simp [not_mentions_nil]
  | [x], _ => by simp
  | x :: y :: rest, h => by
      rw [List.forall_mem_cons] at h
      have hrest := endsName_intercalate hs h.2
      rw [List.map_cons, List.map_cons, List.intercalate_cons_cons, ← List.map_cons,
        List.append_assoc, mentions_append (endsName_append hs hrest), mentions_append hrest,
        mentions_intercalate hs hm h.2]
      simp [hm]

/-! ## Quoted names -/

theorem toList_quote (name : String) :
    (quote name).toList = backquote :: quoteRest name.toList := by
  simp [quote]

theorem endsName_quote (name : String) : EndsName (quote name).toList := by
  rw [toList_quote]
  exact endsName_cons (by decide)

/-- A name inside a quoted identifier ends where it does in the bare one. -/
theorem takeWhile_quoteRest : ∀ cs : List Char,
    (quoteRest cs).takeWhile isNameChar = cs.takeWhile isNameChar
  | [] => by decide
  | c :: rest => by
      have ih := takeWhile_quoteRest rest
      have hback : isNameChar backquote = false := by decide
      by_cases hdot : c = '.'
      · have hn : isNameChar '.' = false := by decide
        subst hdot
        simp [quoteRest, hn, hback]
      · by_cases hc : c = backquote
        · subst hc
          simp [quoteRest, hdot, hback]
        · simp only [quoteRest, if_neg hdot, if_neg hc, List.takeWhile_cons, ih]

theorem mentions_quoteRest : ∀ cs : List Char,
    Mentions known (quoteRest cs) ↔ Mentions known cs
  | [] => by
      rw [quoteRest, mentions_cons_of_ne (by decide)]
  | c :: rest => by
      have ih := mentions_quoteRest rest
      have hback : backquote ≠ ':' := by decide
      by_cases hdot : c = '.'
      · subst hdot
        rw [quoteRest, if_pos rfl, mentions_cons_of_ne hback, mentions_cons_of_ne (by decide),
          mentions_cons_of_ne hback, mentions_cons_of_ne (by decide), ih]
      · by_cases hc : c = backquote
        · subst hc
          rw [quoteRest, if_neg hdot, if_pos rfl, mentions_cons_of_ne hback,
            mentions_cons_of_ne hback, mentions_cons_of_ne hback, ih]
        · rw [quoteRest, if_neg hdot, if_neg hc, mentions_cons, mentions_cons, ih,
            takeWhile_quoteRest]

/-- Quoting makes and breaks no mention. -/
theorem mentions_quote (name : String) :
    Mentions known (quote name).toList ↔ Mentions known name.toList := by
  rw [toList_quote, mentions_cons_of_ne (by decide), mentions_quoteRest]

theorem mentions_append_quote {cs : List Char} (name : String) :
    Mentions known (cs ++ (quote name).toList)
      ↔ Mentions known cs ∨ Mentions known name.toList := by
  rw [mentions_append (endsName_quote name), mentions_quote]

/-- A word that starts at a cut and has no colon: what stands between two names. -/
def separates (word : String) : Bool :=
  !word.toList.head?.any isNameChar && !word.toList.contains ':'

theorem endsName_word {word : String} (h : separates word = true) : EndsName word.toList := by
  intro c hc
  simp only [separates, hc, Option.any_some, Bool.and_eq_true, Bool.not_eq_true'] at h
  exact h.1

theorem no_colon_word {word : String} (h : separates word = true) : ':' ∉ word.toList := by
  simp only [separates, Bool.and_eq_true, Bool.not_eq_true', List.contains_eq_mem,
    decide_eq_false_iff_not] at h
  exact h.2

theorem mentions_append_word {cs : List Char} {word : String} (h : separates word = true) :
    Mentions known (cs ++ word.toList) ↔ Mentions known cs := by
  rw [mentions_append (endsName_word h)]
  exact or_iff_left (not_mentions_of_no_colon (no_colon_word h))

/-! ## Equations of the scan -/

variable {lookup : List Char → Option (List Char)}

theorem substitute_skip : ∀ (n : Nat) (cs : List Char),
    substitute lookup n cs = substitute lookup 0 (cs.drop n)
  | 0, cs => rfl
  | n + 1, [] => rfl
  | n + 1, c :: rest => by
      rw [List.drop_succ_cons, ← substitute_skip n rest]
      rfl

theorem substitute_cons_of_ne {c : Char} {cs : List Char} (hc : c ≠ ':') :
    substitute lookup 0 (c :: cs) = c :: substitute lookup 0 cs := by
  simp [substitute, hc]

/-- Text without a colon is passed over. -/
theorem substitute_append_of_no_colon {b : List Char} : ∀ {a : List Char}, ':' ∉ a →
    substitute lookup 0 (a ++ b) = a ++ substitute lookup 0 b
  | [], _ => rfl
  | c :: rest, h => by
      have hc : c ≠ ':' := fun hc => h (hc ▸ List.mem_cons_self)
      have hrest : ':' ∉ rest := fun hrest => h (List.mem_cons_of_mem c hrest)
      rw [List.cons_append, substitute_cons_of_ne hc, substitute_append_of_no_colon hrest,
        List.cons_append]

/-- A name that can be looked up. -/
def Known (lookup : List Char → Option (List Char)) (name : List Char) : Prop :=
  name ≠ [] ∧ ∃ text, lookup name = some text

/-- What is put in for the name behind a colon. -/
theorem lookup_of_known {name text : List Char} (hne : name ≠ []) (h : lookup name = some text) :
    (if name.isEmpty then none else lookup name) = some text := by
  rw [if_neg (by simpa using hne), h]

theorem lookup_of_not_known {name : List Char} (h : ¬ Known lookup name) :
    (if name.isEmpty then none else lookup name) = none := by
  split
  · rfl
  · next hne =>
      cases hl : lookup name with
      | none => rfl
      | some text => exact absurd ⟨by simpa using hne, text, hl⟩ h

theorem substitute_colon_of_not_known {cs : List Char}
    (h : ¬ Known lookup (cs.takeWhile isNameChar)) :
    substitute lookup 0 (':' :: cs) = ':' :: substitute lookup 0 cs := by
  simp only [substitute, if_pos, lookup_of_not_known h]

theorem substitute_colon_of_lookup {cs text : List Char}
    (hne : cs.takeWhile isNameChar ≠ []) (h : lookup (cs.takeWhile isNameChar) = some text) :
    substitute lookup 0 (':' :: cs)
      = text ++ substitute lookup 0 (cs.drop (cs.takeWhile isNameChar).length) := by
  simp only [substitute, if_pos, lookup_of_known hne h]
  rw [substitute_skip]

/-- A known name behind a colon and before a cut is replaced, and the scan goes on behind
it. -/
theorem substitute_name {name text b : List Char} (hn : ∀ c ∈ name, isNameChar c = true)
    (hne : name ≠ []) (h : lookup name = some text) (hb : EndsName b) :
    substitute lookup 0 (':' :: (name ++ b)) = text ++ substitute lookup 0 b := by
  have htake := takeWhile_name hn hb
  rw [substitute_colon_of_lookup (by rwa [htake]) (by rwa [htake]), htake,
    List.drop_left]

/-- On both sides of a cut the scan does what it does with the one side alone. -/
theorem substitute_append {b : List Char} (hb : EndsName b) : ∀ a : List Char,
    substitute lookup 0 (a ++ b) = substitute lookup 0 a ++ substitute lookup 0 b
  | [] => rfl
  | c :: rest => by
      by_cases hc : c = ':'
      · subst hc
        have htake := takeWhile_append_of_endsName hb rest
        by_cases hk : Known lookup (rest.takeWhile isNameChar)
        · obtain ⟨hne, text, ht⟩ := hk
          have hlength := (List.takeWhile_prefix isNameChar (l := rest)).length_le
          rw [List.cons_append, substitute_colon_of_lookup (by rwa [htake]) (by rwa [htake]),
            htake, substitute_colon_of_lookup hne ht, List.drop_append_of_le_length hlength,
            substitute_append hb (rest.drop _), List.append_assoc]
        · rw [List.cons_append, substitute_colon_of_not_known (by rwa [htake]),
            substitute_colon_of_not_known hk, substitute_append hb rest, List.cons_append]
      · rw [List.cons_append, substitute_cons_of_ne hc, substitute_cons_of_ne hc,
          substitute_append hb rest, List.cons_append]
termination_by a => a.length
decreasing_by
  all_goals
    simp only [List.length_drop, List.length_cons]
    omega

/-! ## Pieces that stay -/

/-- Whatever is put in starts with a character, and not with a colon. -/
def Telling (lookup : List Char → Option (List Char)) : Prop :=
  ∀ name text, lookup name = some text → ∃ c rest, text = c :: rest ∧ c ≠ ':'

/-- A piece before a cut is left as it stands exactly when it mentions no known name. -/
theorem substitute_append_eq_iff (hl : Telling lookup) {b r : List Char} (hb : EndsName b) :
    ∀ a : List Char, substitute lookup 0 (a ++ b) = a ++ r
      ↔ ¬ Mentions (Known lookup) a ∧ substitute lookup 0 b = r
  | [] => by simp [not_mentions_nil]
  | c :: rest => by
      have ih := substitute_append_eq_iff (r := r) hl hb rest
      by_cases hc : c = ':'
      · subst hc
        have htake := takeWhile_append_of_endsName hb rest
        by_cases hk : Known lookup (rest.takeWhile isNameChar)
        · -- the colon is replaced, by a text that starts otherwise
          obtain ⟨hne, text, ht⟩ := hk
          obtain ⟨d, more, rfl, hd⟩ := hl _ _ ht
          have hm : Mentions (Known lookup) (':' :: rest) :=
            mentions_cons.mpr (Or.inl ⟨rfl, hne, _, ht⟩)
          rw [List.cons_append, substitute_colon_of_lookup (by rwa [htake]) (by rwa [htake])]
          constructor
          · intro h
            exact absurd (List.cons.inj h).1 hd
          · rintro ⟨h, -⟩
            exact absurd hm h
        · rw [List.cons_append,
            substitute_colon_of_not_known (by rwa [htake]), List.cons_append,
            List.cons_inj_right, ih, mentions_cons]
          simp [hk]
      · rw [List.cons_append, substitute_cons_of_ne hc, List.cons_append,
          List.cons_inj_right, ih, mentions_cons_of_ne hc]

end RecordMapper.Query
