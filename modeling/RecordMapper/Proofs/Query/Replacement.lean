import RecordMapper.Proofs.Query.Substitution
import RecordMapper.Proofs.Text.Split

/-!
# Substitution, place by place

A token is a colon with a name behind it, the name being the whole run of name characters and
one under which a value is filed. Which tokens a text has is a matter of the text and the names
alone. Substitution reads the text once from left to right, and what it gives is the text
with each token turned into its value and each other character in its place
(`toSql_replaces_tokens`): a name is never cut short, a colon without a known name stays, and
what stands for a value is not read again.

The reading goes in rounds, each up to the next colon and the name behind it. A round takes one
colon away and leaves a shorter text, so there are as many rounds as the text has
colons (`scans_iff`).
-/

namespace RecordMapper

open Query

namespace Query

/-! ## Rounds of the scan -/

variable {lookup : List Char → Option (List Char)}

/-- One round: the text in front of the next colon goes out, behind it the value of the name that
follows the colon, or else the colon. Together with what goes out stands the text that is
left. -/
def scanRound (lookup : List Char → Option (List Char)) (text : List Char) :
    Option (List Char × List Char) :=
  match text.dropWhile (· != ':') with
  | [] => none
  | _ :: after =>
      let name := after.takeWhile isNameChar
      match if name.isEmpty then none else lookup name with
      | some value => some (text.takeWhile (· != ':') ++ value, after.dropWhile isNameChar)
      | none => some (text.takeWhile (· != ':') ++ [':'], after)

/-- The scan of a text ends after this many rounds and has then put this out. -/
inductive Scans (lookup : List Char → Option (List Char)) : Nat → List Char → List Char → Prop
  | done {text : List Char} : scanRound lookup text = none → Scans lookup 0 text text
  | round {rounds : Nat} {text out rest more : List Char} :
      scanRound lookup text = some (out, rest) → Scans lookup rounds rest more →
        Scans lookup (rounds + 1) text (out ++ more)

theorem colon_not_mem_name (text : List Char) : ':' ∉ text.takeWhile isNameChar := by
  intro h
  exact absurd (List.all_eq_true.mp List.all_takeWhile ':' h) (by decide)

theorem drop_length_name (text : List Char) :
    text.drop (text.takeWhile isNameChar).length = text.dropWhile isNameChar := by
  have h : (text.takeWhile isNameChar ++ text.dropWhile isNameChar).drop
      (text.takeWhile isNameChar).length = text.dropWhile isNameChar := List.drop_left
  rwa [List.takeWhile_append_dropWhile] at h

/-- A name has no colons: all those of a text stand behind the name that it begins with. -/
theorem count_colon_dropWhile (text : List Char) :
    (text.dropWhile isNameChar).count ':' = text.count ':' := by
  have hname : (text.takeWhile isNameChar).count ':' = 0 :=
    List.count_eq_zero_of_not_mem (colon_not_mem_name text)
  have h : (text.takeWhile isNameChar ++ text.dropWhile isNameChar).count ':'
      = 0 + (text.dropWhile isNameChar).count ':' := by rw [List.count_append, hname]
  rw [List.takeWhile_append_dropWhile, Nat.zero_add] at h
  exact h.symm

/-- A round puts out what substitution gives for the text that it takes. It takes one colon, and
leaves a shorter text. -/
theorem substitute_of_scanRound {text out rest : List Char}
    (h : scanRound lookup text = some (out, rest)) :
    substitute lookup 0 text = out ++ substitute lookup 0 rest
      ∧ text.count ':' = rest.count ':' + 1 ∧ rest.length < text.length := by
  rw [scanRound] at h
  cases hdrop : text.dropWhile (· != ':') with
  | nil => simp [hdrop] at h
  | cons c after =>
      have hfront := Text.not_mem_takeWhile_ne ':' text
      have htext := Text.eq_of_dropWhile_ne hdrop
      simp only [hdrop] at h
      generalize text.takeWhile (· != ':') = front at h hfront htext
      subst htext
      rw [substitute_append_of_no_colon hfront, List.count_append,
        List.count_eq_zero_of_not_mem hfront, List.count_cons_self, Nat.zero_add]
      by_cases hknown : Known lookup (after.takeWhile isNameChar)
      · obtain ⟨hne, value, hvalue⟩ := hknown
        have hshorter := (List.dropWhile_suffix isNameChar (l := after)).length_le
        rw [lookup_of_known hne hvalue] at h
        cases h
        rw [substitute_colon_of_lookup hne hvalue, drop_length_name, count_colon_dropWhile,
          List.append_assoc, List.length_append, List.length_cons]
        exact ⟨rfl, rfl, by omega⟩
      · rw [lookup_of_not_known hknown] at h
        cases h
        rw [substitute_colon_of_not_known hknown, List.append_assoc, List.length_append,
          List.length_cons]
        exact ⟨rfl, rfl, by omega⟩

theorem colon_not_mem_of_scanRound {text : List Char} (h : scanRound lookup text = none) :
    ':' ∉ text := by
  intro hcolon
  cases hdrop : text.dropWhile (· != ':') with
  | nil =>
      have hfront := Text.not_mem_takeWhile_ne ':' text
      rw [Text.takeWhile_ne_of_dropWhile_eq_nil hdrop] at hfront
      exact hfront hcolon
  | cons c after =>
      rw [scanRound] at h
      simp only [hdrop] at h
      split at h <;> cases h

theorem substitute_of_no_colon {text : List Char} (h : ':' ∉ text) :
    substitute lookup 0 text = text := by
  have hscan : substitute lookup 0 (text ++ []) = text ++ substitute lookup 0 [] :=
    substitute_append_of_no_colon h
  rwa [List.append_nil, substitute, List.append_nil] at hscan

theorem Scans.eq_substitute {rounds : Nat} {text out : List Char}
    (h : Scans lookup rounds text out) :
    rounds = text.count ':' ∧ out = substitute lookup 0 text := by
  induction h with
  | done hround =>
      have hcolon := colon_not_mem_of_scanRound hround
      exact ⟨(List.count_eq_zero_of_not_mem hcolon).symm, (substitute_of_no_colon hcolon).symm⟩
  | round hround _ ih =>
      obtain ⟨hput, hcount, -⟩ := substitute_of_scanRound hround
      exact ⟨by rw [ih.1, hcount], by rw [ih.2, hput]⟩

/-- Every text is scanned to its end, since each round leaves a shorter one. -/
theorem exists_scans (lookup : List Char → Option (List Char)) (text : List Char) :
    ∃ rounds out, Scans lookup rounds text out := by
  cases hround : scanRound lookup text with
  | none => exact ⟨0, text, .done hround⟩
  | some result =>
      obtain ⟨out, rest⟩ := result
      have hshorter := (substitute_of_scanRound hround).2.2
      obtain ⟨rounds, more, hscans⟩ := exists_scans lookup rest
      exact ⟨rounds + 1, out ++ more, .round hround hscans⟩
termination_by text.length

/-- The scan of a text takes as many rounds as there are colons, and puts out what substitution
gives. -/
theorem scans_iff {rounds : Nat} {text out : List Char} :
    Scans lookup rounds text out
      ↔ rounds = text.count ':' ∧ out = substitute lookup 0 text := by
  constructor
  · exact Scans.eq_substitute
  · rintro ⟨rfl, rfl⟩
    obtain ⟨rounds, out, h⟩ := exists_scans lookup text
    obtain ⟨rfl, rfl⟩ := h.eq_substitute
    exact h

end Query

/-! ## Places of the text -/

namespace Statement

/-- At this place of the text stands a token: a colon, and behind it a name that is the whole run
of name characters, is not empty and has this value filed under it. -/
structure TokenAt (s : Statement) (place : Nat) (name : List Char) (v : Value) : Prop where
  colon : s.sql.toList[place]? = some ':'
  run : (s.sql.toList.drop (place + 1)).takeWhile isNameChar = name
  nonempty : name ≠ []
  filed : s.values.get? (String.ofList name) = some v

/-- The name and the value of the token at this place. -/
def token? (s : Statement) (place : Nat) : Option (List Char × Value) :=
  let name := (s.sql.toList.drop (place + 1)).takeWhile isNameChar
  if s.sql.toList[place]? = some ':' ∧ name ≠ [] then
    (s.values.get? (String.ofList name)).map fun v => (name, v)
  else none

/-- Some token before `place` goes on at `later`. -/
def goesOn (s : Statement) (place later : Nat) : Bool :=
  (List.range place).any fun start =>
    (s.token? start).any fun token => later ≤ start + token.1.length

/-- What stands in the result for this place: the value where a token starts, nothing where one
goes on, and the character elsewhere. -/
def shownAt (escape : Value → String) (s : Statement) (place : Nat) : List Char :=
  match s.token? place with
  | some (_, v) => (literal escape v).toList
  | none => if s.goesOn place place then [] else s.sql.toList[place]?.toList

/-- The text that is put in for a name. -/
def valueText? (escape : Value → String) (s : Statement) (name : List Char) :
    Option (List Char) :=
  (s.values.get? (String.ofList name)).map fun v => (literal escape v).toList

variable {s : Statement} {place : Nat} {name : List Char} {v : Value}

theorem token?_eq_some_iff : s.token? place = some (name, v) ↔ s.TokenAt place name v := by
  rw [token?]
  constructor
  · intro h
    split at h
    · next hcolon =>
        obtain ⟨w, hw, hpair⟩ := Option.map_eq_some_iff.mp h
        obtain ⟨rfl, rfl⟩ := Prod.mk.inj hpair
        exact ⟨hcolon.1, rfl, hcolon.2, hw⟩
    · cases h
  · rintro ⟨hcolon, rfl, hne, hfiled⟩
    rw [if_pos ⟨hcolon, hne⟩, hfiled]
    rfl

/-- Behind its colon a token has name characters only. -/
theorem TokenAt.isNameChar_of_lt {start : Nat} (h : s.TokenAt start name v) (hlt : start < place)
    (hle : place ≤ start + name.length) :
    ∃ c, s.sql.toList[place]? = some c ∧ isNameChar c = true := by
  obtain ⟨i, rfl⟩ := Nat.exists_eq_add_of_lt hlt
  obtain ⟨rest, hrest⟩ := List.takeWhile_prefix isNameChar (l := s.sql.toList.drop (start + 1))
  rw [h.run] at hrest
  have hi : i < name.length := by omega
  refine ⟨name[i], ?_, ?_⟩
  · rw [Nat.add_right_comm, ← List.getElem?_drop, ← hrest, List.getElem?_append_left hi,
      List.getElem?_eq_getElem hi]
  · have hmem : name[i] ∈ (s.sql.toList.drop (start + 1)).takeWhile isNameChar :=
      h.run.symm ▸ List.getElem_mem hi
    exact List.all_eq_true.mp List.all_takeWhile _ hmem

theorem goesOn_iff {later : Nat} : s.goesOn place later = true
    ↔ ∃ start < place, ∃ name v, s.TokenAt start name v ∧ later ≤ start + name.length := by
  simp only [goesOn, List.any_eq_true, List.mem_range, Option.any_eq_true, Prod.exists,
    decide_eq_true_eq, token?_eq_some_iff]

theorem goesOn_succ (s : Statement) (place later : Nat) : s.goesOn (place + 1) later
    = (s.goesOn place later
      || (s.token? place).any fun token => later ≤ place + token.1.length) := by
  simp only [goesOn, List.range_succ, List.any_append, List.any_cons, List.any_nil, Bool.or_false]

theorem shownAt_of_token (escape : Value → String) (h : s.TokenAt place name v) :
    s.shownAt escape place = (literal escape v).toList := by
  rw [shownAt, token?_eq_some_iff.mpr h]

theorem shownAt_of_goesOn (escape : Value → String) (htoken : s.token? place = none)
    (h : s.goesOn place place = true) : s.shownAt escape place = [] := by
  rw [shownAt, htoken, if_pos h]

theorem shownAt_of_char (escape : Value → String) {c : Char} (htoken : s.token? place = none)
    (h : s.goesOn place place = false) (hplace : s.sql.toList[place]? = some c) :
    s.shownAt escape place = [c] := by
  rw [shownAt, htoken, hplace, h]
  rfl

/-- A token starts at a colon only. -/
theorem token?_of_ne {c : Char} (hplace : s.sql.toList[place]? = some c) (hc : c ≠ ':') :
    s.token? place = none := by
  rw [token?, if_neg]
  rintro ⟨hcolon, -⟩
  exact hc (Option.some.inj (hplace.symm.trans hcolon))

theorem toList_toSql (escape : Value → String) (s : Statement) :
    (s.toSql escape).toList = substitute (s.valueText? escape) 0 s.sql.toList := by
  rw [toSql, String.toList_ofList]
  rfl

theorem substitute_of_token (escape : Value → String) {rest : List Char}
    (htext : s.sql.toList.drop place = ':' :: rest) (h : s.TokenAt place name v) :
    substitute (s.valueText? escape) 0 (':' :: rest)
        = (literal escape v).toList ++ substitute (s.valueText? escape) name.length rest
      ∧ ∀ c ∈ rest.take name.length, isNameChar c = true := by
  have hrest : s.sql.toList.drop (place + 1) = rest := by
    rw [← List.tail_drop, htext, List.tail_cons]
  have hrun : rest.takeWhile isNameChar = name := by rw [← hrest, h.run]
  have hvalue : s.valueText? escape (rest.takeWhile isNameChar)
      = some (literal escape v).toList := by
    rw [hrun, valueText?, h.filed]
    rfl
  have hne : rest.takeWhile isNameChar ≠ [] := hrun ▸ h.nonempty
  constructor
  · rw [substitute_skip name.length, ← hrun]
    exact substitute_colon_of_lookup hne hvalue
  · intro c hc
    obtain ⟨more, hmore⟩ := hrun ▸ List.takeWhile_prefix isNameChar (l := rest)
    rw [← hmore, List.take_left, ← hrun] at hc
    exact List.all_eq_true.mp List.all_takeWhile c hc

theorem substitute_of_char (escape : Value → String) {c : Char} {rest : List Char}
    (htext : s.sql.toList.drop place = c :: rest) (h : s.token? place = none) :
    substitute (s.valueText? escape) 0 (c :: rest)
      = c :: substitute (s.valueText? escape) 0 rest := by
  have hplace : s.sql.toList[place]? = some c := by
    rw [← List.head?_drop, htext, List.head?_cons]
  have hrest : s.sql.toList.drop (place + 1) = rest := by
    rw [← List.tail_drop, htext, List.tail_cons]
  by_cases hc : c = ':'
  · subst hc
    refine substitute_colon_of_not_known ?_
    rintro ⟨hne, text, htext⟩
    obtain ⟨v, hfiled, -⟩ := Option.map_eq_some_iff.mp htext
    have htoken : s.TokenAt place (rest.takeWhile isNameChar) v :=
      ⟨hplace, by rw [hrest], hne, hfiled⟩
    rw [token?_eq_some_iff.mpr htoken] at h
    cases h
  · exact substitute_cons_of_ne hc

/-- The scan goes place by place. While it passes over the name of a token that it has
replaced, `skip` places are left of that token, and of no other one. -/
theorem substitute_eq_flatMap_shownAt (escape : Value → String) (s : Statement) :
    ∀ (rest : List Char) (place skip : Nat), s.sql.toList.drop place = rest →
      (∀ c ∈ rest.take skip, isNameChar c = true) →
      (∀ later, place ≤ later → (s.goesOn place later = true ↔ later < place + skip)) →
      substitute (s.valueText? escape) skip rest
        = (List.range' place rest.length).flatMap (s.shownAt escape)
  | [], place, skip, _, _, _ => by
      cases skip <;> rfl
  | c :: rest, place, skip, htext, hname, hskip => by
      have ih := substitute_eq_flatMap_shownAt escape s rest (place + 1)
      have hplace : s.sql.toList[place]? = some c := by
        rw [← List.head?_drop, htext, List.head?_cons]
      have hrest : s.sql.toList.drop (place + 1) = rest := by
        rw [← List.tail_drop, htext, List.tail_cons]
      have hhere := hskip place (Nat.le_refl place)
      rw [List.length_cons, List.range'_succ, List.flatMap_cons]
      cases skip with
      | succ skip =>
          have hc : c ≠ ':' := by
            rintro rfl
            exact absurd (hname ':' (by simp)) (by decide)
          have htoken := token?_of_ne hplace hc
          rw [shownAt_of_goesOn escape htoken (hhere.mpr (by omega)), substitute, List.nil_append]
          refine ih skip hrest (fun d hd => hname d (by simp [hd])) fun later hlater => ?_
          rw [goesOn_succ, htoken, Option.any_none, Bool.or_false, hskip later (by omega)]
          omega
      | zero =>
          have hlast : s.goesOn place place = false := by simpa using hhere
          cases htoken : s.token? place with
          | none =>
              rw [shownAt_of_char escape htoken hlast hplace, substitute_of_char escape htext htoken]
              refine congrArg (c :: ·) (ih 0 hrest (by simp) fun later hlater => ?_)
              rw [goesOn_succ, htoken, Option.any_none, Bool.or_false, hskip later (by omega)]
              omega
          | some token =>
              obtain ⟨name, v⟩ := token
              have h := token?_eq_some_iff.mp htoken
              obtain rfl : c = ':' := Option.some.inj (hplace.symm.trans h.colon)
              obtain ⟨hput, hrun⟩ := substitute_of_token escape htext h
              rw [shownAt_of_token escape h, hput]
              refine congrArg (_ ++ ·) (ih name.length hrest hrun fun later hlater => ?_)
              rw [goesOn_succ, htoken, Option.any_some, Bool.or_eq_true, decide_eq_true_eq,
                hskip later (by omega)]
              show later < place + 0 ∨ later ≤ place + name.length ↔ _
              omega

theorem toList_toSql_eq_flatMap (escape : Value → String) (s : Statement) :
    (s.toSql escape).toList
      = (List.range s.sql.toList.length).flatMap (s.shownAt escape) := by
  rw [toList_toSql, List.range_eq_range']
  refine substitute_eq_flatMap_shownAt escape s s.sql.toList 0 0 rfl (by simp) fun later _ => ?_
  simp [goesOn]

/-- Putting the values in replaces the tokens of the text and nothing else, for every text, every
map of names to values and every way to escape a scalar. What comes out is, in the order of
the places of the text, the value for each place where a token starts, nothing for the
places of its name, and for any other place the character that stands there.

The scan comes to the end of every text, in as many rounds as the text has colons. -/
theorem toSql_replaces_tokens (escape : Value → String) (s : Statement) :
    (∃ shown : Nat → List Char,
        (s.toSql escape).toList = (List.range s.sql.toList.length).flatMap shown
          ∧ (∀ place name v, s.TokenAt place name v → shown place = (literal escape v).toList)
          ∧ (∀ start name v place, s.TokenAt start name v → start < place →
              place ≤ start + name.length → shown place = [])
          ∧ ∀ place c, s.sql.toList[place]? = some c →
              (∀ start name v, s.TokenAt start name v → start ≤ place →
                start + name.length < place) → shown place = [c])
      ∧ ∀ rounds out, Scans (s.valueText? escape) rounds s.sql.toList out
          ↔ rounds = s.sql.toList.count ':' ∧ out = (s.toSql escape).toList := by
  refine ⟨⟨s.shownAt escape, toList_toSql_eq_flatMap escape s, ?_, ?_, ?_⟩, ?_⟩
  · intro place name v h
    exact shownAt_of_token escape h
  · intro start name v place h hlt hle
    obtain ⟨c, hplace, hc⟩ := h.isNameChar_of_lt hlt hle
    have hne : c ≠ ':' := by
      rintro rfl
      exact absurd hc (by decide)
    exact shownAt_of_goesOn escape (token?_of_ne hplace hne)
      (goesOn_iff.mpr ⟨start, hlt, name, v, h, hle⟩)
  · intro place c hplace hclear
    have htoken : s.token? place = none := by
      rw [Option.eq_none_iff_forall_ne_some]
      rintro ⟨name, v⟩ h
      have := hclear place name v (token?_eq_some_iff.mp h) (Nat.le_refl place)
      omega
    have hlast : s.goesOn place place = false := by
      rw [Bool.eq_false_iff, Ne, goesOn_iff]
      rintro ⟨start, hlt, name, v, h, hle⟩
      have := hclear start name v h (Nat.le_of_lt hlt)
      omega
    exact shownAt_of_char escape htoken hlast hplace
  · intro rounds out
    rw [toList_toSql, scans_iff]

/-- Names are read whole, and a value that looks like a token stays. -/
example :
    (Statement.mk "::value1, :value10, :x" (.ofList [("value1", .text ":value10"),
      ("value10", .null)])).toSql Value.key = ":':value10', NULL, :x" := by
  decide +kernel

end Statement

end RecordMapper
