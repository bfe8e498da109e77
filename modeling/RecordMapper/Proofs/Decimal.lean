import RecordMapper.Decimal.Read

/-!
# What digits spell

A natural number is spelled by decimal digits, with a plus in front or without, and an integer
also by digits behind a minus. The readers of words and of 64-bit integers read the numbers that
are spelled, as far as they fit, and nothing else.
-/

namespace RecordMapper.Decimal

/-- Decimal digits behind an optional plus. -/
def Spells (text : String) (n : Nat) : Prop :=
  ∃ digits, (text.toList = digits ∨ text.toList = '+' :: digits) ∧ digits ≠ []
    ∧ (∀ d ∈ digits, isDigit d = true) ∧ n = ofDigits digits

/-- Decimal digits behind an optional sign. -/
def SpellsInt (text : String) (i : Int) : Prop :=
  (∃ n : Nat, Spells text n ∧ i = n)
    ∨ ∃ digits, text.toList = '-' :: digits ∧ digits ≠ []
      ∧ (∀ d ∈ digits, isDigit d = true) ∧ i = -(ofDigits digits : Int)

theorem readNat?_eq_some_iff {digits : List Char} {n : Nat} :
    readNat? digits = some n
      ↔ digits ≠ [] ∧ (∀ d ∈ digits, isDigit d = true) ∧ n = ofDigits digits := by
  rw [readNat?]
  split
  · next h =>
      rw [Bool.or_eq_true, List.isEmpty_iff, Bool.not_eq_true', List.all_eq_false] at h
      constructor
      · intro hsome
        cases hsome
      · rintro ⟨hne, hall, -⟩
        rcases h with h | ⟨d, hd, hno⟩
        · exact absurd h hne
        · exact absurd (hall d hd) hno
  · next h =>
      rw [Bool.or_eq_true, not_or, List.isEmpty_iff, Bool.not_eq_true', Bool.not_eq_false,
        List.all_eq_true] at h
      exact ⟨fun hsome => ⟨h.1, h.2, (Option.some.inj hsome).symm⟩,
        fun hread => congrArg some hread.2.2.symm⟩

/-! ## Without a minus -/

theorem spells_iff_of_plus {text : String} {digits : List Char} {n : Nat}
    (h : text.toList = '+' :: digits) : Spells text n ↔ readNat? digits = some n := by
  have hplus : isDigit '+' = false := by decide
  rw [readNat?_eq_some_iff, Spells, h]
  constructor
  · rintro ⟨digits', rfl | hdigits, hne, hall, hn⟩
    · exact absurd (hall '+' List.mem_cons_self) (by simp [hplus])
    · cases hdigits
      exact ⟨hne, hall, hn⟩
  · exact fun hread => ⟨digits, .inr rfl, hread⟩

theorem spells_iff_of_no_plus {text : String} {n : Nat} (h : ∀ rest, text.toList ≠ '+' :: rest) :
    Spells text n ↔ readNat? text.toList = some n := by
  rw [readNat?_eq_some_iff, Spells]
  constructor
  · rintro ⟨digits, rfl | hdigits, hread⟩
    · exact hread
    · exact absurd hdigits (h digits)
  · exact fun hread => ⟨_, .inl rfl, hread⟩

theorem readWord?_of_plus {text : String} {digits : List Char} (h : text.toList = '+' :: digits) :
    readWord? text = (readNat? digits).filter (· < wordLimit) := by
  simp only [readWord?, h]
  cases readNat? digits <;> simp [Option.filter]

theorem readWord?_of_no_plus {text : String} (h : ∀ rest, text.toList ≠ '+' :: rest) :
    readWord? text = (readNat? text.toList).filter (· < wordLimit) := by
  unfold readWord?
  split
  · next rest hplus => exact absurd hplus (h rest)
  · dsimp only
    cases readNat? text.toList <;> simp [Option.filter]

theorem readWord?_eq_some_iff {text : String} {n : Nat} :
    readWord? text = some n ↔ Spells text n ∧ n < wordLimit := by
  by_cases h : ∃ rest, text.toList = '+' :: rest
  · obtain ⟨rest, htext⟩ := h
    rw [readWord?_of_plus htext, Option.filter_eq_some_iff, spells_iff_of_plus htext,
      decide_eq_true_eq]
  · have htext : ∀ rest, text.toList ≠ '+' :: rest := fun rest hrest => h ⟨rest, hrest⟩
    rw [readWord?_of_no_plus htext, Option.filter_eq_some_iff, spells_iff_of_no_plus htext,
      decide_eq_true_eq]

/-! ## With a sign -/

/-- The integer with these digits behind a minus or without one. -/
def signed (negative : Bool) (n : Nat) : Int := if negative then -(n : Int) else n

theorem splitSign_of_no_sign {cs : List Char} (hplus : ∀ rest, cs ≠ '+' :: rest)
    (hminus : ∀ rest, cs ≠ '-' :: rest) : splitSign cs = (false, cs) := by
  unfold splitSign
  split
  · next rest => exact absurd rfl (hplus rest)
  · next rest => exact absurd rfl (hminus rest)
  · rfl

theorem spellsInt_iff_of_no_minus {text : String} {i : Int}
    (h : ∀ digits, text.toList ≠ '-' :: digits) :
    SpellsInt text i ↔ ∃ n : Nat, Spells text n ∧ i = n := by
  rw [SpellsInt, or_iff_left]
  rintro ⟨digits, hdigits, -⟩
  exact h digits hdigits

theorem spellsInt_iff {text : String} {i : Int} :
    SpellsInt text i ↔ ∃ n, readNat? (splitSign text.toList).2 = some n
      ∧ i = signed (splitSign text.toList).1 n := by
  by_cases hminus : ∃ digits, text.toList = '-' :: digits
  · obtain ⟨digits, htext⟩ := hminus
    have hno : isDigit '-' = false := by decide
    have hspells : ∀ n, ¬ Spells text n := by
      rintro n ⟨digits', h | h, -, hall, -⟩
      · exact absurd (hall '-' (h ▸ htext ▸ List.mem_cons_self)) (by simp [hno])
      · rw [htext] at h
        cases h
    have hsplit : splitSign text.toList = (true, digits) := by rw [htext]; rfl
    rw [SpellsInt, or_iff_right fun ⟨n, hn, _⟩ => hspells n hn, hsplit]
    simp only [readNat?_eq_some_iff]
    constructor
    · rintro ⟨digits', h, hne, hall, rfl⟩
      cases htext.symm.trans h
      exact ⟨_, ⟨hne, hall, rfl⟩, rfl⟩
    · rintro ⟨n, ⟨hne, hall, rfl⟩, rfl⟩
      exact ⟨digits, htext, hne, hall, rfl⟩
  · have hminus' : ∀ digits, text.toList ≠ '-' :: digits := fun digits h => hminus ⟨digits, h⟩
    rw [spellsInt_iff_of_no_minus hminus']
    by_cases hplus : ∃ digits, text.toList = '+' :: digits
    · obtain ⟨digits, htext⟩ := hplus
      have hsplit : splitSign text.toList = (false, digits) := by rw [htext]; rfl
      simp only [spells_iff_of_plus htext, hsplit]
      rfl
    · have hplus' : ∀ digits, text.toList ≠ '+' :: digits := fun digits h => hplus ⟨digits, h⟩
      simp only [spells_iff_of_no_plus hplus', splitSign_of_no_sign hplus' hminus']
      rfl

theorem fitsInt64_iff {i : Int} :
    fitsInt64 i = true ↔ Int64.minValue.toInt ≤ i ∧ i ≤ Int64.maxValue.toInt := by
  simp only [fitsInt64, Bool.and_eq_true, decide_eq_true_eq]

theorem fitsInt64_toInt (i : Int64) : fitsInt64 i.toInt = true :=
  fitsInt64_iff.mpr ⟨Int64.minValue_le_toInt i, Int64.toInt_le i⟩

theorem toInt_ofInt_of_fits {i : Int} (h : fitsInt64 i = true) : (Int64.ofInt i).toInt = i := by
  obtain ⟨hlow, hhigh⟩ := fitsInt64_iff.mp h
  exact Int64.toInt_ofInt_of_le hlow (by
    have hmax : Int64.maxValue.toInt = 2 ^ 63 - 1 := by decide
    omega)

theorem readInt64?_eq_some_iff {text : String} {i : Int64} :
    readInt64? text = some i ↔ SpellsInt text i.toInt := by
  rw [spellsInt_iff, readInt64?]
  generalize splitSign text.toList = split
  obtain ⟨negative, ds⟩ := split
  dsimp only
  cases readNat? ds with
  | none => simp
  | some n =>
      simp only [Option.some.injEq, exists_eq_left']
      show (if fitsInt64 (signed negative n) then some (Int64.ofInt (signed negative n)) else none)
        = some i ↔ i.toInt = signed negative n
      by_cases hfits : fitsInt64 (signed negative n) = true
      · rw [if_pos hfits, Option.some.injEq]
        constructor
        · rintro rfl
          exact toInt_ofInt_of_fits hfits
        · intro h
          rw [← h, Int64.ofInt_toInt]
      · rw [if_neg hfits]
        constructor
        · intro h
          cases h
        · intro h
          exact absurd (h ▸ fitsInt64_toInt i) hfits

end RecordMapper.Decimal
