import RecordMapper.Json.Parser
import RecordMapper.Json.Printer

/-!
# Reading back what stands in no container

A printed string is read back whatever its characters are: the reader takes the
escape of one character as that character and goes on behind it. An integer is
read back if 64 bits hold it, provided that what follows does not prolong its
digits; in a printed tree only a comma or a closing bracket follows.
-/

namespace RecordMapper.Json

open Text

/-- What is left behind a number is no part of it: no digit, point or exponent. -/
def EndsNumber : List Char → Prop
  | [] => True
  | c :: _ => Decimal.isDigit c = false ∧ c ≠ '.' ∧ c ≠ 'e' ∧ c ≠ 'E'

/-- The integers that have an integral form when read: those that 64 bits hold, with a
sign or without. -/
def IsWord (i : Int) : Prop :=
  Int64.minValue.toInt ≤ i ∧ i < Decimal.wordLimit

theorem isWord_toInt (i : Int64) : IsWord i.toInt := by
  have hlow : Int64.minValue.toInt ≤ i.toInt := Int64.minValue_le_toInt i
  have hhigh : i.toInt < 2 ^ 63 := Int64.toInt_lt i
  refine ⟨hlow, ?_⟩
  have hlimit : (2 : Int) ^ 63 < Decimal.wordLimit := by decide
  omega

namespace Parser

/-! ## Strings -/

theorem hexValue?_digitChar {n : Nat} (h : n < 16) : hexValue? (Nat.digitChar n) = some n := by
  have hall : ∀ i : Fin 16, hexValue? (Nat.digitChar i) = some i.val := by decide
  exact hall ⟨n, h⟩

/-- A control character is written as two zeros and its two hexadecimal digits. -/
theorem unicodeEscape_control {c : Char} (h : c.toNat < 0x20) (rest : List Char) :
    unicodeEscape ('0' :: '0' :: Nat.digitChar (c.toNat / 16) :: Nat.digitChar (c.toNat % 16)
      :: rest) = some (c, rest) := by
  have hhigh : hexValue? (Nat.digitChar (c.toNat / 16)) = some (c.toNat / 16) :=
    hexValue?_digitChar (by omega)
  have hlow : hexValue? (Nat.digitChar (c.toNat % 16)) = some (c.toNat % 16) :=
    hexValue?_digitChar (by omega)
  have hzero : hexValue? '0' = some 0 := by decide
  have hnum : ((0 * 16 + 0) * 16 + c.toNat / 16) * 16 + c.toNat % 16 = c.toNat := by omega
  simp only [unicodeEscape, hexDigits, hzero, hhigh, hlow, Option.bind_eq_bind, Option.bind_some,
    Nat.zero_mul, Nat.zero_add] at hnum ⊢
  rw [hnum, if_pos (Or.inl (by omega)), Char.ofNat_toNat]

theorem stringBody_backslash {n : Nat} {c : Char} {tail rest : List Char}
    (h : escape tail = some (c, rest)) :
    stringBody (n + 1) ('\\' :: tail) = (stringBody n rest).map fun r => (c :: r.1, r.2) := by
  have hquote : ¬ '\\' = '"' := by decide
  rw [stringBody, if_neg hquote, if_pos rfl, h, Option.bind_eq_bind, Option.bind_some]
  simp only
  cases stringBody n rest <;> rfl

/-- The reader takes the escape of a character as that character. -/
theorem stringBody_escapeChar (n : Nat) (c : Char) (rest : List Char) :
    stringBody (n + 1) (escapeChar c ++ rest)
      = (stringBody n rest).map fun r => (c :: r.1, r.2) := by
  unfold escapeChar
  split
  · next h => subst h; exact stringBody_backslash rfl
  split
  · next h => subst h; exact stringBody_backslash rfl
  split
  · next h => subst h; exact stringBody_backslash rfl
  split
  · next h => subst h; exact stringBody_backslash rfl
  split
  · next h => subst h; exact stringBody_backslash rfl
  split
  · next h => subst h; exact stringBody_backslash rfl
  split
  · next h => subst h; exact stringBody_backslash rfl
  split
  · next h => exact stringBody_backslash (unicodeEscape_control h rest)
  · next hquote hslash _ _ _ _ _ hcontrol =>
      rw [List.singleton_append, stringBody, if_neg hquote, if_neg hslash, if_neg hcontrol]
      cases stringBody n rest <;> rfl

theorem length_escapeChar_pos (c : Char) : 0 < (escapeChar c).length := by
  unfold escapeChar
  repeat' split
  all_goals simp

theorem stringBody_flatMap : ∀ (cs : List Char) (n : Nat) (rest : List Char), cs.length < n →
    stringBody n (cs.flatMap escapeChar ++ '"' :: rest) = some (cs, rest)
  | [], n + 1, rest, _ => by rw [List.flatMap_nil, List.nil_append, stringBody, if_pos rfl]
  | c :: cs, n + 1, rest, h => by
      have ih := stringBody_flatMap cs n rest (by simpa using h)
      rw [List.flatMap_cons, List.append_assoc, stringBody_escapeChar, ih]
      rfl

theorem length_le_flatMap_escapeChar : ∀ cs : List Char,
    cs.length ≤ (cs.flatMap escapeChar).length
  | [] => Nat.le_refl 0
  | c :: cs => by
      have hc := length_escapeChar_pos c
      have ih := length_le_flatMap_escapeChar cs
      rw [List.flatMap_cons, List.length_append, List.length_cons]
      omega

theorem string_printed (s : String) (rest : List Char) :
    string (s.toList.flatMap escapeChar ++ '"' :: rest) = some (s, rest) := by
  have hlen := length_le_flatMap_escapeChar s.toList
  have hfuel : s.toList.length < (s.toList.flatMap escapeChar ++ '"' :: rest).length := by
    rw [List.length_append, List.length_cons]
    omega
  rw [string, stringBody_flatMap s.toList _ rest hfuel]
  simp

end Parser

/-! ## Integers -/

namespace Number

theorem takeWhile_isDigit_append {ds rest : List Char} (hds : ∀ c ∈ ds, Decimal.isDigit c = true)
    (hrest : EndsNumber rest) : (ds ++ rest).takeWhile Decimal.isDigit = ds := by
  rw [List.takeWhile_append_of_pos hds]
  cases rest with
  | nil => simp
  | cons c rest => rw [List.takeWhile_cons_of_neg (by simp [hrest.1]), List.append_nil]

theorem dropWhile_isDigit_append {ds rest : List Char} (hds : ∀ c ∈ ds, Decimal.isDigit c = true)
    (hrest : EndsNumber rest) : (ds ++ rest).dropWhile Decimal.isDigit = rest := by
  rw [List.dropWhile_append_of_pos hds]
  cases rest with
  | nil => rfl
  | cons c rest => rw [List.dropWhile_cons_of_neg (by simp [hrest.1])]

theorem isDigit_of_mem_toDigits {n : Nat} {c : Char} (h : c ∈ Nat.toDigits 10 n) :
    Decimal.isDigit c = true := by
  have hdigit : c.isDigit = true := Nat.isDigit_of_mem_toDigits (by decide) (by decide) h
  rw [Char.isDigit_iff_toNat] at hdigit
  simp only [Decimal.isDigit, Bool.and_eq_true, decide_eq_true_eq, Char.le_def]
  exact hdigit

/-- Only zero starts with a zero. -/
theorem head?_toDigits {n : Nat} (h : (Nat.toDigits 10 n).head? = some '0') : n = 0 := by
  induction n using Nat.strongRecOn with
  | ind n ih =>
      rw [Nat.toDigits_eq_if (by decide)] at h
      split at h
      · next hlt =>
          have hall : ∀ i : Fin 10, Nat.digitChar i = '0' → i.val = 0 := by decide
          exact hall ⟨n, hlt⟩ (by simpa using h)
      · next hge =>
          have hhead : (Nat.toDigits 10 (n / 10)).head? = some '0' := by
            cases hds : Nat.toDigits 10 (n / 10) with
            | nil => exact absurd hds Nat.toDigits_ne_nil
            | cons d ds =>
                rw [hds] at h
                exact h
          have hzero := ih (n / 10) (by omega) hhead
          omega

theorem wholePart_toDigits (n : Nat) {rest : List Char} (hrest : EndsNumber rest) :
    wholePart (Nat.toDigits 10 n ++ rest) = some (Nat.toDigits 10 n, rest) := by
  have hds : ∀ c ∈ Nat.toDigits 10 n, Decimal.isDigit c = true :=
    fun _ => isDigit_of_mem_toDigits
  have hempty : ¬ (Nat.toDigits 10 n).isEmpty = true := by simp
  have hzero : ¬ ((Nat.toDigits 10 n).head? = some '0' ∧ (Nat.toDigits 10 n).length ≠ 1) := by
    rintro ⟨hhead, hlen⟩
    rw [head?_toDigits hhead, Nat.toDigits_zero] at hlen
    exact hlen rfl
  have hdigits : digits (Nat.toDigits 10 n ++ rest) = some (Nat.toDigits 10 n, rest) := by
    simp only [digits, takeWhile_isDigit_append hds hrest, dropWhile_isDigit_append hds hrest]
    rw [if_neg hempty]
  rw [wholePart, hdigits, Option.bind_eq_bind, Option.bind_some]
  simp only
  rw [if_neg hzero]

theorem fractionPart_of_endsNumber {rest : List Char} (h : EndsNumber rest) :
    fractionPart rest = some (none, rest) := by
  unfold fractionPart
  split
  · exact absurd rfl h.2.1
  · rfl

theorem exponentPart_of_endsNumber {rest : List Char} (h : EndsNumber rest) :
    exponentPart rest = some (none, rest) := by
  cases rest with
  | nil => rfl
  | cons c rest => rw [exponentPart, if_neg (not_or.mpr h.2.2)]

theorem ofDigits_toDigits (n : Nat) : Decimal.ofDigits (Nat.toDigits 10 n) = n :=
  Nat.ofDigitChars_ten_toDigits

theorem magnitude_toDigits {negative : Bool} {n : Nat} {i : Int} {rest : List Char}
    (hrest : EndsNumber rest) (h : integer? negative (Nat.toDigits 10 n) = some i) :
    magnitude negative (Nat.toDigits 10 n ++ rest) = some (.int i, rest) := by
  rw [magnitude, wholePart_toDigits n hrest, Option.bind_eq_bind, Option.bind_some]
  simp [fractionPart_of_endsNumber hrest, exponentPart_of_endsNumber hrest, h]

/-- A printed integer is read back. -/
theorem read_printInt {i : Int} (hi : IsWord i) {rest : List Char} (hrest : EndsNumber rest) :
    read (printInt i ++ rest) = some (.int i, rest) := by
  rw [printInt]
  split
  · next hneg =>
      have hfits : Decimal.fitsInt64 (-(i.natAbs : Int)) = true := by
        have hmax : (0 : Int) ≤ Int64.maxValue.toInt := by decide
        have hlow := hi.1
        simp only [Decimal.fitsInt64, Bool.and_eq_true, decide_eq_true_eq]
        omega
      rw [List.cons_append, read]
      apply magnitude_toDigits hrest
      rw [integer?, ofDigits_toDigits, if_pos rfl, if_pos ⟨by omega, hfits⟩]
      congr 1
      omega
  · next hpos =>
      have hhigh := hi.2
      have hread : read (Nat.toDigits 10 i.natAbs ++ rest)
          = magnitude false (Nat.toDigits 10 i.natAbs ++ rest) := by
        unfold read
        split
        · next tail heq =>
            have hmem : '-' ∈ Nat.toDigits 10 i.natAbs := by
              cases hds : Nat.toDigits 10 i.natAbs with
              | nil => exact absurd hds Nat.toDigits_ne_nil
              | cons d ds =>
                  rw [hds, List.cons_append, List.cons.injEq] at heq
                  exact heq.1 ▸ List.mem_cons_self
            have hdigit := isDigit_of_mem_toDigits hmem
            exact absurd hdigit (by decide)
        · rfl
      rw [hread]
      apply magnitude_toDigits hrest
      rw [integer?, ofDigits_toDigits, if_neg Bool.false_ne_true, if_pos (by omega)]
      congr 1
      omega

end Number

end RecordMapper.Json
