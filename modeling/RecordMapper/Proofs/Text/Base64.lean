import RecordMapper.Text.Base64
import RecordMapper.Text.Blank

/-!
# Reading base64 back

Decoding undoes encoding. The bytes of a group are taken apart into numbers below
64, each number has a character, and the padding sign is none of these
characters, so a full group at the end of a text is not taken for a padded one.
No character of an encoded text is a blank: trimming leaves it as it is.
-/

namespace RecordMapper.Text

namespace Base64

/-! ## Characters -/

theorem toSextet?_ofSextet {n : Nat} (h : n < 64) : toSextet? (ofSextet n) = some n := by
  have hall : ∀ i : Fin 64, toSextet? (ofSextet i) = some i.val := by decide
  exact hall ⟨n, h⟩

theorem ofSextet_ne_pad {n : Nat} (h : n < 64) : ofSextet n ≠ '=' := by
  have hall : ∀ i : Fin 64, ofSextet i ≠ '=' := by decide
  exact hall ⟨n, h⟩

theorem isBlank_ofSextet {n : Nat} (h : n < 64) : isBlank (ofSextet n) = false := by
  have hall : ∀ i : Fin 64, isBlank (ofSextet i) = false := by decide
  exact hall ⟨n, h⟩

/-! ## Groups -/

theorem decodeGroup?_one (a : UInt8) :
    decodeGroup? (ofSextet (a.toNat * 16 / 64)) (ofSextet (a.toNat * 16 % 64)) '=' '=' true
      = some [a] := by
  have ha := a.toNat_lt
  have hhigh : a.toNat * 16 / 64 < 64 := by omega
  have hlow : a.toNat * 16 % 64 < 64 := by omega
  have hzero : a.toNat * 16 % 64 % 16 = 0 := by omega
  have hbyte : a.toNat * 16 / 64 * 4 + a.toNat * 16 % 64 / 16 = a.toNat := by omega
  simp only [decodeGroup?, toSextet?_ofSextet hhigh, toSextet?_ofSextet hlow,
    Option.bind_eq_bind, Option.bind_some, and_self, if_pos, hzero, hbyte, UInt8.ofNat_toNat]

theorem decodeGroup?_two (a b : UInt8) :
    let n := (a.toNat * 256 + b.toNat) * 4
    decodeGroup? (ofSextet (n / 4096)) (ofSextet (n / 64 % 64)) (ofSextet (n % 64)) '=' true
      = some [a, b] := by
  intro n
  have ha := a.toNat_lt
  have hb := b.toNat_lt
  have h1 : n / 4096 < 64 := by omega
  have h2 : n / 64 % 64 < 64 := by omega
  have h3 : n % 64 < 64 := by omega
  have hsum : (n / 4096 * 64 + n / 64 % 64) * 64 + n % 64 = n := by omega
  have hzero : n % 4 = 0 := by omega
  have hfirst : n / 1024 = a.toNat := by omega
  have hsecond : n / 4 % 256 = b.toNat := by omega
  simp [decodeGroup?, toSextet?_ofSextet h1, toSextet?_ofSextet h2, toSextet?_ofSextet h3,
    ofSextet_ne_pad h3, hsum, hzero, hfirst, hsecond]

theorem decodeGroup?_three (a b c : UInt8) (last : Bool) :
    let n := (a.toNat * 256 + b.toNat) * 256 + c.toNat
    decodeGroup? (ofSextet (n / 262144)) (ofSextet (n / 4096 % 64)) (ofSextet (n / 64 % 64))
      (ofSextet (n % 64)) last = some [a, b, c] := by
  intro n
  have ha := a.toNat_lt
  have hb := b.toNat_lt
  have hc := c.toNat_lt
  have h1 : n / 262144 < 64 := by omega
  have h2 : n / 4096 % 64 < 64 := by omega
  have h3 : n / 64 % 64 < 64 := by omega
  have h4 : n % 64 < 64 := by omega
  have hsum : ((n / 262144 * 64 + n / 4096 % 64) * 64 + n / 64 % 64) * 64 + n % 64 = n := by
    omega
  have hfirst : n / 65536 = a.toNat := by omega
  have hsecond : n / 256 % 256 = b.toNat := by omega
  have hthird : n % 256 = c.toNat := by omega
  simp [decodeGroup?, toSextet?_ofSextet h1, toSextet?_ofSextet h2, toSextet?_ofSextet h3,
    toSextet?_ofSextet h4, ofSextet_ne_pad h3, ofSextet_ne_pad h4, hsum, hfirst, hsecond, hthird]

/-! ## Texts -/

theorem decode?_encode : ∀ bytes : List UInt8, decode? (encode bytes) = some bytes
  | [] => rfl
  | [a] => by
      simp only [encode, decode?, List.isEmpty_nil, decodeGroup?_one]
      rfl
  | [a, b] => by
      simp only [encode, decode?, List.isEmpty_nil, decodeGroup?_two]
      rfl
  | a :: b :: c :: rest => by
      simp only [encode, decode?, decodeGroup?_three, decode?_encode rest]
      rfl

theorem textOf?_bytesOf (s : String) : textOf? (bytesOf s) = some s := by
  have hbytes : (⟨(bytesOf s).toArray⟩ : ByteArray) = s.toByteArray := by
    rw [bytesOf]
    simp
  rw [textOf?, hbytes, String.fromUTF8?, dif_pos s.isValidUTF8]
  rfl

theorem isBlank_of_mem_encode : ∀ {bytes : List UInt8} {c : Char}, c ∈ encode bytes →
    isBlank c = false
  | [a], c, h => by
      have ha := a.toNat_lt
      simp only [encode, List.mem_cons, List.not_mem_nil, or_false] at h
      rcases h with rfl | rfl | rfl | rfl
      · exact isBlank_ofSextet (by omega)
      · exact isBlank_ofSextet (by omega)
      · decide
      · decide
  | [a, b], c, h => by
      have ha := a.toNat_lt
      have hb := b.toNat_lt
      simp only [encode, List.mem_cons, List.not_mem_nil, or_false] at h
      rcases h with rfl | rfl | rfl | rfl
      · exact isBlank_ofSextet (by omega)
      · exact isBlank_ofSextet (by omega)
      · exact isBlank_ofSextet (by omega)
      · decide
  | a :: b :: c' :: rest, c, h => by
      have ha := a.toNat_lt
      have hb := b.toNat_lt
      have hc := c'.toNat_lt
      simp only [encode, List.mem_cons] at h
      rcases h with rfl | rfl | rfl | rfl | h
      · exact isBlank_ofSextet (by omega)
      · exact isBlank_ofSextet (by omega)
      · exact isBlank_ofSextet (by omega)
      · exact isBlank_ofSextet (by omega)
      · exact isBlank_of_mem_encode h

end Base64

/-! ## Trimming -/

theorem trimList_of_no_blank {cs : List Char} (h : ∀ c ∈ cs, isBlank c = false) :
    trimList cs = cs := by
  have hdrop : ∀ {l : List Char}, (∀ c ∈ l, isBlank c = false) → l.dropWhile isBlank = l := by
    intro l hl
    cases l with
    | nil => rfl
    | cons c rest => rw [List.dropWhile_cons_of_neg (by simp [hl c (List.mem_cons_self ..)])]
  have hreverse : ∀ c ∈ cs.reverse, isBlank c = false :=
    fun c hc => h c (List.mem_reverse.mp hc)
  rw [trimList, hdrop h, hdrop hreverse, List.reverse_reverse]

/-- An encoded text is read back, blanks around it or not. -/
theorem Base64.decode?_encodeText (s : String) :
    Base64.decode? (trim (Base64.encodeText s)).toList = some (Base64.bytesOf s) := by
  rw [Base64.encodeText, trim, String.toList_ofList, String.toList_ofList,
    trimList_of_no_blank fun c hc => Base64.isBlank_of_mem_encode hc, Base64.decode?_encode]

end RecordMapper.Text
