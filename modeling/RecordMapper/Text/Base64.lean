/-!
# Base64

The standard alphabet with required padding. Each group of four characters
stands for three bytes; the last group may end in one or two padding signs and
then stands for two bytes or one. Decoding accepts exactly what encoding writes:
the bits that a padded group leaves over must be zero.
-/

namespace RecordMapper.Text.Base64

/-- The character for a value below 64. -/
def ofSextet (n : Nat) : Char :=
  if n < 26 then Char.ofNat ('A'.toNat + n)
  else if n < 52 then Char.ofNat ('a'.toNat + (n - 26))
  else if n < 62 then Char.ofNat ('0'.toNat + (n - 52))
  else if n = 62 then '+'
  else '/'

def toSextet? (c : Char) : Option Nat :=
  if 'A' ≤ c ∧ c ≤ 'Z' then some (c.toNat - 'A'.toNat)
  else if 'a' ≤ c ∧ c ≤ 'z' then some (c.toNat - 'a'.toNat + 26)
  else if '0' ≤ c ∧ c ≤ '9' then some (c.toNat - '0'.toNat + 52)
  else if c = '+' then some 62
  else if c = '/' then some 63
  else none

def encode : List UInt8 → List Char
  | [] => []
  | [a] =>
      let n := a.toNat * 16
      [ofSextet (n / 64), ofSextet (n % 64), '=', '=']
  | [a, b] =>
      let n := (a.toNat * 256 + b.toNat) * 4
      [ofSextet (n / 4096), ofSextet (n / 64 % 64), ofSextet (n % 64), '=']
  | a :: b :: c :: rest =>
      let n := (a.toNat * 256 + b.toNat) * 256 + c.toNat
      ofSextet (n / 262144) :: ofSextet (n / 4096 % 64) :: ofSextet (n / 64 % 64)
        :: ofSextet (n % 64) :: encode rest

/-- The bytes of a group of four, which ends the text when it holds padding. -/
def decodeGroup? (a b c d : Char) (last : Bool) : Option (List UInt8) := do
  let a ← toSextet? a
  let b ← toSextet? b
  if last ∧ c = '=' ∧ d = '=' then
    if b % 16 = 0 then some [UInt8.ofNat (a * 4 + b / 16)] else none
  else
    let c ← toSextet? c
    if last ∧ d = '=' then
      let n := (a * 64 + b) * 64 + c
      if n % 4 = 0 then some [UInt8.ofNat (n / 1024), UInt8.ofNat (n / 4 % 256)] else none
    else
      let d ← toSextet? d
      let n := ((a * 64 + b) * 64 + c) * 64 + d
      some [UInt8.ofNat (n / 65536), UInt8.ofNat (n / 256 % 256), UInt8.ofNat (n % 256)]

def decode? : List Char → Option (List UInt8)
  | [] => some []
  | a :: b :: c :: d :: rest => do
      let bytes ← decodeGroup? a b c d rest.isEmpty
      let more ← decode? rest
      some (bytes ++ more)
  | _ => none

/-- The bytes of a text. -/
def bytesOf (s : String) : List UInt8 := s.toUTF8.data.toList

/-- The text with these bytes, if they are one. -/
def textOf? (bytes : List UInt8) : Option String :=
  String.fromUTF8? ⟨bytes.toArray⟩

def encodeText (s : String) : String :=
  String.ofList (encode (bytesOf s))

end RecordMapper.Text.Base64
