/-!
# Blank characters

The 25 characters that Unicode gives the property White_Space, and trimming by
them. Direction tokens, operator names, page numbers and encoded filters are
trimmed this way before they are read, so a no-break space around a token is
harmless and a zero-width space is not.
-/

namespace RecordMapper.Text

/-- The White_Space property as inclusive ranges, ascending. -/
def blankRanges : List (Nat × Nat) :=
  [(0x09, 0x0D), (0x20, 0x20), (0x85, 0x85), (0xA0, 0xA0), (0x1680, 0x1680),
    (0x2000, 0x200A), (0x2028, 0x2029), (0x202F, 0x202F), (0x205F, 0x205F),
    (0x3000, 0x3000)]

def isBlank (c : Char) : Bool :=
  blankRanges.any fun r => r.1 ≤ c.toNat && c.toNat ≤ r.2

/-- Drops blanks from both ends. -/
def trimList (cs : List Char) : List Char :=
  ((cs.dropWhile isBlank).reverse.dropWhile isBlank).reverse

def trim (s : String) : String :=
  String.ofList (trimList s.toList)

end RecordMapper.Text
