/-!
# Case folding of keywords

Keywords (operators, sort directions) are compared with the case of the Latin
letters A to Z ignored and every other character taken literally: `lIkE` is
`LIKE`, while a dotted or full-width letter equals only itself.
-/

namespace RecordMapper.Text

def foldChar (c : Char) : Char :=
  if 'A' ≤ c ∧ c ≤ 'Z' then Char.ofNat (c.toNat + 32) else c

def foldCase (s : String) : String :=
  String.ofList (s.toList.map foldChar)

/-- Equality up to the case of A to Z. -/
def sameWord (a b : String) : Bool :=
  foldCase a == foldCase b

end RecordMapper.Text
