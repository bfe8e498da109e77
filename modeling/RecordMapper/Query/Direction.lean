import RecordMapper.Error
import RecordMapper.Text.Blank
import RecordMapper.Text.Fold

/-!
# Sort directions
-/

namespace RecordMapper.Query

inductive Direction where
  | ascending
  | descending
deriving DecidableEq, Repr

namespace Direction

def keyword : Direction → String
  | .ascending => "ASC"
  | .descending => "DESC"

/-- Blanks around the word and letter case do not matter; any other word is refused,
so a direction never carries foreign text into a statement. -/
def parse (s : String) : Except Error Direction :=
  let word := Text.trim s
  if Text.sameWord word "asc" then .ok .ascending
  else if Text.sameWord word "desc" then .ok .descending
  else .error (.badDirection word)

end Direction

end RecordMapper.Query
