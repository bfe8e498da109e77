import RecordMapper.Text.Reader

/-!
# Texts and keys of settings files

Texts stand between quotation marks, with escapes, or between apostrophes,
without; three marks of either kind open a text of several lines. A part of a
key is a bare word or a text on one line.
-/

namespace RecordMapper.Toml

open Text

/-! ## Blanks, comments and line ends -/

def isSpace (c : Char) : Bool := c == ' ' || c == '\t'

def skipSpaces (cs : List Char) : List Char := cs.dropWhile isSpace

/-- A control character that may stand neither in a comment nor in a text. -/
def isControl (c : Char) : Bool :=
  (c.toNat < 0x20 && c != '\t') || c.toNat == 0x7f

/-- The text behind a line end, if one is at hand. -/
def dropLineEnd? : List Char → Option (List Char)
  | '\n' :: rest => some rest
  | '\r' :: '\n' :: rest => some rest
  | _ => none

/-- Passes over a comment, if one is at hand, up to the line end. A comment with a control
character in it is left where it is, so that nothing that may follow is found. -/
def skipComment : List Char → List Char
  | '#' :: rest =>
      let behind := rest.dropWhile fun c => !isControl c
      if behind.isEmpty || (dropLineEnd? behind).isSome then behind else '#' :: rest
  | cs => cs

/-- Passes over blanks, comments and line ends; the number bounds the lines. -/
def skipLines : Nat → List Char → List Char
  | 0, cs => cs
  | n + 1, cs =>
      let cs := skipComment (skipSpaces cs)
      match dropLineEnd? cs with
      | some rest => skipLines n rest
      | none => cs

def skipBlank (cs : List Char) : List Char := skipLines (cs.length + 1) cs

/-! ## Texts -/

def mark : Char := '\x22'

def apostrophe : Char := '\x27'

/-- The character of a code point, surrogates excluded. -/
def ofCodePoint? (n : Nat) : Option Char :=
  if n.isValidChar then some (Char.ofNat n) else none

def hexEscape (count : Nat) : Reader Char := fun cs => do
  let (n, rest) ← hexDigits 0 count cs
  let c ← ofCodePoint? n
  some (c, rest)

/-- What follows a backslash. -/
def escape : Reader Char
  | [] => none
  | c :: rest =>
      if c = mark ∨ c = '\\' then some (c, rest)
      else if c = 'b' then some ('\x08', rest)
      else if c = 't' then some ('\t', rest)
      else if c = 'n' then some ('\n', rest)
      else if c = 'f' then some ('\x0c', rest)
      else if c = 'r' then some ('\r', rest)
      else if c = 'e' then some ('\x1b', rest)
      else if c = 'x' then hexEscape 2 rest
      else if c = 'u' then hexEscape 4 rest
      else if c = 'U' then hexEscape 8 rest
      else none

/-- The rest of a text on one line, behind its opening mark; escapes count between
quotation marks only. -/
def lineText (close : Char) : Nat → Reader (List Char)
  | 0, _ => none
  | _ + 1, [] => none
  | n + 1, c :: rest =>
      if c = close then some ([], rest)
      else if c = '\\' ∧ close = mark then do
        let (x, rest) ← escape rest
        let (xs, rest) ← lineText close n rest
        some (x :: xs, rest)
      else if isControl c then none
      else do
        let (xs, rest) ← lineText close n rest
        some (c :: xs, rest)

/-- Passes over blanks and line ends. -/
def skipLineEnds : List Char → List Char
  | '\r' :: '\n' :: rest => skipLineEnds rest
  | c :: rest => if isSpace c || c == '\n' then skipLineEnds rest else c :: rest
  | [] => []

/-- The text behind a backslash that ends a line, and behind all blanks that follow. -/
def dropFold? (cs : List Char) : Option (List Char) :=
  (dropLineEnd? (skipSpaces cs)).map skipLineEnds

/-- The rest of a text of several lines, behind its opening marks. Up to two marks may
stand right before the closing three. -/
def linesText (close : Char) : Nat → Reader (List Char)
  | 0, _ => none
  | _ + 1, [] => none
  | n + 1, c :: rest =>
      if c = close then
        let run := (c :: rest).takeWhile (· == close)
        if run.length < 3 then do
          let (xs, rest) ← linesText close n rest
          some (c :: xs, rest)
        else if run.length ≤ 5 then
          some (List.replicate (run.length - 3) close, (c :: rest).drop run.length)
        else none
      else if c = '\\' ∧ close = mark then
        match dropFold? rest with
        | some rest => linesText close n rest
        | none => do
            let (x, rest) ← escape rest
            let (xs, rest) ← linesText close n rest
            some (x :: xs, rest)
      else match dropLineEnd? (c :: rest) with
        | some rest => do
            let (xs, rest) ← linesText close n rest
            some ('\n' :: xs, rest)
        | none =>
            if isControl c then none
            else do
              let (xs, rest) ← linesText close n rest
              some (c :: xs, rest)

/-- A text on one line. -/
def oneLine : Reader String
  | [] => none
  | c :: rest =>
      if c = mark ∨ c = apostrophe then do
        let (xs, rest) ← lineText c (rest.length + 1) rest
        some (String.ofList xs, rest)
      else none

/-- A text of either kind. A line end right behind three opening marks does not count. -/
def anyText : Reader String
  | a :: b :: c :: rest =>
      if (a = mark ∨ a = apostrophe) ∧ b = a ∧ c = a then do
        let rest := (dropLineEnd? rest).getD rest
        let (xs, rest) ← linesText a (rest.length + 1) rest
        some (String.ofList xs, rest)
      else oneLine (a :: b :: c :: rest)
  | cs => oneLine cs

/-- The text that `cs` spells from its first to its last mark. -/
def text? (cs : List Char) : Option String :=
  match anyText cs with
  | some (s, []) => some s
  | _ => none

/-! ## Parts of keys -/

def isBare (c : Char) : Bool :=
  ('a' ≤ c && c ≤ 'z') || ('A' ≤ c && c ≤ 'Z') || ('0' ≤ c && c ≤ '9') ||
    c == '_' || c == '-'

/-- The part of a key that `cs` spells. -/
def keyPart? (cs : List Char) : Option String :=
  if !cs.isEmpty && cs.all isBare then some (String.ofList cs)
  else match oneLine cs with
    | some (s, []) => some s
    | _ => none

end RecordMapper.Toml
