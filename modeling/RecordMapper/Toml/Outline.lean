import RecordMapper.Toml.Text

/-!
# Outlines of settings files

An outline tells which keys and values a settings file has and how they enclose
one another; keys and scalars stand in it as they are written. Whoever draws it
judges the signs of structure, the comments and the line ends, and where one
word or text ends and the next begins.

Whether a word means anything is not judged here, nor whether a text has its
closing mark. A part of a key that is missing, and a value that is missing at
the end of a line or of an inline table, are drawn as empty words.
-/

namespace RecordMapper.Toml

open Text

/-- A key as written: its parts, without the points and the blanks between them. -/
abbrev WrittenKey := List (List Char)

/-- A value with all keys and scalars as written. -/
inductive Outline where
  | scalar (written : List Char)
  | array (items : List Outline)
  | table (pairs : List (WrittenKey × Outline))
deriving Inhabited

inductive Line where
  | pair (key : WrittenKey) (value : Outline)
  | header (doubled : Bool) (key : WrittenKey)

namespace Outline

/-! ## Words and texts -/

def isMark (c : Char) : Bool := c == mark || c == apostrophe

/-- A character that no word holds: the signs of structure, blanks and line ends. -/
def endsWord (c : Char) : Bool :=
  isSpace c || ['=', ',', '[', ']', '{', '}', '#', '\r', '\n'].contains c

/-- A text on one line behind its opening mark, up to and with the closing mark, or up to
the line end. A shielded character stands behind the backslash of an escape. -/
def lineExtent (close : Char) : Bool → List Char → List Char × List Char
  | _, [] => ([], [])
  | shielded, c :: rest =>
      if c = '\n' then ([], c :: rest)
      else if shielded && (c == mark || c == '\\') then
        let (w, rest) := lineExtent close false rest
        (c :: w, rest)
      else if c = close then ([c], rest)
      else
        let (w, rest) := lineExtent close (close == mark && c == '\\') rest
        (c :: w, rest)

/-- A text of several lines behind its opening marks, up to and with the closing marks,
before which two more may stand, or up to the end of the file. -/
def linesExtent (close : Char) : Bool → List Char → List Char × List Char
  | _, [] => ([], [])
  | shielded, c :: rest =>
      let run := ((c :: rest).takeWhile (· == close)).take 5
      if shielded && (c == mark || c == '\\') then
        let (w, rest) := linesExtent close false rest
        (c :: w, rest)
      else if 3 ≤ run.length then (run, (c :: rest).drop run.length)
      else
        let (w, rest) := linesExtent close (close == mark && c == '\\') rest
        (c :: w, rest)

/-- A text with its marks, if one is at hand. -/
def text : Reader (List Char)
  | [] => none
  | c :: rest =>
      if !isMark c then none
      else match dropWord? [c, c] rest with
        | some rest =>
            let (w, rest) := linesExtent c false rest
            some (c :: c :: c :: w, rest)
        | none =>
            let (w, rest) := lineExtent c false rest
            some (c :: w, rest)

/-- Whether a word goes on behind the blanks at hand. -/
def goesOn (cs : List Char) : Bool :=
  (skipSpaces cs).head?.any fun c => !(endsWord c || isMark c || c == '.')

/-- A word with its points. Blanks belong to it if it goes on behind them, as between a
date and a time. Where a text could begin, behind a point, a mark ends the word. -/
def word : Bool → List Char → List Char × List Char
  | _, [] => ([], [])
  | fresh, c :: rest =>
      if !(fresh && isMark c) && (!endsWord c || (isSpace c && goesOn rest)) then
        let (w, rest) := word (c == '.') rest
        (c :: w, rest)
      else ([], c :: rest)

/-- A text or a word, which is not empty. -/
def scalarText : Reader (List Char) := fun cs =>
  match text cs with
  | some x => some x
  | none =>
      let (w, rest) := word true cs
      if w.isEmpty then none else some (w, rest)

/-! ## Keys -/

/-- One part of a key; it is empty where something else stands in its place. -/
def keyPart (cs : List Char) : List Char × List Char :=
  match text cs with
  | some x => x
  | none =>
      let inPart := fun c => !(endsWord c || c == '.')
      (cs.takeWhile inPart, cs.dropWhile inPart)

/-- A key with its points; blanks may stand around each part. The number bounds the
parts. -/
def keyParts : Nat → List Char → WrittenKey × List Char
  | 0, cs => ([], cs)
  | n + 1, cs =>
      let (part, rest) := keyPart (skipSpaces cs)
      match skipSpaces rest with
      | '.' :: rest =>
          let (parts, rest) := keyParts n rest
          (part :: parts, rest)
      | rest => ([part], rest)

def key (cs : List Char) : WrittenKey × List Char := keyParts (cs.length + 1) cs

/-! ## Values -/

/-- Items up to the closing character, with commas between them and perhaps one behind
the last. The number bounds the items. -/
def itemsUntil {α : Type} (item : Reader α) (close : Char) : Nat → Reader (List α)
  | 0, _ => none
  | n + 1, cs =>
      match skipBlank cs with
      | [] => none
      | c :: rest =>
          if c = close then some ([], rest)
          else do
            let (x, rest) ← item (c :: rest)
            match skipBlank rest with
            | [] => none
            | d :: rest =>
                if d = close then some ([x], rest)
                else if d = ',' then do
                  let (xs, rest) ← itemsUntil item close n rest
                  some (x :: xs, rest)
                else none

/-- A key, an equals sign and a value in an inline table. In front of the closing brace the
value may be missing, and the equals sign with it. -/
def pair (value : Reader Outline) : Reader (WrittenKey × Outline) := fun cs =>
  let (k, rest) := key cs
  match skipBlank rest with
  | '}' :: rest => some ((k, .scalar []), '}' :: rest)
  | '=' :: rest =>
      match skipBlank rest with
      | '}' :: rest => some ((k, .scalar []), '}' :: rest)
      | rest => (value rest).map fun (x, rest) => ((k, x), rest)
  | _ => none

/-- A value with at most `depth` arrays and inline tables one in the other. Within these,
comments and line ends may stand wherever blanks may, but not inside a key. -/
def value : Nat → Reader Outline
  | 0, cs => (scalarText cs).map fun (w, rest) => (.scalar w, rest)
  | depth + 1, cs =>
      match cs with
      | '[' :: rest => (itemsUntil (value depth) ']' (rest.length + 1) rest).map
          fun (items, rest) => (.array items, rest)
      | '{' :: rest => (itemsUntil (pair (value depth)) '}' (rest.length + 1) rest).map
          fun (pairs, rest) => (.table pairs, rest)
      | cs => (scalarText cs).map fun (w, rest) => (.scalar w, rest)

/-- How many arrays and inline tables may enclose one another. -/
def maxNesting : Nat := 80

/-! ## Lines -/

/-- A value that ends its line, or an empty word where none is left. -/
def lastValue : Reader Outline := fun cs =>
  match cs.head? with
  | none => some (.scalar [], cs)
  | some c =>
      if c = '#' ∨ c = '\n' ∨ c = '\r' then some (.scalar [], cs) else value maxNesting cs

/-- Passes over words, texts and signs up to a comment or the line end; the number bounds
them. -/
def skipLine : Nat → List Char → List Char
  | 0, cs => cs
  | n + 1, cs =>
      match keyPart cs with
      | ([], c :: rest) =>
          if c = '#' ∨ c = '\n' ∨ c = '\r' then c :: rest else skipLine n rest
      | ([], []) => []
      | (_, rest) => skipLine n rest

/-- A header behind its opening brackets. Where the last part of the key is missing, the
closing bracket may be missing too, whatever stands in its place. -/
def header (doubled : Bool) : Reader Line := fun cs =>
  let (k, rest) := key cs
  match dropWord? (if doubled then [']', ']'] else [']']) rest with
  | some rest => some (.header doubled k, rest)
  | none =>
      if k.getLast?.any List.isEmpty && rest.head? != some ']' then
        some (.header doubled k, skipLine rest.length rest)
      else none

def line : Reader Line
  | '[' :: '[' :: rest => header true rest
  | '[' :: rest => header false rest
  | cs => do
      let (k, rest) := key cs
      let rest ← dropWord? ['='] rest
      let (x, rest) ← lastValue (skipSpaces rest)
      some (.pair k x, rest)

/-- All lines of a text. Behind each one only a comment may follow. -/
def lines : Nat → List Char → Option (List Line)
  | 0, _ => none
  | n + 1, cs =>
      match skipBlank cs with
      | [] => some []
      | cs => do
          let (first, rest) ← line cs
          match skipComment (skipSpaces rest) with
          | [] => some [first]
          | rest => do
              let rest ← dropLineEnd? rest
              let more ← lines n rest
              some (first :: more)

/-- The byte order mark, which may open a file. -/
def byteOrderMark : Char := '\ufeff'

/-- The lines of a settings file that are not blank. -/
def ofFile? (content : String) : Option (List Line) :=
  let cs := match content.toList with
    | c :: rest => if c = byteOrderMark then rest else c :: rest
    | [] => []
  lines (cs.length + 1) cs

end Outline

end RecordMapper.Toml
