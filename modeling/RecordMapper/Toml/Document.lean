import RecordMapper.Toml.Outline
import RecordMapper.Toml.Scalar

/-!
# Settings files

Reading goes in two steps. The outline of the file is drawn first, and a file
without one is malformed. Then keys and scalars are read in the order of the
text and put into the tree one after the other, so that the first of them that
cannot be read or does not fit its place decides the fault. The pairs behind a
header belong to the table it names, those before the first header to the root.
-/

namespace RecordMapper.Toml

/-! ## Keys and values -/

/-- How many parts a key may have. -/
def maxKeyParts : Nat := 80

/-- A key by its parts. Their number counts once all of them are read. -/
def readKey (k : WrittenKey) : Except Fault (List String) :=
  match k.mapM keyPart? with
  | none => .error .malformed
  | some path => if maxKeyParts < path.length then .error .longKey else .ok path

/-- A text or a word. -/
def readScalar (written : List Char) : Except Fault Toml :=
  let x := if written.head?.any Outline.isMark then (text? written).map Toml.text
    else ofWord? written
  match x with
  | none => .error .malformed
  | some x => .ok x

mutual

def readValue : Outline → Except Fault Toml
  | .scalar written => readScalar written
  | .array items => (readItems items).map Toml.array
  | .table pairs => (addPairs pairs []).map (Toml.table .inline)
termination_by structural o => o

def readItems : List Outline → Except Fault (List Toml)
  | [] => .ok []
  | o :: rest => do
      let x ← readValue o
      let xs ← readItems rest
      .ok (x :: xs)
termination_by structural os => os

/-- Reads pairs and adds each to a table before the next is read. -/
def addPairs : List (WrittenKey × Outline) → Members → Except Fault Members
  | [], ms => .ok ms
  | (k, o) :: rest, ms => do
      let path ← readKey k
      let x ← readValue o
      let ms ← insertPair x path ms
      addPairs rest ms
termination_by structural pairs => pairs

end

/-! ## Sections -/

/-- The pairs up to the next header, and the lines from it on. -/
def splitPairs : List Line → List (WrittenKey × Outline) × List Line
  | .pair k x :: rest =>
      let (pairs, rest) := splitPairs rest
      ((k, x) :: pairs, rest)
  | rest => ([], rest)

/-- The table of a header with its pairs. One of an array is placed when it is full. -/
def addSection (doubled : Bool) (path : List String) (pairs : List (WrittenKey × Outline))
    (ms : Members) : Except Fault Members :=
  if doubled then do
    let table ← addPairs pairs []
    appendTable table path ms
  else openTable (addPairs pairs) path ms

/-- The sections of all headers, one after the other; the number bounds them. -/
def sections : Nat → List Line → Members → Except Fault Members
  | _, [], ms => .ok ms
  | n + 1, .header doubled k :: rest, ms => do
      let path ← readKey k
      let (pairs, rest) := splitPairs rest
      let ms ← addSection doubled path pairs ms
      sections n rest ms
  | _, _, _ => .error .malformed

/-- The root table of a settings file. -/
def parse (content : String) : Except Fault Members :=
  match Outline.ofFile? content with
  | none => .error .malformed
  | some all => do
      let (pairs, rest) := splitPairs all
      let ms ← addPairs pairs []
      sections rest.length rest ms

end RecordMapper.Toml
