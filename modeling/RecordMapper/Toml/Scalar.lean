import RecordMapper.Decimal.Read
import RecordMapper.Text.Reader
import RecordMapper.Toml.Basic

/-!
# Numbers, truth values and moments of settings files

A scalar is one word, whatever its characters, and is classified by its shape. A
mark and no sign stand before the digits of integers in base 16, 8 and 2.
Elsewhere the digits in front decide with what follows them: a decimal integer,
a number with a fraction or an exponent, or a date or time, which must exist in
the calendar. No zero may lead other digits, and underscores stand between
digits.

Classifying does not evaluate. `integerValue?` reads the integer that a text
spells, and refuses what an underscore has let pass as one.
-/

namespace RecordMapper.Toml

open Text

/-! ## Digits -/

def isDigitOf (base : Nat) (c : Char) : Bool :=
  match hexValue? c with
  | some d => d < base
  | none => false

/-- Each underscore stands between digits; `after` tells whether a digit comes before the
text. -/
def isGroupedFrom (isDigit : Char → Bool) : Bool → List Char → Bool
  | _, [] => true
  | after, c :: rest =>
      if c = '_' then after && rest.head?.any isDigit && isGroupedFrom isDigit false rest
      else isGroupedFrom isDigit (isDigit c) rest

/-- Each underscore stands between digits. -/
def isGrouped (isDigit : Char → Bool) (cs : List Char) : Bool :=
  isGroupedFrom isDigit false cs

/-- The text without underscores. -/
def ungrouped (cs : List Char) : String := String.ofList (cs.filter (· != '_'))

/-- The integer that digits with an optional sign spell. -/
def integerValue? (base : Nat) (written : String) : Option Int :=
  let (negative, ds) := Decimal.splitSign written.toList
  if ds.isEmpty || !ds.all (isDigitOf base) then none
  else
    let n : Int := ds.foldl (fun n c => base * n + (hexValue? c).getD 0) 0
    some (if negative then -n else n)

/-! ## Numbers -/

/-- The text behind digits with underscores among them; there is at least one digit. -/
def dropDigits? (cs : List Char) : Option (List Char) :=
  let inRun := fun c => Decimal.isDigit c || c == '_'
  if (cs.takeWhile inRun).any Decimal.isDigit then some (cs.dropWhile inRun) else none

/-- The text behind a fraction, which may be missing. -/
def dropFraction? : List Char → Option (List Char)
  | '.' :: rest => dropDigits? rest
  | cs => some cs

/-- The text behind an exponent, which may be missing. -/
def dropExponent? : List Char → Option (List Char)
  | [] => some []
  | c :: rest =>
      if c = 'e' ∨ c = 'E' then dropDigits? (Decimal.splitSign rest).2 else some (c :: rest)

/-- A zero in front of further digits. -/
def hasLeadingZero (cs : List Char) : Bool :=
  let whole := cs.takeWhile fun c => Decimal.isDigit c || c == '_'
  whole.head? == some '0' && decide (2 ≤ whole.countP Decimal.isDigit)

/-- Digits, a fraction and an exponent, and nothing else. -/
def isFloat (cs : List Char) : Bool :=
  !hasLeadingZero cs
    && ((dropDigits? cs).bind dropFraction?).bind dropExponent? == some []

/-- An integer in a base other than ten, behind the mark of its base. -/
def basedInteger? (base : Nat) (cs : List Char) : Option Toml :=
  if cs.all (fun c => isDigitOf base c || c == '_') && isGrouped (isDigitOf base) cs then
    some (.integer base (ungrouped cs))
  else none

/-! ## Dates and times -/

/-- Exactly two digits, as a number. -/
def twoDigits : Reader Nat
  | a :: b :: rest =>
      if Decimal.isDigit a && Decimal.isDigit b then some (Decimal.ofDigits [a, b], rest)
      else none
  | _ => none

def isLeapYear (year : Nat) : Bool :=
  year % 4 == 0 && (year % 100 != 0 || year % 400 == 0)

def daysIn (year month : Nat) : Nat :=
  if month = 2 then (if isLeapYear year then 29 else 28)
  else if month ∈ [4, 6, 9, 11] then 30
  else 31

/-- The text behind a calendar date. -/
def dropDate? (cs : List Char) : Option (List Char) := do
  let (century, rest) ← twoDigits cs
  let (year, rest) ← twoDigits rest
  let rest ← dropWord? ['-'] rest
  let (month, rest) ← twoDigits rest
  let rest ← dropWord? ['-'] rest
  let (day, rest) ← twoDigits rest
  if 1 ≤ month ∧ month ≤ 12 ∧ 1 ≤ day ∧ day ≤ daysIn (century * 100 + year) month then
    some rest
  else none

/-- The text behind seconds, which may be left out. -/
def dropSeconds? (cs : List Char) : Option (List Char) :=
  match cs with
  | ':' :: rest => do
      let (second, rest) ← twoDigits rest
      if 60 < second then none
      else match rest with
        | '.' :: rest =>
            if (rest.takeWhile Decimal.isDigit).isEmpty then none
            else some (rest.dropWhile Decimal.isDigit)
        | rest => some rest
  | cs => some cs

/-- The text behind a time of day. -/
def dropTime? (cs : List Char) : Option (List Char) := do
  let (hour, rest) ← twoDigits cs
  let rest ← dropWord? [':'] rest
  let (minute, rest) ← twoDigits rest
  if hour ≤ 23 ∧ minute ≤ 59 then dropSeconds? rest else none

/-- Nothing, or an offset from universal time. -/
def isOffset : List Char → Bool
  | [] => true
  | ['Z'] => true
  | ['z'] => true
  | c :: rest =>
      if c = '+' ∨ c = '-' then
        match twoDigits rest with
        | some (hour, ':' :: rest) =>
            match twoDigits rest with
            | some (minute, []) => hour ≤ 23 && minute ≤ 59
            | _ => false
        | _ => false
      else false

def isMoment (cs : List Char) : Bool :=
  match dropDate? cs with
  | some [] => true
  | some (c :: rest) =>
      (c == 'T' || c == 't' || c == ' ')
        && match dropTime? rest with
          | some rest => isOffset rest
          | none => false
  | none => dropTime? cs == some []

/-! ## Words -/

/-- A decimal number or a moment. The digits in front and what follows them decide which
of the two. -/
def decimal? (w : List Char) : Option Toml :=
  let magnitude := (Decimal.splitSign w).2
  let behind := magnitude.dropWhile Decimal.isDigit
  match behind.head? with
  | none =>
      if magnitude.isEmpty || hasLeadingZero magnitude then none
      else some (.integer 10 (String.ofList w))
  | some c =>
      if c = '-' ∨ c = ':' then
        if isMoment w then some (.moment (String.ofList w)) else none
      else if behind.contains ' ' then none
      else if behind.any fun c => c == '.' || c == 'e' || c == 'E' then
        if isFloat magnitude && isGrouped Decimal.isDigit w then some (.float (ungrouped w))
        else none
      else if c = '_' ∧ magnitude.head? ≠ some '0' ∧ isGrouped (isDigitOf 16) w then
        some (.integer 10 (ungrouped w))
      else none

def ofWord? (w : List Char) : Option Toml :=
  if w = "true".toList then some (.bool true)
  else if w = "false".toList then some (.bool false)
  else if (Decimal.splitSign w).2 ∈ ["inf".toList, "nan".toList] then
    some (.float (String.ofList w))
  else match w with
    | '0' :: 'x' :: ds => basedInteger? 16 ds
    | '0' :: 'o' :: ds => basedInteger? 8 ds
    | '0' :: 'b' :: ds => basedInteger? 2 ds
    | w => decimal? w

end RecordMapper.Toml
