/-!
# Settings trees

A settings file is a table of named values, which may be tables again. How a
table came to be decides who may still add to it: a table opened by a header may
be opened only once, one built by dotted keys takes further dotted keys, and one
written inline is finished. `openTable` and `insertPair` build a tree under
these rules and refuse what breaks them, a repeated key included.

Numbers stay as they are written: what an integer counts is found out when it is
asked for, so a number that nobody asks for may be of any size.

Whoever refuses a file says why by a `Fault`; the first fault decides.
-/

namespace RecordMapper

namespace Toml

/-- Why a settings file is refused. -/
inductive Fault where
  /-- It breaks a rule of the notation. -/
  | malformed
  /-- A key has more parts than a key may have. -/
  | longKey
deriving DecidableEq, Repr

/-- How a table came to be. -/
inductive Origin where
  /-- Named by a header. -/
  | header
  /-- Passed through by a longer header. -/
  | implied
  /-- Passed through by a dotted key. -/
  | dotted
  /-- Written between braces. -/
  | inline
deriving DecidableEq, Repr

end Toml

inductive Toml where
  /-- An integer in a base, as written but without underscores. -/
  | integer (base : Nat) (written : String)
  /-- A number with a fraction or an exponent, infinity or not-a-number, as written but
  without underscores. -/
  | float (written : String)
  | bool (b : Bool)
  | text (s : String)
  /-- A date, a time or both, as written. -/
  | moment (s : String)
  | array (items : List Toml)
  /-- An array of tables, each opened by a header of its own. -/
  | tables (items : List (List (String × Toml)))
  | table (origin : Toml.Origin) (members : List (String × Toml))
deriving Inhabited

namespace Toml

abbrev Members := List (String × Toml)

def lookup? (key : String) (ms : Members) : Option Toml :=
  (ms.find? fun m => m.1 == key).map Prod.snd

/-- Replaces a member or adds it at the end. -/
def put (key : String) (value : Toml) : Members → Members
  | [] => [(key, value)]
  | m :: rest => if m.1 = key then (key, value) :: rest else m :: put key value rest

/-- Adds a value under a dotted key. -/
def insertPair (value : Toml) : List String → Members → Except Fault Members
  | [], _ => .error .malformed
  | [key], ms =>
      match lookup? key ms with
      | none => .ok (put key value ms)
      | some _ => .error .malformed
  | key :: path, ms =>
      match lookup? key ms with
      | none => (insertPair value path []).map fun sub => put key (.table .dotted sub) ms
      | some (.table .dotted sub) =>
          (insertPair value path sub).map fun sub => put key (.table .dotted sub) ms
      | some _ => .error .malformed

/-- Does `place` with the last key of a header, in the table that the keys before it lead
to. Tables that are missing on the way are made. -/
def atHeader (place : String → Members → Except Fault Members) :
    List String → Members → Except Fault Members
  | [], _ => .error .malformed
  | [key], ms => place key ms
  | key :: path, ms =>
      match lookup? key ms with
      | none => (atHeader place path []).map fun sub => put key (.table .implied sub) ms
      | some (.table .inline _) => .error .malformed
      | some (.table origin sub) =>
          (atHeader place path sub).map fun sub => put key (.table origin sub) ms
      | some (.tables items) =>
          match items.getLast? with
          | none => .error .malformed
          | some last =>
              (atHeader place path last).map fun last =>
                put key (.tables (items.dropLast ++ [last])) ms
      | some _ => .error .malformed

/-- Opens the table that a header names and fills it. -/
def openTable (fill : Members → Except Fault Members) :
    List String → Members → Except Fault Members :=
  atHeader fun key ms =>
    match lookup? key ms with
    | none => (fill []).map fun sub => put key (.table .header sub) ms
    | some (.table .implied sub) =>
        (fill sub).map fun sub => put key (.table .header sub) ms
    | some _ => .error .malformed

/-- Adds a table to the array that a doubled header names. -/
def appendTable (table : Members) : List String → Members → Except Fault Members :=
  atHeader fun key ms =>
    match lookup? key ms with
    | none => .ok (put key (.tables [table]) ms)
    | some (.tables items) => .ok (put key (.tables (items ++ [table])) ms)
    | some _ => .error .malformed

end Toml

end RecordMapper
