import RecordMapper.Decimal.Read
import RecordMapper.Error
import RecordMapper.Toml.Document

/-!
# Configuration

The settings of the library, read from a TOML file in which every key may be
left out and no other key may occur. A group of settings is a table, or an array
that gives the settings in their order. A configured maximum must leave room for
the default.
-/

namespace RecordMapper

structure HydrationConfig where
  /-- How many records may enclose one another in hydrated output. -/
  maxDepth : Nat := 1
deriving DecidableEq, Repr

structure PaginationConfig where
  /-- The limit where a request does not ask for a page. -/
  defaultLimit : Nat := 1000
  /-- The largest page that a request may ask for. -/
  maxLimit : Option Nat := none
deriving DecidableEq, Repr

structure Config where
  hydration : HydrationConfig := {}
  pagination : PaginationConfig := {}
deriving DecidableEq, Repr

instance : Inhabited HydrationConfig := ⟨{}⟩

instance : Inhabited PaginationConfig := ⟨{}⟩

instance : Inhabited Config := ⟨{}⟩

namespace Config

/-! ## Settings out of a tree -/

/-- A natural number that 64 bits hold. -/
def count? : Toml → Option Nat
  | .integer base written => do
      let i ← Toml.integerValue? base written
      if 0 ≤ i ∧ i < (Decimal.wordLimit : Int) then some i.toNat else none
  | _ => none

/-- A setting that may be absent: its default, or what is there if it can be read. -/
def setting? {α : Type} (read : Toml → Option α) (fallback : α) : Option Toml → Option α
  | none => some fallback
  | some x => read x

/-- No key but the known ones. -/
def knowsAll (known : List String) (ms : Toml.Members) : Bool :=
  ms.all fun m => known.contains m.1

/-- The settings of a group by their names or, in an array, by their places; an array may
be longer than the group. -/
def group? (names : List String) : Toml → Option (List (Option Toml))
  | .table _ ms =>
      if knowsAll names ms then some (names.map fun name => Toml.lookup? name ms) else none
  | .array items => some ((List.range names.length).map fun i => items[i]?)
  | .tables items =>
      some ((List.range names.length).map fun i => items[i]?.map (Toml.table .header))
  | _ => none

def hydration? (x : Toml) : Option HydrationConfig := do
  match ← group? ["max_depth"] x with
  | [depth] =>
      let depth ← setting? count? 1 depth
      some ⟨depth⟩
  | _ => none

def pagination? (x : Toml) : Option PaginationConfig := do
  match ← group? ["default_limit", "max_limit"] x with
  | [usual, most] =>
      let usual ← setting? count? 1000 usual
      let most ← setting? (fun x => (count? x).map some) none most
      some ⟨usual, most⟩
  | _ => none

def ofToml? (ms : Toml.Members) : Option Config := do
  if !knowsAll ["hydration", "pagination"] ms then none
  let hydration ← setting? hydration? {} (Toml.lookup? "hydration" ms)
  let pagination ← setting? pagination? {} (Toml.lookup? "pagination" ms)
  some ⟨hydration, pagination⟩

/-! ## Loading -/

/-- A maximum must be positive and not below the default. -/
def validate (c : Config) : Except Error Unit :=
  match c.pagination.maxLimit with
  | none => .ok ()
  | some most =>
      if most = 0 ∨ most < c.pagination.defaultLimit then
        .error (.limitBelowDefault most c.pagination.defaultLimit)
      else .ok ()

/-- The configuration that a text describes. -/
def parse (content : String) : Except Error Config :=
  match Toml.parse content with
  | .error .malformed => .error .malformedConfig
  | .error .longKey => .error .longConfigKey
  | .ok ms =>
      match ofToml? ms with
      | none => .error .malformedConfig
      | some c => do
          c.validate
          .ok c

/-- The configuration in the file at `path`, whose content is given if it could be read. -/
def load (path : String) (content : Option String) : Except Error Config :=
  match content with
  | none => .error (.unreadableConfig path)
  | some content => (parse content).mapError (.inFile path)

end Config

end RecordMapper
