/-!
# Errors

Every failure has a kind and a text. The kinds are the eight ways in which a
mapper operation can fail, whether the library or the database engine reports
it; an engine's error passes through unchanged. The wording of every error the
library itself raises stands in this file, one definition for each cause.
-/

namespace RecordMapper

inductive Error.Kind where
  /-- No row matched a lookup by identifier. -/
  | notFound
  /-- A builder or result set was used in a way that can never succeed. -/
  | misuse
  /-- A record type lacks its table or its primary key. -/
  | unconfigured
  /-- An encoded filter could not be read, or a filter could not be encoded. -/
  | transport
  /-- A sort direction other than ascending or descending. -/
  | direction
  /-- A row does not fit its record type. -/
  | mapping
  /-- The database engine failed. -/
  | engine
  /-- The configuration could not be loaded. -/
  | config
deriving DecidableEq, Repr

/-- What a message of each kind starts with. -/
def Error.Kind.heading : Error.Kind → String
  | .notFound => "Not found"
  | .misuse => "Builder misuse"
  | .unconfigured => "Configuration missing"
  | .transport => "Transport error"
  | .direction => "Invalid order direction"
  | .mapping => "Mapping error"
  | .engine => "Engine error"
  | .config => "Config error"

structure Error where
  kind : Error.Kind
  detail : String
deriving DecidableEq, Repr

namespace Error

def message (e : Error) : String :=
  e.kind.heading ++ ": " ++ e.detail

/-- A name as messages show it, between back-quotes. -/
def quoted (name : String) : String :=
  "\x60" ++ name ++ "\x60"

/-! ## Record types and their keys -/

def missingTable (model : String) : Error :=
  ⟨.unconfigured, "record type " ++ quoted model ++ " has no table"⟩

def missingKey (model : String) : Error :=
  ⟨.unconfigured, "record type " ++ quoted model ++ " has no primary key"⟩

/-- `id` is the given identifier in its descriptive spelling. -/
def keyMismatch (model : String) (columns : Nat) (id : String) : Error :=
  ⟨.misuse, quoted model ++ " has a " ++ columns.repr
    ++ "-column primary key, got id " ++ id⟩

/-- `key` is the key text of the identifier looked for. -/
def noSuchRecord (model key : String) : Error :=
  ⟨.notFound, model ++ " with id=" ++ key ++ " not found"⟩

def unidentified (verb model : String) : Error :=
  ⟨.misuse, "cannot " ++ verb ++ " " ++ quoted model ++ " without a primary key"⟩

def noIdentifier (model : String) : Error :=
  ⟨.engine, "unable to create " ++ quoted model ++ ": no identifier returned"⟩

/-! ## Queries and result sets -/

def unboundQuery (table : String) : Error :=
  ⟨.misuse, "cannot execute a query on " ++ quoted table
    ++ " without a bound record type"⟩

def boundElsewhere (bound requested : String) : Error :=
  ⟨.misuse, "query is bound to " ++ quoted bound ++ " but " ++ quoted requested
    ++ " was requested"⟩

def foreignRecord (model expected : String) : Error :=
  ⟨.misuse, "cannot add " ++ quoted model ++ " to a collection of "
    ++ quoted expected⟩

def noTotal : Error := ⟨.engine, "FOUND_ROWS() returned no total"⟩

def badDirection (token : String) : Error := ⟨.direction, token⟩

/-! ## Filters in transport -/

def notEncoded : Error := ⟨.transport, "invalid base64"⟩

def notJson : Error := ⟨.transport, "invalid JSON"⟩

/-- `json` is the printed text of what stands where a filter should. -/
def notAFilter (json : String) : Error :=
  ⟨.transport, "expected filter object, got " ++ json⟩

def notOneOperator (count : Nat) : Error :=
  ⟨.transport, "filter object must have exactly one operator, got " ++ count.repr⟩

def operandsNotArray (key : String) : Error :=
  ⟨.transport, "operands of " ++ quoted key ++ " must be an array"⟩

def emptyGroup (key : String) : Error :=
  ⟨.transport, quoted key ++ " group has no operands"⟩

def unknownOperator (key : String) : Error :=
  ⟨.transport, "unsupported operator " ++ quoted key⟩

def noFieldName (key : String) : Error :=
  ⟨.transport, quoted key ++ " comparison must start with a field name"⟩

/-- `json` is the printed text of the operand. -/
def unsupportedOperand (field json : String) : Error :=
  ⟨.transport, "unsupported operand for " ++ quoted field ++ ": " ++ json⟩

/-- `number` is the key text of the offending number. -/
def notFinite (field number : String) : Error :=
  ⟨.transport, "operand of " ++ quoted field ++ " is not a finite number: " ++ number⟩

/-! ## Configuration -/

def malformedConfig : Error := ⟨.config, "<toml>"⟩

/-- A key of a settings file has too many parts. -/
def longConfigKey : Error := ⟨.config, "recursion limit\n"⟩

def unreadableConfig (path : String) : Error := ⟨.config, path ++ ": <io>"⟩

def limitBelowDefault (maxLimit defaultLimit : Nat) : Error :=
  ⟨.config, "pagination.max_limit (" ++ maxLimit.repr
    ++ ") must be at least default_limit (" ++ defaultLimit.repr ++ ")"⟩

/-- An error met while loading `path`: the inner message in full follows the path. -/
def inFile (path : String) (e : Error) : Error :=
  ⟨.config, path ++ ": " ++ e.message⟩

end Error

end RecordMapper
