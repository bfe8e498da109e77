import RecordMapper.Config
import RecordMapper.Decimal.Read
import RecordMapper.Filter.Transport
import RecordMapper.Query.Select

/-!
# Pagination of requests

The pairs of a query string select a page: `page` and `size` become the bounds,
each `order` token a sort key, `filter` carries an encoded filter, and every
other pair is a test of equality on the field of its name. The pairs of one kind
act in their order, and how the kinds are interleaved does not matter.

`ofPairs` reads kind by kind. `readInTurn` takes the pairs as they come: a number takes the place
of the one before it, a sort key is read at once and ends the reading if its direction is no word
for one, an encoded filter is put aside, and so is a field pair. Only behind the last pair is the
filter decoded, and the field pairs join it. The two agree.
-/

namespace RecordMapper

open Query

structure Pagination where
  filter : Filter
  orders : OrderedMap Direction
  offset : Nat
  /-- Without a limit all rows are wanted. -/
  limit : Option Nat

namespace Pagination

/-- No conditions, and the configured default limit. -/
def ofConfig (config : PaginationConfig) : Pagination :=
  ⟨∅, ∅, 0, some config.defaultLimit⟩

instance : Inhabited Pagination := ⟨ofConfig default⟩

/-! ## Adding to a pagination -/

def addOrder (p : Pagination) (field : String) (direction : Direction) : Pagination :=
  { p with orders := p.orders.insert field direction }

/-- The field and the direction of a `field,direction` token, split at its first comma.
The direction may be left out, and blanks around the field do not matter. -/
def readOrder (token : String) : Except Error (String × Direction) :=
  let cs := token.toList
  let field := Text.trim (String.ofList (cs.takeWhile (· != ',')))
  match cs.dropWhile (· != ',') with
  | [] => .ok (field, .ascending)
  | _ :: direction => (Direction.parse (String.ofList direction)).map fun d => (field, d)

def addOrderToken (p : Pagination) (token : String) : Except Error Pagination :=
  (readOrder token).map fun (field, direction) => p.addOrder field direction

/-- A comparison with a request's text; the text NULL asks for rows without a value. -/
def comparison (field operator value : String) : Filter.Node :=
  if value = "NULL" then .unary field "IS NULL" else .binary field operator (.text value)

def addFilter (p : Pagination) (field operator value : String) : Pagination :=
  { p with filter := p.filter.push .and (comparison field operator value) }

def andWhere (p : Pagination) (node : Option Filter.Node) : Pagination :=
  { p with filter := p.filter.append .and node }

/-! ## Reading the pairs of a request -/

/-- The values of the pairs with one of these names, in order. -/
def valuesOf (names : List String) (pairs : List (String × String)) : List String :=
  (pairs.filter fun p => names.contains p.1).map Prod.snd

/-- The names with a meaning of their own. -/
def reserved : List String := ["page", "size", "order", "order[]", "filter"]

/-- The pairs that test a field. -/
def fieldPairs (pairs : List (String × String)) : List (String × String) :=
  pairs.filter fun p => !reserved.contains p.1

/-- The number in the last pair of this name. -/
def numberOf? (name : String) (pairs : List (String × String)) : Option Nat :=
  (valuesOf [name] pairs).getLast?.bind fun text => Decimal.readWord? (Text.trim text)

/-- Offset and limit of a page counted from one. A page or size of zero, and an offset
that 64 bits do not hold, are none. -/
def bounds? (config : PaginationConfig) (page size : Nat) : Option (Nat × Nat) :=
  if page = 0 ∨ size = 0 then none
  else
    let limit := match config.maxLimit with
      | none => size
      | some maxLimit => min size maxLimit
    let offset := (page - 1) * limit
    if offset < Decimal.wordLimit then some (offset, limit) else none

/-- The bounds that the pairs ask for. -/
def requestedBounds? (config : PaginationConfig) (pairs : List (String × String)) :
    Option (Nat × Nat) := do
  let page ← numberOf? "page" pairs
  let size ← numberOf? "size" pairs
  bounds? config page size

def withBounds (p : Pagination) : Option (Nat × Nat) → Pagination
  | none => p
  | some (offset, limit) => { p with offset := offset, limit := some limit }

/-- Adds sort keys one by one, until one cannot be read. -/
def addOrderTokens (p : Pagination) : List String → Except Error Pagination
  | [] => .ok p
  | token :: rest => do
      let p ← p.addOrderToken token
      p.addOrderTokens rest

/-- The filter of the last pair that carries one. -/
def requestedFilter (pairs : List (String × String)) : Except Error Filter :=
  match ((valuesOf ["filter"] pairs).filter fun text => !text.isEmpty).getLast? with
  | none => .ok ∅
  | some text => Filter.decode text

/-- Reads the pairs of a request. Pairs without a value carry neither sort key nor
filter. -/
def ofPairs (config : PaginationConfig) (pairs : List (String × String)) :
    Except Error Pagination := do
  let tokens := (valuesOf ["order", "order[]"] pairs).filter fun token => !token.isEmpty
  let p ← (ofConfig config).addOrderTokens tokens
  let filter ← requestedFilter pairs
  let p := (p.withBounds (requestedBounds? config pairs)).andWhere filter.root
  .ok ((fieldPairs pairs).foldl (fun p e => p.addFilter e.1 "=" e.2) p)

/-! ## Reading in turn -/

/-- What has been read of a request. -/
structure Intake where
  /-- With the sort keys so far. -/
  pagination : Pagination
  page : Option Nat
  size : Option Nat
  encoded : Option String
  tests : List (String × String)

/-- Puts a pair where its kind belongs. A sort key is not put aside but read. -/
def Intake.take (s : Intake) (e : String × String) : Except Error Intake :=
  if e.1 = "page" then .ok { s with page := Decimal.readWord? (Text.trim e.2) }
  else if e.1 = "size" then .ok { s with size := Decimal.readWord? (Text.trim e.2) }
  else if e.1 = "order" ∨ e.1 = "order[]" then
    if e.2.isEmpty then .ok s
    else (s.pagination.addOrderToken e.2).map fun p => { s with pagination := p }
  else if e.1 = "filter" then .ok (if e.2.isEmpty then s else { s with encoded := some e.2 })
  else .ok { s with tests := s.tests ++ [e] }

/-- The page that was asked for, once all pairs are read. -/
def Intake.finish (config : PaginationConfig) (s : Intake) : Except Error Pagination := do
  let bounds := do bounds? config (← s.page) (← s.size)
  let sent ← s.encoded.elim (.ok ∅) Filter.decode
  let p := (s.pagination.withBounds bounds).andWhere sent.root
  .ok (s.tests.foldl (fun p e => p.addFilter e.1 "=" e.2) p)

/-- Reads the pairs of a request as they come. -/
def readInTurn (config : PaginationConfig) (pairs : List (String × String)) :
    Except Error Pagination := do
  let s ← pairs.foldlM Intake.take ⟨ofConfig config, none, none, none, []⟩
  s.finish config

end Pagination

/-- Applies a page to a query: the request's conditions go beside all of those that the
query has, its sort keys follow, and its bounds replace the query's. -/
def Select.paginate (q : Select) (p : Pagination) : Select :=
  { q.append .and p.filter.root with
    orders := q.orders.insertAll p.orders.entries
    offset := p.offset
    limit := p.limit }

end RecordMapper
