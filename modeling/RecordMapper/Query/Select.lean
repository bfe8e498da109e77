import RecordMapper.Query.Direction
import RecordMapper.Record.Model

/-!
# Building queries

A `Select` collects what a SELECT statement is to say: a table, the columns
wanted, joins, a filter, sort keys and bounds. Names are made to belong to their
table as soon as they are given, so a query can be joined into another one
without its names changing hands: its columns, filter and joins become part of
the other, and its sort keys and bounds do not.
-/

namespace RecordMapper

namespace Query

/-- `INNER JOIN table ON table.localKey = base.foreignKey`. -/
structure Join where
  table : String
  localKey : String
  foreignKey : String
  /-- The table that the joined one is related to. -/
  base : String
deriving DecidableEq, Repr

end Query

open Query

structure Select where
  table : String
  /-- The record type that rows are loaded as, if the query is bound to one. -/
  model : Option Model
  columns : NameSet
  joins : List Join
  filter : Filter
  orders : OrderedMap Direction
  offset : Nat
  /-- Without a limit there is no LIMIT clause, and the offset does not show. -/
  limit : Option Nat

/-- What a join attaches: a bare table, or a query that is merged. -/
inductive JoinTarget where
  | table (name : String)
  | query (other : Select)

namespace Select

/-- A query on a table, bound to no record type. -/
def ofTable (table : String) : Select where
  table := table
  model := none
  columns := ∅
  joins := []
  filter := ∅
  orders := ∅
  offset := 0
  limit := none

instance : Inhabited Select := ⟨ofTable ""⟩

/-! ## Conditions -/

/-- Pushes a condition if there is one, its bare fields belonging to this table. -/
def append (q : Select) (op : Connective) (node : Option Filter.Node) : Select :=
  { q with filter := q.filter.append op (node.map (Filter.Node.qualify q.table)) }

def andWhere (q : Select) (node : Option Filter.Node) : Select := q.append .and node

def orWhere (q : Select) (node : Option Filter.Node) : Select := q.append .or node

/-! ## Columns and joins -/

/-- Adds output columns; empty names are passed over. -/
def select (q : Select) (names : List String) : Select :=
  { q with
    columns := q.columns.insertAll <|
      (names.filter fun name => !name.isEmpty).map (Filter.qualifyName q.table) }

/-- The clause that joins `table` to this query's own table. -/
def joinClause (q : Select) (table localKey foreignKey : String) : Join :=
  ⟨table, localKey, foreignKey, q.table⟩

/-- Joins `target` on its `localKey` and this table's `foreignKey`. -/
def joinOn (q : Select) (target : JoinTarget) (localKey foreignKey : String) : Select :=
  match target with
  | .table name => { q with joins := q.joins ++ [q.joinClause name localKey foreignKey] }
  | .query other =>
      { q with
        joins := q.joins ++ q.joinClause other.table localKey foreignKey :: other.joins
        columns := q.columns.insertAll other.columns.names
        filter := q.filter.append .and other.filter.root }

/-- Joins `target` on a key of the same name in both tables. -/
def join (q : Select) (target : JoinTarget) (key : String) : Select :=
  q.joinOn target key key

/-! ## Order and bounds -/

/-- Sorting by a field again changes its direction where it stands. -/
def order (q : Select) (field : String) (direction : Direction) : Select :=
  { q with orders := q.orders.insert field direction }

def withOffset (q : Select) (offset : Nat) : Select := { q with offset := offset }

/-- A negative limit means no limit. -/
def withLimit (q : Select) (limit : Int) : Select :=
  { q with limit := if limit < 0 then none else some limit.toNat }

/-! ## Record types -/

/-- The query for a record type and its chain of ancestors. Each ancestor is joined
once, with its declared columns selected. -/
def ofChain (d : Descriptor) : List Ancestor → Except Error Select
  | [] => do
      d.validate
      .ok { ofTable d.table with model := some ⟨d, []⟩ }
  | parent :: rest => do
      d.validate
      let inherited ← ofChain parent.toDescriptor rest
      let base := { ofTable d.table with model := some ⟨d, parent :: rest⟩ }
      .ok (base.joinOn (.query (inherited.select parent.columns))
        parent.localKey parent.foreignKey)

/-- A query bound to a record type. -/
def ofModel (m : Model) : Except Error Select := ofChain m.toDescriptor m.ancestors

end Select

end RecordMapper
