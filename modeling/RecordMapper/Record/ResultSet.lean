import RecordMapper.Record.Entity

/-!
# Result sets

Records of one type in order, with the number of rows that the query behind them
would have found without a limit. A set may be bound to a type from the start;
otherwise it takes the type of the first record that is added.
-/

namespace RecordMapper

structure ResultSet (ρ : Type) where
  items : List ρ
  /-- The row count that the engine reports; adding records does not change it. -/
  total : Nat
  /-- The name of the type that the set is bound to. -/
  model : Option String

namespace ResultSet

variable {ρ : Type}

/-- An empty set that will take the type of its first record. -/
def new : ResultSet ρ := ⟨[], 0, none⟩

instance : Inhabited (ResultSet ρ) := ⟨new⟩

/-- An empty set for records of one type. -/
def forModel (name : String) : ResultSet ρ := ⟨[], 0, some name⟩

def withTotal (s : ResultSet ρ) (total : Nat) : ResultSet ρ := { s with total := total }

def size (s : ResultSet ρ) : Nat := s.items.length

def isEmpty (s : ResultSet ρ) : Bool := s.items.isEmpty

def first? (s : ResultSet ρ) : Option ρ := s.items.head?

def get? (s : ResultSet ρ) (index : Nat) : Option ρ := s.items[index]?

variable [Entity ρ]

/-- Appends a record. One of another type is refused. -/
def add (s : ResultSet ρ) (r : ρ) : Except Error (ResultSet ρ) :=
  let name := Entity.typeName r
  match s.model with
  | none => .ok { s with items := s.items ++ [r], model := some name }
  | some expected =>
      if expected = name then .ok { s with items := s.items ++ [r] }
      else .error (.foreignRecord name expected)

/-- Appends records one by one, until one is refused. -/
def addAll (s : ResultSet ρ) : List ρ → Except Error (ResultSet ρ)
  | [] => .ok s
  | r :: rest => do
      let s ← s.add r
      s.addAll rest

/-- A set of these records, whose total is their number. -/
def ofRecords (records : List ρ) : Except Error (ResultSet ρ) := do
  let s ← new.addAll records
  .ok (s.withTotal s.size)

/-- Loads rows one by one and appends the records. -/
def addRows (load : Fields → Except Error ρ) (s : ResultSet ρ) :
    List Fields → Except Error (ResultSet ρ)
  | [] => .ok s
  | row :: rest => do
      let r ← load row
      let s ← s.add r
      s.addRows load rest

/-- The key text of a record: that of a field, or of the primary key if none is given.
Null and missing values have none. -/
def keyText? (field : Option String) (r : ρ) : Option String :=
  match field with
  | some name => ((Entity.get? r name).filter fun v => !v.isNull).map Value.key
  | none => (Entity.id? r).map Value.key

/-- The records by their key texts, in the order in which the keys first occur. Records
without the key are left out; of several with one key the last stays. -/
def toObject (s : ResultSet ρ) (field : Option String) : OrderedMap ρ :=
  OrderedMap.ofList <| s.items.filterMap fun r => (keyText? field r).map fun k => (k, r)

end ResultSet

end RecordMapper
