/-!
# Maps and sets that remember arrival order

A field map, a list of sort keys and a list of selected columns all show the
order in which names arrived. `OrderedMap` is an association list without
repeated names: putting a value under a name already present changes the value
where the name stands, and a new name goes to the end. `NameSet` keeps names
alone. The absence of repetitions is part of both types.
-/

namespace RecordMapper

/-! ## Raw entries -/

/-- Replaces the value under `name` in place, or adds the pair at the end. -/
def putEntry {α : Type} (name : String) (value : α) :
    List (String × α) → List (String × α)
  | [] => [(name, value)]
  | e :: rest =>
      if e.1 = name then (name, value) :: rest else e :: putEntry name value rest

theorem map_fst_putEntry {α : Type} (name : String) (value : α) :
    ∀ l : List (String × α), (putEntry name value l).map Prod.fst
      = if name ∈ l.map Prod.fst then l.map Prod.fst else l.map Prod.fst ++ [name]
  | [] => rfl
  | e :: rest => by
      have ih := map_fst_putEntry name value rest
      by_cases h : e.1 = name
      · simp [putEntry, h]
      · have h' : ¬name = e.1 := fun he => h he.symm
        simp only [putEntry, if_neg h, List.map_cons, List.mem_cons, h', false_or, ih]
        split <;> rfl

theorem nodup_putEntry {α : Type} {name : String} {value : α} {l : List (String × α)}
    (h : (l.map Prod.fst).Nodup) : ((putEntry name value l).map Prod.fst).Nodup := by
  rw [map_fst_putEntry]
  split
  · exact h
  · rename_i hm
    rw [List.nodup_append]
    refine ⟨h, by simp, ?_⟩
    intro a ha b hb he
    rw [List.mem_singleton] at hb
    exact hm (hb ▸ he ▸ ha)

/-! ## Maps -/

/-- A map from names to values, in order of arrival. -/
structure OrderedMap (α : Type) where
  entries : List (String × α)
  nodup : (entries.map Prod.fst).Nodup

namespace OrderedMap

variable {α : Type}

instance [DecidableEq α] : DecidableEq (OrderedMap α) := fun a b =>
  decidable_of_iff (a.entries = b.entries) <| by
    cases a; cases b; simp

instance [BEq α] : BEq (OrderedMap α) := ⟨fun a b => a.entries == b.entries⟩

def empty : OrderedMap α := ⟨[], .nil⟩

instance : EmptyCollection (OrderedMap α) := ⟨empty⟩

instance : Inhabited (OrderedMap α) := ⟨empty⟩

def isEmpty (m : OrderedMap α) : Bool := m.entries.isEmpty

def size (m : OrderedMap α) : Nat := m.entries.length

/-- The names, in order of arrival. -/
def keys (m : OrderedMap α) : List String := m.entries.map Prod.fst

def get? (m : OrderedMap α) (name : String) : Option α :=
  (m.entries.find? fun e => e.1 == name).map Prod.snd

def contains (m : OrderedMap α) (name : String) : Bool :=
  m.entries.any fun e => e.1 == name

/-- A name already present keeps its place and takes the new value. -/
def insert (m : OrderedMap α) (name : String) (value : α) : OrderedMap α :=
  ⟨putEntry name value m.entries, nodup_putEntry m.nodup⟩

/-- Removes `name`; the other entries keep their order. -/
def erase (m : OrderedMap α) (name : String) : OrderedMap α where
  entries := m.entries.filter fun e => e.1 != name
  nodup := m.nodup.sublist (List.filter_sublist.map Prod.fst)

/-- Inserts the pairs one after the other. -/
def insertAll (m : OrderedMap α) (pairs : List (String × α)) : OrderedMap α :=
  pairs.foldl (fun m e => m.insert e.1 e.2) m

def ofList (pairs : List (String × α)) : OrderedMap α :=
  (∅ : OrderedMap α).insertAll pairs

@[simp] theorem entries_empty : (∅ : OrderedMap α).entries = [] := rfl

@[simp] theorem keys_insert (m : OrderedMap α) (name : String) (value : α) :
    (m.insert name value).keys
      = if name ∈ m.keys then m.keys else m.keys ++ [name] :=
  map_fst_putEntry name value m.entries

end OrderedMap

/-! ## Sets of names -/

/-- Distinct names, in order of arrival. -/
structure NameSet where
  names : List String
  nodup : names.Nodup

namespace NameSet

def empty : NameSet := ⟨[], .nil⟩

instance : EmptyCollection NameSet := ⟨empty⟩

instance : Inhabited NameSet := ⟨empty⟩

instance : DecidableEq NameSet := fun a b =>
  decidable_of_iff (a.names = b.names) <| by
    cases a; cases b; simp

/-- A name already present stays where it is. -/
def insert (s : NameSet) (name : String) : NameSet :=
  if h : name ∈ s.names then s
  else ⟨s.names ++ [name], by
    rw [List.nodup_append]
    refine ⟨s.nodup, by simp, ?_⟩
    intro a ha b hb he
    rw [List.mem_singleton] at hb
    exact h (hb ▸ he ▸ ha)⟩

/-- Inserts the names one after the other. -/
def insertAll (s : NameSet) (names : List String) : NameSet :=
  names.foldl insert s

theorem names_insert (s : NameSet) (name : String) :
    (s.insert name).names
      = if name ∈ s.names then s.names else s.names ++ [name] := by
  unfold insert
  split <;> simp_all

end NameSet

end RecordMapper
