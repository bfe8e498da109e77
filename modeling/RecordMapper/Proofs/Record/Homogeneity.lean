import RecordMapper.Proofs.Session

/-!
# Result sets hold records of one type

A set grows in place, and a record that it refuses leaves it to the records after. `adding`
takes the steps one after the other: the type of the record is looked at, and becomes that of
a set that has none, before the record is appended. It does what `add` does, and where
`add` has no set to answer with, the set in the state is the one from before
(`outcome_adding`).

A set that is bound from the start keeps its type, and any other one takes that of the first
record and keeps it from then on. So the records it takes are those of one type, which is known
from the start and the first record (`addEach_eq`).
-/

namespace RecordMapper.ResultSet

open Session

variable {ρ : Type} [Entity ρ]

/-! ## Adding in place -/

/-- Looks at the type of a record that is to be appended. A set without a type takes it. -/
def adopt (name : String) : Session (ResultSet ρ) Unit := do
  let s ← get
  match s.model with
  | none => set { s with model := some name }
  | some expected => if expected = name then pure () else throw (.foreignRecord name expected)

/-- Adds a record to the set in the state. -/
def adding (r : ρ) : Session (ResultSet ρ) Unit := do
  adopt (Entity.typeName r)
  modify fun s => { s with items := s.items ++ [r] }

/-- The answers to records that are added one after the other, and the set in the end. -/
def addEach : List ρ → ResultSet ρ → List (Except Error Unit) × ResultSet ρ
  | [], s => ([], s)
  | r :: rest, s =>
      let first := (adding r).outcome s
      let later := addEach rest first.2
      (first.1 :: later.1, later.2)

/-- An empty set, bound to a type or not. -/
def started : Option String → ResultSet ρ
  | none => new
  | some name => forModel name

/-- The type of a set that was started so, after these records: the one it is bound to, or that
of the first of them. -/
def typeAfter (bound : Option String) (records : List ρ) : Option String :=
  bound.or (records.head?.map Entity.typeName)

/-! ## One record -/

omit [Entity ρ] in
theorem outcome_adopt (name : String) (s : ResultSet ρ) :
    (adopt name).outcome s = match s.model with
      | none => (.ok (), { s with model := some name })
      | some expected =>
          if expected = name then (.ok (), s) else (.error (.foreignRecord name expected), s) := by
  rw [adopt, outcome_bind, outcome_get]
  cases hmodel : s.model with
  | none =>
      simp only [hmodel]
      rfl
  | some expected =>
      simp only [hmodel]
      split <;> rfl

theorem outcome_adding (r : ρ) (s : ResultSet ρ) :
    (adding r).outcome s = match s.add r with
      | .ok s' => (.ok (), s')
      | .error e => (.error e, s) := by
  obtain ⟨items, total, model⟩ := s
  rw [adding, outcome_bind, outcome_adopt, add]
  cases model with
  | none => rfl
  | some expected =>
      by_cases h : expected = Entity.typeName r
      · simp only [if_pos h]
        rfl
      · simp only [if_neg h]

/-- The one step that gives a set its type. -/
theorem outcome_adding_of_none (items : List ρ) (total : Nat) (r : ρ) :
    (adding r).outcome ⟨items, total, none⟩
      = (.ok (), ⟨items ++ [r], total, some (Entity.typeName r)⟩) := by
  rw [outcome_adding]
  rfl

theorem outcome_adding_of_same (items : List ρ) (total : Nat) (r : ρ) :
    (adding r).outcome ⟨items, total, some (Entity.typeName r)⟩
      = (.ok (), ⟨items ++ [r], total, some (Entity.typeName r)⟩) := by
  simp [outcome_adding, add]

theorem outcome_adding_of_other (items : List ρ) (total : Nat) {r : ρ} {name : String}
    (h : ¬ Entity.typeName r = name) :
    (adding r).outcome ⟨items, total, some name⟩
      = (.error (.foreignRecord (Entity.typeName r) name), ⟨items, total, some name⟩) := by
  have h' : ¬ name = Entity.typeName r := fun he => h he.symm
  simp [outcome_adding, add, h']

theorem total_adding (r : ρ) (s : ResultSet ρ) : ((adding r).outcome s).2.total = s.total := by
  obtain ⟨items, total, model⟩ := s
  cases model with
  | none => rw [outcome_adding_of_none]
  | some name =>
      by_cases h : Entity.typeName r = name
      · subst h
        rw [outcome_adding_of_same]
      · rw [outcome_adding_of_other items total h]

/-- A set refuses a record before it has changed. -/
theorem refused_adding {r : ρ} {s s' : ResultSet ρ} {e : Error}
    (h : (adding r).outcome s = (.error e, s')) : e.kind = .misuse ∧ s' = s := by
  obtain ⟨items, total, model⟩ := s
  cases model with
  | none =>
      rw [outcome_adding_of_none] at h
      cases h
  | some name =>
      by_cases hname : Entity.typeName r = name
      · subst hname
        rw [outcome_adding_of_same] at h
        cases h
      · rw [outcome_adding_of_other items total hname] at h
        cases h
        exact ⟨rfl, rfl⟩

/-! ## Records one after the other -/

/-- What a set of type `name` answers to a record. -/
def answerTo (name : String) (r : ρ) : Except Error Unit :=
  if Entity.typeName r = name then .ok () else .error (.foreignRecord (Entity.typeName r) name)

/-- A set that has a type takes the records of the type and refuses the others. -/
theorem addEach_of_bound (total : Nat) (name : String) : ∀ (records items : List ρ),
    addEach records ⟨items, total, some name⟩
      = (records.map (answerTo name),
          ⟨items ++ records.filter (Entity.typeName · = name), total, some name⟩)
  | [], items => by simp [addEach]
  | r :: rest, items => by
      by_cases h : Entity.typeName r = name
      · subst h
        rw [addEach, outcome_adding_of_same]
        simp [addEach_of_bound total (Entity.typeName r) rest, answerTo]
      · rw [addEach, outcome_adding_of_other items total h]
        simp [addEach_of_bound total name rest, answerTo, h]

/-- The records of one type are kept, in order and each as often as it was added. -/
theorem addEach_eq (bound : Option String) (total : Nat) (records : List ρ) :
    addEach records ((started bound).withTotal total)
      = (records.map fun r => (typeAfter bound records).elim (.ok ()) fun name => answerTo name r,
          ⟨records.filter fun r => some (Entity.typeName r) = typeAfter bound records, total,
            typeAfter bound records⟩) := by
  cases bound with
  | some name =>
      have hstart : (started (some name)).withTotal total
          = (⟨[], total, some name⟩ : ResultSet ρ) :=
        rfl
      rw [hstart, addEach_of_bound]
      simp [typeAfter]
  | none =>
      cases records with
      | nil => rfl
      | cons r rest =>
          have hstart : (started none).withTotal total = (⟨[], total, none⟩ : ResultSet ρ) := rfl
          rw [hstart, addEach, outcome_adding_of_none]
          simp [addEach_of_bound, typeAfter, answerTo]

/-- With a record there is a type, and the answer goes by it. -/
theorem answer_of_typeAfter (bound : Option String) {records : List ρ} {r : ρ} (h : r ∈ records) :
    (typeAfter bound records).elim (.ok ()) (fun name => answerTo name r)
      = if some (Entity.typeName r) = typeAfter bound records then .ok ()
        else .error (.foreignRecord (Entity.typeName r) ((typeAfter bound records).getD "")) := by
  cases htype : typeAfter bound records with
  | some name => simp [answerTo]
  | none =>
      cases records with
      | nil => cases h
      | cons first rest => cases bound <;> cases htype

/-! ## Whole lists -/

/-- A list is taken up as a whole if no record of it is refused. -/
theorem addAll_eq_ok_iff : ∀ (records : List ρ) (s s' : ResultSet ρ),
    s.addAll records = .ok s'
      ↔ (∀ answer ∈ (addEach records s).1, answer = .ok ()) ∧ s' = (addEach records s).2
  | [], s, s' => by simp [addAll, addEach, eq_comm]
  | r :: rest, s, s' => by
      rw [addAll, addEach, outcome_adding]
      cases h : s.add r with
      | error e => simp [bind, Except.bind]
      | ok s₁ => simpa [bind, Except.bind] using addAll_eq_ok_iff rest s₁ s'

theorem answerTo_eq_ok_iff {name : String} {r : ρ} :
    answerTo name r = .ok () ↔ Entity.typeName r = name := by
  rw [answerTo]
  split <;> simp [*]

theorem addEach_new (records : List ρ) : addEach records new
    = (records.map fun r => (typeAfter none records).elim (.ok ()) fun name => answerTo name r,
        ⟨records.filter fun r => some (Entity.typeName r) = typeAfter none records, 0,
          typeAfter none records⟩) :=
  addEach_eq none 0 records

/-- A new set takes all records if they are of one type. -/
theorem accepted_iff_one_type (records : List ρ) :
    (∀ answer ∈ (addEach records new).1, answer = .ok ())
      ↔ ∀ r ∈ records, ∀ r' ∈ records, Entity.typeName r = Entity.typeName r' := by
  rw [addEach_new]
  cases records with
  | nil => simp
  | cons first rest =>
      simp only [typeAfter, Option.none_or, List.head?_cons, Option.map_some, Option.elim_some,
        List.forall_mem_map, answerTo_eq_ok_iff]
      constructor
      · intro h r hr r' hr'
        rw [h r hr, h r' hr']
      · intro h r hr
        exact h r hr first List.mem_cons_self

theorem addEach_new_of_one_type {records : List ρ}
    (h : ∀ r ∈ records, ∀ r' ∈ records, Entity.typeName r = Entity.typeName r') :
    (addEach records new).2 = ⟨records, 0, records.head?.map Entity.typeName⟩ := by
  have hkept : records.filter (fun r => some (Entity.typeName r) = typeAfter none records)
      = records := by
    rw [List.filter_eq_self]
    intro r hr
    cases records with
    | nil => cases hr
    | cons first rest => simp [typeAfter, h r hr first List.mem_cons_self]
  rw [addEach_new, hkept, typeAfter, Option.none_or]

/-- Records make a set if they are all of one type, and then it holds them all. -/
theorem ofRecords_eq_ok_iff (records : List ρ) (s : ResultSet ρ) :
    ofRecords records = .ok s
      ↔ (∀ r ∈ records, ∀ r' ∈ records, Entity.typeName r = Entity.typeName r')
        ∧ s = ⟨records, records.length, records.head?.map Entity.typeName⟩ := by
  have hall := addAll_eq_ok_iff records new
  rw [accepted_iff_one_type] at hall
  rw [ofRecords]
  constructor
  · intro h
    cases hadded : (new : ResultSet ρ).addAll records with
    | error e =>
        rw [hadded] at h
        cases h
    | ok s₁ =>
        rw [hadded] at h
        cases h
        obtain ⟨htype, rfl⟩ := (hall s₁).mp hadded
        rw [addEach_new_of_one_type htype]
        exact ⟨htype, rfl⟩
  · rintro ⟨htype, rfl⟩
    rw [(hall _).mpr ⟨htype, rfl⟩, addEach_new_of_one_type htype]
    rfl

/-! ## Sets -/

/-- A set started with or without a type, after any records have been added to it:

* all of its records are of one type, its own: the one it was bound to, or else that of the
  first record;
* it holds the records of that type, in order and each as often as it was added, and its total is
  as it was;
* those records were taken and the others refused.

A refusal, of any set, is a misuse and leaves the set as it is, and no addition changes the
total. A set is made of records if and only if they are of one type, and then holds them all, its
total being their number. -/
theorem one_type_and_lossless (bound : Option String) (total : Nat) (records : List ρ) :
    (let start := (started bound).withTotal total
      let type? := bound.or (records.head?.map Entity.typeName)
      let s := (addEach records start).2
      (∀ r ∈ s.items, some (Entity.typeName r) = type?)
        ∧ s.items = records.filter (fun r => some (Entity.typeName r) = type?)
        ∧ s.model = type? ∧ s.total = total
        ∧ (addEach records start).1 = records.map fun r =>
          if some (Entity.typeName r) = type? then .ok ()
          else .error (.foreignRecord (Entity.typeName r) (type?.getD "")))
      ∧ (∀ (s : ResultSet ρ) (r : ρ), ((adding r).outcome s).2.total = s.total
        ∧ ∀ e s', (adding r).outcome s = (.error e, s') → e.kind = .misuse ∧ s' = s)
      ∧ ∀ s, ofRecords records = .ok s
        ↔ (∀ r ∈ records, ∀ r' ∈ records, Entity.typeName r = Entity.typeName r')
          ∧ s = ⟨records, records.length, records.head?.map Entity.typeName⟩ := by
  refine ⟨?_, fun s r => ⟨total_adding r s, fun e s' => refused_adding⟩,
    ofRecords_eq_ok_iff records⟩
  intro start type? s
  have hrun : addEach records start = _ := addEach_eq bound total records
  have hitems : s.items = records.filter (fun r => some (Entity.typeName r) = type?) :=
    congrArg (fun run => run.2.items) hrun
  refine ⟨fun r hr => ?_, hitems, congrArg (fun run => run.2.model) hrun,
    congrArg (fun run => run.2.total) hrun, (congrArg Prod.fst hrun).trans ?_⟩
  · rw [hitems] at hr
    simpa using (List.mem_filter.mp hr).2
  · refine List.map_congr_left fun r hr => ?_
    exact answer_of_typeAfter bound hr

end RecordMapper.ResultSet
