import RecordMapper.Proofs.Hydration.Hits

/-!
# Notes of hydration

What hydration does with the world is to call accessors and to run the queries that they
leave to it. The walk below writes down each of these tasks before it is performed, and each
relation as soon as it is complete (`relationPerformed`). The notes never steer it: without them
it is the walk of the library (`erases_walkRequest_performed`).

Two things are proved of the notes, each for one relation first and then for a walk of any depth.
They account for what was done (`Performed`): the tasks, performed again one after the other,
leave the same database and fail where the call did, and the completed relations are what the memo
has gained. And they are nested as the relations are (`Nests`): after a success every relation
that was begun is complete, and a failure cuts the notes off within the relations that fail
with it (`Stopped`).
-/

namespace RecordMapper.Hydration

open Session

variable {σ τ ρ α β : Type} [Entity ρ]

/-! ## Tasks -/

/-- What hydration has others do. -/
inductive Task (ρ : Type) where
  | resolve (r : ρ) (relation : String)
  | execute (q : Select)

/-- Performs a task for its effect. -/
def Task.perform (db : Engine σ) (schema : Schema σ ρ) : Task ρ → Session σ Unit
  | .resolve r relation => do
      let _ ← schema.resolve r relation
      pure ()
  | .execute q => do
      let _ ← q.getDynamic db schema
      pure ()

/-- The answers to tasks that are performed one after the other, whether they fail or not, and
the database in the end. -/
def replay (db : Engine σ) (schema : Schema σ ρ) : List (Task ρ) → σ → List (Except Error Unit) × σ
  | [], s => ([], s)
  | task :: rest, s =>
      let first := (task.perform db schema).outcome s
      let later := replay db schema rest first.2
      (first.1 :: later.1, later.2)

theorem replay_append (db : Engine σ) (schema : Schema σ ρ) (later : List (Task ρ)) :
    ∀ (tasks : List (Task ρ)) (s : σ), replay db schema (tasks ++ later) s
      = ((replay db schema tasks s).1 ++ (replay db schema later (replay db schema tasks s).2).1,
          (replay db schema later (replay db schema tasks s).2).2)
  | [], _ => rfl
  | task :: rest, s => by
      rw [List.cons_append, replay, replay_append db schema later rest, replay]
      rfl

/-! ## Notes -/

/-- What is written down in the course of a call. -/
inductive Note (ρ : Type) where
  | task (t : Task ρ)
  /-- The relation of a record was resolved and expanded to the end. -/
  | completed (r : ρ) (relation : String) (j : Json)

def Note.task? : Note ρ → Option (Task ρ)
  | .task t => some t
  | .completed _ _ _ => none

/-- What the memo keeps of a completed relation. -/
def Note.entry? : Note ρ → Option (MemoKey × Json)
  | .task _ => none
  | .completed r relation j => (memoKey? r relation).map fun key => (key, j)

def writeDown (n : Note ρ) : Expansion (List (Note ρ) × σ) Unit :=
  (Session.modifyOwn fun notes => notes ++ [n]).beside

/-- Runs on the database, after a note of what is going to be done. -/
def performing (t : Task ρ) (act : Session σ α) : Expansion (List (Note ρ) × σ) α := do
  writeDown (.task t)
  act.beside.beside

/-- Writes down that a relation is complete, and remembers it. -/
def complete (r : ρ) (relation : String) (j : Json) : Expansion (List (Note ρ) × σ) Json := do
  writeDown (.completed r relation j)
  match memoKey? r relation with
  | some key => Session.modifyOwn fun p => p.remember key j
  | none => pure ()
  pure j

/-- Gets a relation as the library does, and writes down what it does. -/
def relationPerformed (db : Engine σ) (schema : Schema σ ρ) : Step (List (Note ρ) × σ) ρ :=
  fun _ expand r relation => do
    let pass ← Session.own
    match (memoKey? r relation).bind pass.lookup? with
    | some j => pure j
    | none => do
        let resolved ← performing (.resolve r relation) (schema.resolve r relation)
        let j ← Session.within Pass.deeper Pass.shallower
          (normalizeBy (fun q => performing (.execute q) (q.getDynamic db schema)) expand resolved)
        complete r relation j

/-! ## How notes are nested -/

/-- A relation with this key was completed. -/
def Completes (notes : List (Note ρ)) (key : MemoKey) : Prop :=
  ∃ r relation j, .completed r relation j ∈ notes ∧ memoKey? r relation = some key

theorem completes_append {notes notes' : List (Note ρ)} {key : MemoKey} :
    Completes (notes ++ notes') key ↔ Completes notes key ∨ Completes notes' key := by
  simp only [Completes, List.mem_append, or_and_right, exists_or]

theorem completes_task {t : Task ρ} {notes : List (Note ρ)} {key : MemoKey} :
    Completes (.task t :: notes) key ↔ Completes notes key := by
  simp only [Completes, List.mem_cons, reduceCtorEq, false_or]

/-- Notes of relations that were all completed, each behind the notes of its expansion. -/
inductive Finished : List (Note ρ) → Prop
  | nil : Finished []
  | query {q : Select} {rest : List (Note ρ)} :
      Finished rest → Finished (.task (.execute q) :: rest)
  | relation {r : ρ} {relation : String} {j : Json} {expansion rest : List (Note ρ)} :
      Finished expansion → Finished rest →
      Finished (.task (.resolve r relation) :: (expansion ++ .completed r relation j :: rest))

/-- A relation that failed, with the notes of its expansion. -/
structure Failed (ρ : Type) where
  record : ρ
  relation : String
  expansion : List (Note ρ)

/-- Notes that end with a failure. A query failed, or an accessor, or the expansion of a relation;
the relations that failed with it are told from the outside inwards. -/
inductive Stopped : List (Note ρ) → List (Failed ρ) → Prop
  | query {done : List (Note ρ)} {q : Select} :
      Finished done → Stopped (done ++ [.task (.execute q)]) []
  | accessor {done : List (Note ρ)} {r : ρ} {relation : String} :
      Finished done → Stopped (done ++ [.task (.resolve r relation)]) [⟨r, relation, []⟩]
  | expansion {done expansion : List (Note ρ)} {failed : List (Failed ρ)} {r : ρ}
      {relation : String} : Finished done → Stopped expansion failed →
      Stopped (done ++ .task (.resolve r relation) :: expansion)
        (⟨r, relation, expansion⟩ :: failed)

omit [Entity ρ] in
theorem Finished.append {notes notes' : List (Note ρ)} (h : Finished notes)
    (h' : Finished notes') : Finished (notes ++ notes') := by
  induction h with
  | nil => exact h'
  | query _ ih => exact .query ih
  | relation hexpansion _ _ ih =>
      rw [List.cons_append, List.append_assoc]
      exact .relation hexpansion ih

omit [Entity ρ] in
/-- What was completed before does not change what failed. -/
theorem Stopped.after {done notes : List (Note ρ)} {failed : List (Failed ρ)}
    (hdone : Finished done) (h : Stopped notes failed) : Stopped (done ++ notes) failed := by
  cases h with
  | query hbefore =>
      rw [← List.append_assoc]
      exact .query (hdone.append hbefore)
  | accessor hbefore =>
      rw [← List.append_assoc]
      exact .accessor (hdone.append hbefore)
  | expansion hbefore hinner =>
      rw [← List.append_assoc]
      exact .expansion (hdone.append hbefore) hinner

omit [Entity ρ] in
/-- The notes of a relation that failed are those behind its accessor. -/
theorem Stopped.exists_split {notes : List (Note ρ)} {failed : List (Failed ρ)}
    (h : Stopped notes failed) {f : Failed ρ} (hf : f ∈ failed) :
    ∃ before, notes = before ++ .task (.resolve f.record f.relation) :: f.expansion := by
  induction h with
  | query => cases hf
  | @accessor done _ _ _ =>
      obtain rfl := List.mem_singleton.mp hf
      exact ⟨done, rfl⟩
  | @expansion done _ _ r relation _ _ ih =>
      rcases List.mem_cons.mp hf with rfl | hf
      · exact ⟨done, rfl⟩
      · obtain ⟨before, rfl⟩ := ih hf
        exact ⟨done ++ .task (.resolve r relation) :: before, by
          rw [List.append_assoc, List.cons_append]⟩

/-! ## Forgetting the notes -/

omit [Entity ρ] in
theorem erases_performing (t : Task ρ) (act : Session σ α) :
    Erases (act.beside : Expansion σ α) (performing t act) :=
  fun _ => rfl

theorem erases_relationPerformed (db : Engine σ) (schema : Schema σ ρ) (levels : Nat)
    {expand : ρ → Expansion σ Json} {expand' : ρ → Expansion (List (Note ρ) × σ) Json}
    (h : ∀ r, Erases (expand r) (expand' r)) (r : ρ) (relation : String) :
    Erases (relationJson db schema expand r relation)
      (relationPerformed db schema levels expand' r relation) := by
  refine compositional_erases.bind erases_own fun pass => ?_
  cases (memoKey? r relation).bind pass.lookup? with
  | some j => exact compositional_erases.pure j
  | none =>
      refine compositional_erases.bind (erases_performing _ _) fun resolved => ?_
      rw [normalize_eq_normalizeBy]
      have hvalue := compositional_erases.normalizeBy
        (fun q => erases_performing (.execute q) (q.getDynamic db schema)) h resolved
      refine compositional_erases.bind (erases_within hvalue _ _) fun j => ?_
      intro x
      rw [complete]
      cases memoKey? r relation <;> rfl

theorem erases_walkRequest_performed (db : Engine σ) (schema : Schema σ ρ)
    (request : Request ρ) :
    Erases (request.run db schema) (request.walk (relationPerformed db schema)) := by
  rw [Request.run_eq_walk]
  exact compositional_erases.walkRequest erases_own
    (compositional_erases.walk erases_own fun levels _ _ h =>
      erases_relationPerformed db schema levels h) request

/-! ## Accounts of calls -/

theorem lookup?_of_memo_eq {p p' : Pass} {entries : List (MemoKey × Json)}
    (h : p'.memo = entries ++ p.memo) (key : MemoKey) :
    p'.lookup? key = ((entries.find? fun e => e.1 == key).map Prod.snd).or (p.lookup? key) := by
  rw [Pass.lookup?, Pass.lookup?, h, List.find?_append]
  cases entries.find? fun e => e.1 == key <;> rfl

theorem mem_entries_iff {notes : List (Note ρ)} {key : MemoKey} {j : Json} :
    (key, j) ∈ (notes.filterMap Note.entry?).reverse
      ↔ ∃ r relation, .completed r relation j ∈ notes ∧ memoKey? r relation = some key := by
  rw [List.mem_reverse, List.mem_filterMap]
  constructor
  · rintro ⟨note, hmem, hentry⟩
    cases note with
    | task t => cases hentry
    | completed r relation j' =>
        obtain ⟨key', hkey, heq⟩ := Option.map_eq_some_iff.mp hentry
        obtain ⟨rfl, rfl⟩ := Prod.mk.inj heq
        exact ⟨r, relation, hmem, hkey⟩
  · rintro ⟨r, relation, hmem, hkey⟩
    exact ⟨_, hmem, by rw [Note.entry?, hkey]; rfl⟩

/-- What a computation that ends so adds to the answers of its tasks. -/
def failureOf : Except Error α → List (Except Error Unit)
  | .ok _ => []
  | .error e => [.error e]

/-- A computation that came from `x` to this outcome wrote down these notes. Its tasks all
succeeded, but for the last one if the computation failed. No relation was resolved that was in
the memo before or was completed on the way, and one whose accessor failed is not in the memo
now. -/
structure Performed (db : Engine σ) (schema : Schema σ ρ) (notes : List (Note ρ))
    (x : Pass × (List (Note ρ) × σ)) (out : Except Error α × (Pass × (List (Note ρ) × σ))) :
    Prop where
  log : out.2.2.1 = x.2.1 ++ notes
  tasks : ∃ n, replay db schema (notes.filterMap Note.task?) x.2.2
    = (List.replicate n (.ok ()) ++ failureOf out.1, out.2.2.2)
  memo : out.2.1.memo = (notes.filterMap Note.entry?).reverse ++ x.1.memo
  fresh : ∀ before r relation after key, notes = before ++ .task (.resolve r relation) :: after →
    memoKey? r relation = some key → x.1.lookup? key = none ∧ ¬ Completes before key
  missed : ∀ e r relation, out.1 = .error e →
    (notes.filterMap Note.task?).getLast? = some (.resolve r relation) →
      (memoKey? r relation).bind out.2.1.lookup? = none

/-- Whatever the state, there is an account of what was done. -/
def Performs (db : Engine σ) (schema : Schema σ ρ) (act : Expansion (List (Note ρ) × σ) α) : Prop :=
  ∀ x, ∃ notes, Performed db schema notes x (act.outcome x)

variable {db : Engine σ} {schema : Schema σ ρ}

theorem performed_nil (a : α) {x x' : Pass × (List (Note ρ) × σ)} (hmemo : x'.1.memo = x.1.memo)
    (hbelow : x'.2 = x.2) : Performed db schema [] x (Except.ok a, x') where
  log := by rw [hbelow, List.append_nil]
  tasks := ⟨0, by rw [hbelow]; rfl⟩
  memo := hmemo
  fresh before r relation after key h := by simp at h
  missed e r relation h := by cases h

theorem performs_pure (a : α) : Performs db schema (pure a) :=
  fun _ => ⟨[], performed_nil a rfl rfl⟩

theorem Performed.tasks_ne_nil {notes : List (Note ρ)} {x : Pass × (List (Note ρ) × σ)}
    {out : Except Error α × (Pass × (List (Note ρ) × σ))} {e : Error}
    (h : Performed db schema notes x out) (hout : out.1 = .error e) :
    notes.filterMap Note.task? ≠ [] := by
  intro hnil
  obtain ⟨n, htasks⟩ := h.tasks
  rw [hnil, hout, replay] at htasks
  have hanswers := congrArg (List.length ∘ Prod.fst) htasks
  simp [failureOf] at hanswers

/-- A key is missing if it was missing before and no relation with it was completed. -/
theorem Performed.lookup?_eq_none_iff {notes : List (Note ρ)} {x : Pass × (List (Note ρ) × σ)}
    {out : Except Error α × (Pass × (List (Note ρ) × σ))} (h : Performed db schema notes x out)
    {key : MemoKey} :
    out.2.1.lookup? key = none ↔ x.1.lookup? key = none ∧ ¬ Completes notes key := by
  have hnone : ((notes.filterMap Note.entry?).reverse.find? fun e => e.1 == key) = none
      ↔ ¬ Completes notes key := by
    rw [List.find?_eq_none]
    constructor
    · rintro hall ⟨r, relation, j, hdone⟩
      exact hall (key, j) (mem_entries_iff.mpr ⟨r, relation, hdone⟩) (beq_self_eq_true key)
    · rintro hnot ⟨key', j⟩ hmem hbeq
      obtain rfl : key' = key := eq_of_beq hbeq
      obtain ⟨r, relation, hdone⟩ := mem_entries_iff.mp hmem
      exact hnot ⟨r, relation, j, hdone⟩
  rw [lookup?_of_memo_eq h.memo key, Option.or_eq_none_iff, Option.map_eq_none_iff, hnone,
    and_comm]

/-- What is found under a key is what was found before, or a relation with this key was
completed. -/
theorem Performed.lookup {notes : List (Note ρ)} {x : Pass × (List (Note ρ) × σ)}
    {out : Except Error α × (Pass × (List (Note ρ) × σ))}
    (h : Performed db schema notes x out) (key : MemoKey) :
    out.2.1.lookup? key = x.1.lookup? key
      ∨ ∃ r relation j, .completed r relation j ∈ notes ∧ memoKey? r relation = some key
        ∧ out.2.1.lookup? key = some j := by
  have hfound := lookup?_of_memo_eq h.memo key
  cases hfind : (notes.filterMap Note.entry?).reverse.find? fun e => e.1 == key with
  | none =>
      rw [hfind] at hfound
      exact Or.inl hfound
  | some entry =>
      rw [hfind] at hfound
      have hbeq := List.find?_some hfind
      obtain rfl : entry.1 = key := eq_of_beq hbeq
      obtain ⟨r, relation, hmem, hkey⟩ := mem_entries_iff.mp (List.mem_of_find?_eq_some hfind)
      exact Or.inr ⟨r, relation, entry.2, hmem, hkey, hfound⟩

/-- A relation that was resolved was not in the memo before, so it is there now only if a relation
with its key was completed since. -/
theorem Performed.left_out {notes before after : List (Note ρ)} {x : Pass × (List (Note ρ) × σ)}
    {out : Except Error α × (Pass × (List (Note ρ) × σ))} {r : ρ} {relation : String}
    {key : MemoKey} (h : Performed db schema notes x out)
    (hsplit : notes = before ++ .task (.resolve r relation) :: after)
    (hkey : memoKey? r relation = some key) :
    out.2.1.lookup? key = none ↔ ¬ Completes after key := by
  obtain ⟨hmiss, hearlier⟩ := h.fresh before r relation after key hsplit hkey
  rw [h.lookup?_eq_none_iff, hsplit, completes_append, completes_task]
  simp only [hmiss, hearlier, false_or, true_and]

/-- What comes after a success is added to the account. -/
theorem Performed.trans {notes notes' : List (Note ρ)} {x x₁ : Pass × (List (Note ρ) × σ)} {a : α}
    {out : Except Error β × (Pass × (List (Note ρ) × σ))}
    (h : Performed db schema notes x (Except.ok a, x₁)) (h' : Performed db schema notes' x₁ out) :
    Performed db schema (notes ++ notes') x out where
  log := by rw [h'.log, h.log, List.append_assoc]
  tasks := by
    obtain ⟨n, htasks⟩ := h.tasks
    obtain ⟨n', htasks'⟩ := h'.tasks
    refine ⟨n + n', ?_⟩
    rw [List.filterMap_append, replay_append, htasks, htasks']
    simp only [failureOf, List.append_nil, ← List.append_assoc, List.replicate_append_replicate]
  memo := by
    rw [h'.memo, h.memo, List.filterMap_append, List.reverse_append, List.append_assoc]
  fresh before r relation after key hsplit hkey := by
    rcases List.append_eq_append_iff.mp hsplit with ⟨rest, rfl, hrest⟩ | ⟨rest, hnotes, hrest⟩
    · obtain ⟨hmiss, hnew⟩ := h'.fresh rest r relation after key hrest hkey
      obtain ⟨hmiss, hearlier⟩ := h.lookup?_eq_none_iff.mp hmiss
      exact ⟨hmiss, fun hdone => (completes_append.mp hdone).elim hearlier hnew⟩
    · cases rest with
      | nil =>
          obtain rfl : notes = before := by simpa using hnotes
          obtain ⟨hmiss, -⟩ := h'.fresh [] r relation after key hrest.symm hkey
          exact h.lookup?_eq_none_iff.mp hmiss
      | cons _ rest =>
          obtain ⟨rfl, -⟩ := List.cons.inj hrest
          exact h.fresh before r relation rest key hnotes hkey
  missed e r relation hout hlast := by
    have hsome := List.getLast?_isSome.mpr (h'.tasks_ne_nil hout)
    rw [List.filterMap_append, List.getLast?_append, Option.or_of_isSome hsome] at hlast
    exact h'.missed e r relation hout hlast

/-- A failure ends the account. -/
theorem Performed.error {notes : List (Note ρ)} {x x₁ : Pass × (List (Note ρ) × σ)} {e : Error}
    (h : Performed db schema notes x ((.error e : Except Error α), x₁)) :
    Performed db schema notes x ((.error e : Except Error β), x₁) where
  log := h.log
  tasks := h.tasks
  memo := h.memo
  fresh := h.fresh
  missed e' r relation hout hlast := by
    cases hout
    exact h.missed e r relation rfl hlast

theorem exists_performed_bind {act : Expansion (List (Note ρ) × σ) α}
    {f : α → Expansion (List (Note ρ) × σ) β} {x : Pass × (List (Note ρ) × σ)}
    (hact : ∃ notes, Performed db schema notes x (act.outcome x))
    (hf : ∀ a, Performs db schema (f a)) :
    ∃ notes, Performed db schema notes x ((act >>= f).outcome x) := by
  obtain ⟨notes, hnotes⟩ := hact
  obtain ⟨result, x₁, h⟩ := act.exists_outcome x
  rw [h] at hnotes
  rw [outcome_bind, h]
  cases result with
  | error e => exact ⟨notes, hnotes.error⟩
  | ok a =>
      obtain ⟨notes', hnotes'⟩ := hf a x₁
      exact ⟨notes ++ notes', hnotes.trans hnotes'⟩

theorem performs_bind {act : Expansion (List (Note ρ) × σ) α}
    {f : α → Expansion (List (Note ρ) × σ) β} (hact : Performs db schema act)
    (hf : ∀ a, Performs db schema (f a)) : Performs db schema (act >>= f) :=
  fun x => exists_performed_bind (hact x) hf

theorem compositional_performs (db : Engine σ) (schema : Schema σ ρ) :
    Compositional fun α (act act' : Expansion (List (Note ρ) × σ) α) =>
      act = act' ∧ Performs db schema act :=
  .of_property performs_pure performs_bind

theorem performs_own : Performs db schema (own : Expansion (List (Note ρ) × σ) Pass) :=
  fun x => ⟨[], performed_nil x.1 rfl rfl⟩

theorem performs_within {act : Expansion (List (Note ρ) × σ) α} (h : Performs db schema act) :
    Performs db schema (within Pass.deeper Pass.shallower act) := by
  intro x
  obtain ⟨notes, hnotes⟩ := h (x.1.deeper, x.2)
  exact ⟨notes, hnotes.log, hnotes.tasks, hnotes.memo, hnotes.fresh, hnotes.missed⟩

/-! ## Accounts of relations -/

theorem outcome_perform {t : Task ρ} {act : Session σ α}
    (ht : t.perform db schema = act >>= fun _ => pure ()) (s : σ) :
    (t.perform db schema).outcome s
      = ((act.outcome s).1.map fun _ => (), (act.outcome s).2) := by
  rw [ht, outcome_bind]
  obtain ⟨result, s', h⟩ := act.exists_outcome s
  rw [h]
  cases result <;> rfl

omit [Entity ρ] in
theorem outcome_performing (t : Task ρ) {act : Session σ α} {x : Pass × (List (Note ρ) × σ)}
    {result : Except Error α} {s' : σ} (h : act.outcome x.2.2 = (result, s')) :
    (performing t act).outcome x = (result, (x.1, (x.2.1 ++ [.task t], s'))) := by
  show ((act.outcome x.2.2).1, (x.1, (x.2.1 ++ [.task t], (act.outcome x.2.2).2))) = _
  rw [h]

theorem performed_performing {t : Task ρ} {act : Session σ α} {x : Pass × (List (Note ρ) × σ)}
    (ht : t.perform db schema = act >>= fun _ => pure ())
    (hmiss : ∀ r relation, t = .resolve r relation →
      (memoKey? r relation).bind x.1.lookup? = none) :
    Performed db schema [.task t] x ((performing t act).outcome x) := by
  obtain ⟨result, s', h⟩ := act.exists_outcome x.2.2
  have hperform := outcome_perform ht x.2.2
  rw [h] at hperform
  rw [outcome_performing t h]
  refine ⟨rfl, ?_, rfl, ?_, fun e r relation _ hlast => hmiss r relation (Option.some.inj hlast)⟩
  · cases result with
    | ok a => exact ⟨1, by simp [replay, Note.task?, hperform, failureOf, Except.map]⟩
    | error e => exact ⟨0, by simp [replay, Note.task?, hperform, failureOf, Except.map]⟩
  · intro before r relation after key hsplit hkey
    obtain ⟨rfl, hcons⟩ : before = [] ∧ [.task t] = .task (.resolve r relation) :: after := by
      cases before with
      | nil => exact ⟨rfl, hsplit⟩
      | cons n rest => simp at hsplit
    obtain ⟨htask, rfl⟩ := List.cons.inj hcons
    have hlookup := hmiss r relation (Note.task.inj htask)
    rw [hkey] at hlookup
    exact ⟨hlookup, fun ⟨_, _, _, hmem, _⟩ => List.not_mem_nil hmem⟩

theorem outcome_complete (r : ρ) (relation : String) (j : Json)
    (x : Pass × (List (Note ρ) × σ)) :
    (complete r relation j).outcome x
      = (.ok j, (rememberUnder (memoKey? r relation) x.1 j,
          (x.2.1 ++ [.completed r relation j], x.2.2))) := by
  rw [complete]
  cases memoKey? r relation <;> rfl

theorem performs_complete (r : ρ) (relation : String) (j : Json) :
    Performs db schema (complete r relation j) := by
  intro x
  rw [outcome_complete]
  refine ⟨[.completed r relation j], rfl, ⟨0, rfl⟩, ?_, ?_, ?_⟩
  · cases hkey : memoKey? r relation with
    | none => simp [rememberUnder, Note.entry?, hkey]
    | some key => simp [rememberUnder, Pass.remember, Note.entry?, hkey]
  · intro before r' relation' after key hsplit
    cases before <;> simp at hsplit
  · intro e r' relation' h
    cases h

theorem performs_relationPerformed (levels : Nat) {expand : ρ → Expansion (List (Note ρ) × σ) Json}
    (h : ∀ r, Performs db schema (expand r)) (r : ρ) (relation : String) :
    Performs db schema (relationPerformed db schema levels expand r relation) := by
  intro x
  rw [relationPerformed, outcome_bind, outcome_own]
  cases hfound : (memoKey? r relation).bind x.1.lookup? with
  | some j =>
      simp only [hfound]
      exact performs_pure j x
  | none =>
      simp only [hfound]
      -- the memo was just asked for this relation, and the accessor cannot change the memo
      have hresolve : Performed db schema [.task (.resolve r relation)] x
          ((performing (.resolve r relation) (schema.resolve r relation)).outcome x) := by
        refine performed_performing rfl fun r' relation' heq => ?_
        obtain ⟨rfl, rfl⟩ := Task.resolve.inj heq
        exact hfound
      have hexecute : ∀ q : Select, Performs db schema
          (performing (.execute q) (q.getDynamic db schema)) :=
        fun q x => ⟨_, performed_performing rfl fun _ _ heq => nomatch heq⟩
      refine exists_performed_bind ⟨_, hresolve⟩ fun resolved => ?_
      have hvalue := (compositional_performs db schema).normalizeBy
        (fun q => ⟨rfl, hexecute q⟩) (fun r => ⟨rfl, h r⟩) resolved
      exact performs_bind (performs_within hvalue.2) fun j => performs_complete r relation j

/-! ## Accounts of walks -/

theorem performs_walkRequest (db : Engine σ) (schema : Schema σ ρ) (request : Request ρ) :
    Performs db schema (request.walk (relationPerformed db schema)) :=
  Request.walk_of_property performs_pure performs_bind performs_own
    (fun levels _ h => performs_relationPerformed levels h) request

/-! ## How notes end -/

/-- The notes of a computation that ends so. If `bare` holds, a query may fail without a relation
around it. -/
def Ends (bare : Prop) : Except Error α → List (Note ρ) → Prop
  | .ok _, notes => Finished notes
  | .error _, notes => ∃ failed, Stopped notes failed ∧ (failed = [] → bare)

/-- Whatever the state, what is written down is nested and ends as the computation does. -/
def Nests (bare : Prop) (act : Expansion (List (Note ρ) × σ) α) : Prop :=
  ∀ x, ∃ notes, (act.outcome x).2.2.1 = x.2.1 ++ notes ∧ Ends bare (act.outcome x).1 notes

section Nests

variable {bare : Prop}

omit [Entity ρ]

theorem nests_pure (a : α) : Nests bare (pure a : Expansion (List (Note ρ) × σ) α) :=
  fun _ => ⟨[], (List.append_nil _).symm, .nil⟩

theorem nests_own : Nests bare (own : Expansion (List (Note ρ) × σ) Pass) :=
  fun _ => ⟨[], (List.append_nil _).symm, .nil⟩

theorem nests_bind {act : Expansion (List (Note ρ) × σ) α}
    {f : α → Expansion (List (Note ρ) × σ) β} (hact : Nests bare act)
    (hf : ∀ a, Nests bare (f a)) : Nests bare (act >>= f) := by
  intro x
  obtain ⟨notes, hlog, hends⟩ := hact x
  obtain ⟨result, x₁, h⟩ := act.exists_outcome x
  rw [h] at hlog hends
  cases result with
  | error e =>
      rw [outcome_bind_of_error h]
      exact ⟨notes, hlog, hends⟩
  | ok a =>
      obtain ⟨notes', hlog', hends'⟩ := hf a x₁
      rw [hlog, List.append_assoc] at hlog'
      rw [outcome_bind_of_ok h]
      refine ⟨notes ++ notes', hlog', ?_⟩
      cases hresult : ((f a).outcome x₁).1 with
      | ok b =>
          rw [hresult] at hends'
          exact Finished.append hends hends'
      | error e =>
          rw [hresult] at hends'
          obtain ⟨failed, hstopped, hbare⟩ := hends'
          exact ⟨failed, hstopped.after hends, hbare⟩

theorem nests_within {act : Expansion (List (Note ρ) × σ) α} (h : Nests bare act) :
    Nests bare (within Pass.deeper Pass.shallower act) :=
  fun x => h (x.1.deeper, x.2)

theorem Nests.inside {act : Expansion (List (Note ρ) × σ) α} (h : Nests False act) :
    Nests True act := by
  intro x
  obtain ⟨notes, hlog, hends⟩ := h x
  refine ⟨notes, hlog, ?_⟩
  cases hresult : (act.outcome x).1 with
  | ok a =>
      rw [hresult] at hends
      exact hends
  | error e =>
      rw [hresult] at hends
      obtain ⟨failed, hstopped, -⟩ := hends
      exact ⟨failed, hstopped, fun _ => trivial⟩

theorem nests_performing_execute (q : Select) (act : Session σ α) :
    Nests True (performing (.execute q) act : Expansion (List (Note ρ) × σ) α) := by
  intro x
  obtain ⟨result, s', h⟩ := act.exists_outcome x.2.2
  rw [outcome_performing _ h]
  refine ⟨_, rfl, ?_⟩
  cases result with
  | ok a => exact .query .nil
  | error e => exact ⟨[], .query .nil, fun _ => trivial⟩

end Nests

theorem nests_relationPerformed (db : Engine σ) (schema : Schema σ ρ) (levels : Nat)
    {expand : ρ → Expansion (List (Note ρ) × σ) Json} (h : ∀ r, Nests False (expand r)) (r : ρ)
    (relation : String) : Nests False (relationPerformed db schema levels expand r relation) := by
  intro x
  rw [relationPerformed, outcome_bind, outcome_own]
  cases hfound : (memoKey? r relation).bind x.1.lookup? with
  | some j =>
      simp only [hfound]
      exact nests_pure j x
  | none =>
      simp only [hfound]
      let begun : Note ρ := .task (.resolve r relation)
      obtain ⟨result, s', hresolve⟩ := (schema.resolve r relation).exists_outcome x.2.2
      have hfirst := outcome_performing (.resolve r relation) hresolve
      cases result with
      | error e =>
          rw [outcome_bind_of_error hfirst]
          exact ⟨_, rfl, _, .accessor .nil, nofun⟩
      | ok resolved =>
          rw [outcome_bind_of_ok hfirst]
          have hvalue := (Compositional.of_property nests_pure nests_bind).normalizeBy
            (fun q => ⟨rfl, nests_performing_execute q (q.getDynamic db schema)⟩)
            (fun r => ⟨rfl, (h r).inside⟩) resolved
          obtain ⟨notes, hlog, hends⟩ := nests_within hvalue.2 (x.1, (x.2.1 ++ [begun], s'))
          obtain ⟨answer, x₁, hexpansion⟩ := exists_outcome (within Pass.deeper Pass.shallower
            (normalizeBy (fun q => performing (.execute q) (q.getDynamic db schema)) expand
              resolved)) (x.1, (x.2.1 ++ [begun], s'))
          rw [hexpansion] at hlog hends
          rw [List.append_assoc, List.singleton_append] at hlog
          cases answer with
          | error e =>
              rw [outcome_bind_of_error hexpansion]
              obtain ⟨failed, hstopped, -⟩ := hends
              exact ⟨begun :: notes, hlog, _, .expansion .nil hstopped, nofun⟩
          | ok j =>
              rw [outcome_bind_of_ok hexpansion, outcome_complete, hlog, List.append_assoc]
              exact ⟨_, rfl, .relation hends .nil⟩

theorem nests_walkRequest (db : Engine σ) (schema : Schema σ ρ) (request : Request ρ) :
    Nests False (request.walk (relationPerformed db schema)) :=
  Request.walk_of_property nests_pure nests_bind nests_own
    (fun levels _ h => nests_relationPerformed db schema levels h) request

end RecordMapper.Hydration
