import RecordMapper.Proofs.Hydration.Counter
import RecordMapper.Proofs.Hydration.Once

/-!
# The discipline of the depth counter

What the counter stands at while calls run is not in their answers, so there is a walk that
writes it down: where the memo is asked, where an accessor is called, and on either side
of each change. It does what the library does (`erases_walkRequest_watched`), and its
accessor calls are those that a traced schema sees.

On a new pass the counter stays below the limit, and whatever is asked or called is asked or
called before the last level (`depth_discipline`). This is so for calls that fail too,
whichever accessor or query it is that fails: each way out of a nested visit
goes through the one place where the counter is taken back.
-/

namespace RecordMapper.Hydration

open Session

variable {σ ρ α β : Type}

/-! ## Moments -/

/-- Something that a watched walk writes down, with what the counter stands at. -/
inductive Moment (ρ : Type) where
  /-- The memo is asked for the relation. -/
  | consulted (v : Visit ρ) (depth : Nat)
  /-- The accessor of the relation is called. -/
  | resolved (v : Visit ρ) (depth : Nat)
  /-- The counter has changed. -/
  | moved (depth : Nat)

namespace Moment

/-- Memo and accessors are left alone at the last level, and the counter goes no further. -/
def Within (maxDepth : Nat) : Moment ρ → Prop
  | consulted _ depth => depth + 1 < maxDepth
  | resolved _ depth => depth + 1 < maxDepth
  | moved depth => depth ≤ max maxDepth 1 - 1

def resolved? : Moment ρ → Option (Visit ρ)
  | consulted _ _ => none
  | resolved v _ => some v
  | moved _ => none

end Moment

/-- Hydration beside a list of moments, the latest last. -/
abbrev Watching (σ ρ : Type) := Expansion (List (Moment ρ) × σ)

/-- Writes down a moment at the present depth. -/
def note (moment : Nat → Moment ρ) : Watching σ ρ Unit := do
  let pass ← Session.own
  (Session.modifyOwn fun log => log ++ [moment pass.depth]).beside

def resolveWatched (schema : Schema σ ρ) (r : ρ) (relation : String) :
    Watching σ ρ (Relation ρ) := do
  note (.resolved ⟨r, relation⟩)
  (schema.resolve r relation).beside.beside

/-- Runs one level down. The way back is written down on failure too. -/
def deeperWatched (act : Watching σ ρ α) : Watching σ ρ α :=
  .ofOutcome fun x =>
    let run := (Session.within Pass.deeper Pass.shallower
      (note .moved >>= fun _ => act)).outcome x
    (run.1, ((note .moved).outcome run.2).2)

theorem erases_note (moment : Nat → Moment ρ) :
    Erases (pure () : Expansion σ Unit) (note moment) :=
  fun _ => rfl

theorem erases_resolveWatched (schema : Schema σ ρ) (r : ρ) (relation : String) :
    Erases (schema.resolve r relation).beside (resolveWatched schema r relation) :=
  fun _ => rfl

theorem erases_deeperWatched {act : Expansion σ α} {act' : Watching σ ρ α}
    (h : Erases act act') :
    Erases (within Pass.deeper Pass.shallower act) (deeperWatched act') := by
  have hnoted : Erases act (note .moved >>= fun _ => act') :=
    fun x => compositional_erases.bind (erases_note .moved) (fun _ => h) x
  exact fun x => erases_within hnoted Pass.deeper Pass.shallower x

/-! ## Moments within the limit -/

/-- From `x` to `x'` these moments were written down. All are within the limit, and the
accessors among them are those that the traced schema wrote down. -/
structure Observed (maxDepth : Nat) (moments : List (Moment ρ))
    (x x' : Pass × (List (Moment ρ) × (List (Visit ρ) × σ))) : Prop where
  log : x'.2.1 = x.2.1 ++ moments
  visits : x'.2.2.1 = x.2.2.1 ++ moments.filterMap Moment.resolved?
  within : ∀ moment ∈ moments, moment.Within maxDepth

variable {maxDepth depth : Nat} {x x' x'' : Pass × (List (Moment ρ) × (List (Visit ρ) × σ))}

theorem observed_nil (hlog : x'.2.1 = x.2.1) (hvisits : x'.2.2.1 = x.2.2.1) :
    Observed maxDepth [] x x' where
  log := by rw [hlog, List.append_nil]
  visits := by rw [hvisits, List.filterMap_nil, List.append_nil]
  within moment hmem := by cases hmem

theorem observed_singleton {moment : Moment ρ} (hlog : x'.2.1 = x.2.1 ++ [moment])
    (hvisits : x'.2.2.1 = x.2.2.1 ++ moment.resolved?.toList) (h : moment.Within maxDepth) :
    Observed maxDepth [moment] x x' where
  log := hlog
  visits := by
    rw [hvisits]
    cases hmoment : moment.resolved? <;> simp [hmoment]
  within moment' hmem := List.mem_singleton.mp hmem ▸ h

theorem Observed.trans {moments moments' : List (Moment ρ)} (h : Observed maxDepth moments x x')
    (h' : Observed maxDepth moments' x' x'') : Observed maxDepth (moments ++ moments') x x'' where
  log := by rw [h'.log, h.log, List.append_assoc]
  visits := by rw [h'.visits, h.visits, List.filterMap_append, List.append_assoc]
  within moment hmem := by
    rcases List.mem_append.mp hmem with hmem | hmem
    · exact h.within moment hmem
    · exact h'.within moment hmem

/-- From a pass at this place, `act` comes back to it, and what it writes down is in order. -/
def Watched (maxDepth depth : Nat) (act : Watching (List (Visit ρ) × σ) ρ α) : Prop :=
  ∀ x, x.1.At maxDepth depth → (act.outcome x).2.1.At maxDepth depth
    ∧ ∃ moments, Observed maxDepth moments x (act.outcome x).2

theorem watched_pure (a : α) :
    Watched maxDepth depth (pure a : Watching (List (Visit ρ) × σ) ρ α) :=
  fun _ hx => ⟨hx, [], observed_nil rfl rfl⟩

theorem watched_bind {act : Watching (List (Visit ρ) × σ) ρ α}
    {f : α → Watching (List (Visit ρ) × σ) ρ β} (hact : Watched maxDepth depth act)
    (hf : ∀ a, Watched maxDepth depth (f a)) : Watched maxDepth depth (act >>= f) := by
  intro x hx
  obtain ⟨hback, moments, hseen⟩ := hact x hx
  obtain ⟨result, x', h⟩ := act.exists_outcome x
  rw [h] at hback hseen
  rw [outcome_bind, h]
  cases result with
  | error e => exact ⟨hback, moments, hseen⟩
  | ok a =>
      obtain ⟨hback', moments', hseen'⟩ := hf a x' hback
      exact ⟨hback', moments ++ moments', hseen.trans hseen'⟩

theorem compositional_watched (maxDepth depth : Nat) :
    Compositional fun α (act act' : Watching (List (Visit ρ) × σ) ρ α) =>
      act = act' ∧ Watched maxDepth depth act :=
  .of_property watched_pure watched_bind

theorem watched_own :
    Watched maxDepth depth (own : Watching (List (Visit ρ) × σ) ρ Pass) :=
  fun _ hx => ⟨hx, [], observed_nil rfl rfl⟩

theorem watched_beside (act : Session σ α) :
    Watched maxDepth depth (act.beside.beside.beside : Watching (List (Visit ρ) × σ) ρ α) :=
  fun _ hx => ⟨hx, [], observed_nil rfl rfl⟩

theorem watched_remember (key : MemoKey) (j : Json) :
    Watched maxDepth depth
      (modifyOwn fun p => p.remember key j : Watching (List (Visit ρ) × σ) ρ Unit) :=
  fun _ hx => ⟨⟨hx.maxDepth, hx.depth⟩, [], observed_nil rfl rfl⟩

/-- Only before the last level may an accessor be called. -/
theorem watched_resolveWatched (hdepth : depth + 1 < maxDepth) (schema : Schema σ ρ) (r : ρ)
    (relation : String) :
    Watched maxDepth depth (resolveWatched (schema.traced id) r relation) := by
  intro x hx
  refine ⟨hx, [.resolved ⟨r, relation⟩ x.1.depth], observed_singleton rfl rfl ?_⟩
  rw [hx.depth]
  exact hdepth

theorem within_moved {p : Pass} (hp : p.At maxDepth depth) (hdepth : depth < maxDepth) :
    (Moment.moved p.depth : Moment ρ).Within maxDepth := by
  rw [hp.depth]
  show depth ≤ max maxDepth 1 - 1
  omega

/-- The counter moves by one, and back by one. -/
theorem watched_deeperWatched (hdepth : depth + 1 < maxDepth)
    {act : Watching (List (Visit ρ) × σ) ρ α} (h : Watched maxDepth (depth + 1) act) :
    Watched maxDepth depth (deeperWatched act) := by
  intro x hx
  let entered := (x.1.deeper, (x.2.1 ++ [.moved x.1.deeper.depth], x.2.2))
  obtain ⟨hback, moments, hseen⟩ := h entered hx.deeper
  have henter : Observed maxDepth [.moved x.1.deeper.depth] x entered :=
    observed_singleton rfl (List.append_nil _).symm (within_moved hx.deeper hdepth)
  refine ⟨hback.shallower, _, (henter.trans hseen).trans (observed_singleton rfl ?_ ?_)⟩
  · exact (List.append_nil _).symm
  · exact within_moved hback.shallower (Nat.lt_of_succ_lt hdepth)

/-! ## The watched walk -/

variable [Entity ρ]

def consultWatched (r : ρ) (relation : String) : Watching σ ρ (Option Json) := do
  let key := memoKey? r relation
  if key.isSome then note (.consulted ⟨r, relation⟩)
  let pass ← Session.own
  pure (key.bind pass.lookup?)

/-- Gets a relation as the library does, and writes down what it does. -/
def relationWatched (db : Engine σ) (schema : Schema σ ρ) : Step (List (Moment ρ) × σ) ρ :=
  fun _ expand r relation => do
    match ← consultWatched r relation with
    | some j => pure j
    | none => do
        let resolved ← resolveWatched schema r relation
        let j ← deeperWatched (normalize (db.beside (List (Moment ρ)))
          (schema.beside (List (Moment ρ))) expand resolved)
        match memoKey? r relation with
        | some key => Session.modifyOwn fun p => p.remember key j
        | none => pure ()
        pure j

/-- The answers to calls in turn on one watched pass, and the state they leave behind. -/
def watchAll (db : Engine σ) (schema : Schema σ ρ) : List (Request ρ) →
    Pass × (List (Moment ρ) × σ) → List (Except Error Json) × (Pass × (List (Moment ρ) × σ))
  | [], x => ([], x)
  | request :: rest, x =>
      let first := (request.walk (relationWatched db schema)).outcome x
      let later := watchAll db schema rest first.2
      (first.1 :: later.1, later.2)

/-- The memo is asked if there is a key to ask for. -/
theorem outcome_consultWatched (r : ρ) (relation : String) (x : Pass × (List (Moment ρ) × σ)) :
    (consultWatched r relation).outcome x
      = (.ok ((memoKey? r relation).bind x.1.lookup?),
          (x.1, (x.2.1 ++ (memoKey? r relation).toList.map
            (fun _ => .consulted ⟨r, relation⟩ x.1.depth), x.2.2))) := by
  rw [consultWatched]
  cases memoKey? r relation with
  | none => exact congrArg (fun log => (_, (x.1, (log, x.2.2)))) (List.append_nil _).symm
  | some key => rfl

/-! ## Forgetting the moments -/

theorem erases_relationWatched {db : Engine σ} {schema : Schema σ ρ} (levels : Nat)
    {expand : ρ → Expansion σ Json} {expand' : ρ → Expansion (List (Moment ρ) × σ) Json}
    (h : ∀ r, Erases (expand r) (expand' r)) (r : ρ) (relation : String) :
    Erases (relationJson db schema expand r relation)
      (relationWatched db schema levels expand' r relation) := by
  intro x
  rw [relationJson, relationWatched, outcome_bind, outcome_own,
    outcome_bind_of_ok (outcome_consultWatched r relation x)]
  cases hfound : (memoKey? r relation).bind x.1.lookup? with
  | some j =>
      simp only [hfound]
      rfl
  | none =>
      simp only [hfound]
      -- what has been written down by now has no part in what follows
      generalize x.2.1 ++ _ = log
      suffices hmiss : Erases _ _ from hmiss (x.1, (log, x.2.2))
      refine compositional_erases.bind (erases_resolveWatched schema r relation) fun resolved => ?_
      have hvalue := compositional_erases.normalize (erases_getDynamic db schema) h resolved
      refine compositional_erases.bind (erases_deeperWatched hvalue) fun j => ?_
      cases memoKey? r relation with
      | none => exact compositional_erases.pure j
      | some key => exact fun _ => rfl

theorem erases_walkRequest_watched (db : Engine σ) (schema : Schema σ ρ) (request : Request ρ) :
    Erases (request.run db schema) (request.walk (relationWatched db schema)) := by
  rw [Request.run_eq_walk]
  exact compositional_erases.walkRequest erases_own
    (compositional_erases.walk erases_own fun levels _ _ h => erases_relationWatched levels h)
    request

/-- Calls answer on a watched pass as they do on any other. -/
theorem watchAll_erases (db : Engine σ) (schema : Schema σ ρ) : ∀ (requests : List (Request ρ))
    (x : Pass × (List (Moment ρ) × σ)),
    runAll db schema requests (x.1, x.2.2)
      = ((watchAll db schema requests x).1,
          ((watchAll db schema requests x).2.1, (watchAll db schema requests x).2.2.2))
  | [], _ => rfl
  | request :: rest, x => by
      have hfirst := erases_walkRequest_watched db schema request x
      have hrest := watchAll_erases db schema rest
        ((request.walk (relationWatched db schema)).outcome x).2
      rw [runAll, watchAll, hfirst]
      simp only [hrest]

/-! ## Watched walks -/

/-- Only before the last level may the memo be asked. -/
theorem watched_consultWatched (hdepth : depth + 1 < maxDepth) (r : ρ) (relation : String) :
    Watched maxDepth depth
      (consultWatched r relation : Watching (List (Visit ρ) × σ) ρ (Option Json)) := by
  intro x hx
  rw [outcome_consultWatched]
  refine ⟨hx, _, rfl, ?_, fun moment hmem => ?_⟩
  · cases memoKey? r relation <;> simp [Moment.resolved?]
  · obtain ⟨key, -, rfl⟩ := List.mem_map.mp hmem
    rw [hx.depth]
    exact hdepth

variable (db : Engine σ) (schema : Schema σ ρ)

theorem watched_relationWatched (hdepth : depth + 1 < maxDepth) (levels : Nat)
    {expand : ρ → Watching (List (Visit ρ) × σ) ρ Json}
    (h : ∀ r, Watched maxDepth (depth + 1) (expand r)) (r : ρ) (relation : String) :
    Watched maxDepth depth (relationWatched (db.beside (List (Visit ρ))) (schema.traced id)
      levels expand r relation) := by
  have hquery : ∀ q : Select, Watched maxDepth (depth + 1)
      (q.getDynamic ((db.beside (List (Visit ρ))).beside (List (Moment ρ)))
        ((schema.traced id).beside (List (Moment ρ)))).beside := by
    intro q
    rw [q.getDynamic_beside, getDynamic_traced]
    exact watched_beside (q.getDynamic db schema)
  refine watched_bind (watched_consultWatched hdepth r relation) fun found => ?_
  cases found with
  | some j => exact watched_pure j
  | none =>
      refine watched_bind (watched_resolveWatched hdepth schema r relation) fun resolved => ?_
      have hvalue := (compositional_watched maxDepth (depth + 1)).normalize
        (fun q => ⟨rfl, hquery q⟩) (fun r' => ⟨rfl, h r'⟩) resolved
      refine watched_bind (watched_deeperWatched hdepth hvalue.2) fun j => ?_
      cases memoKey? r relation with
      | none => exact watched_pure j
      | some key => exact watched_bind (watched_remember key j) fun _ => watched_pure j

/-- At the last level a record is shown without a step, so the steps of a walk are all made
before it. -/
theorem watched_walk : ∀ (levels depth : Nat) (r : ρ), maxDepth - (depth + 1) = levels →
    Watched maxDepth depth
      (walk (relationWatched (db.beside (List (Visit ρ))) (schema.traced id)) levels r)
  | 0, _, _, _ => watched_pure _
  | levels + 1, depth, r, hlevels => by
      have hrelation : ∀ relation, Watched maxDepth depth
          (relationWatched (db.beside (List (Visit ρ))) (schema.traced id) levels
            (walk (relationWatched (db.beside (List (Visit ρ))) (schema.traced id)) levels)
            r relation) :=
        watched_relationWatched db schema (by omega) levels
          (fun r' => watched_walk levels (depth + 1) r' (by omega)) r
      refine watched_bind watched_own fun pass => ?_
      refine watched_bind ?_ fun members => watched_pure _
      exact ((compositional_watched maxDepth depth).addRelations
        (fun relation => ⟨rfl, hrelation relation⟩) _ _).2

theorem watched_walkRequest (request : Request ρ) : Watched maxDepth depth
    (request.walk (relationWatched (db.beside (List (Visit ρ))) (schema.traced id))) := by
  have hrecord : ∀ r, Watched maxDepth depth (Request.walkRecord
      (relationWatched (db.beside (List (Visit ρ))) (schema.traced id)) r) :=
    fun r x hx => watched_walk db schema x.1.levels depth r hx.levels_eq.symm x hx
  cases request with
  | one r => exact hrecord r
  | all s =>
      have hitems := (compositional_watched maxDepth depth).arrayOf
        (fun r => ⟨rfl, hrecord r⟩) s.items
      exact watched_bind hitems.2 fun js => watched_pure _

theorem observed_watchAll : ∀ (requests : List (Request ρ))
    (x : Pass × (List (Moment ρ) × (List (Visit ρ) × σ))), x.1.At maxDepth depth →
    ∃ moments, Observed maxDepth moments x
      (watchAll (db.beside (List (Visit ρ))) (schema.traced id) requests x).2
  | [], _, _ => ⟨[], observed_nil rfl rfl⟩
  | request :: rest, x, hx => by
      obtain ⟨hback, moments, hfirst⟩ := watched_walkRequest db schema request x hx
      obtain ⟨moments', hrest⟩ := observed_watchAll rest _ hback
      exact ⟨moments ++ moments', hfirst.trans hrest⟩

/-! ## Calls -/

/-- On a new pass, whatever the records and the engine, and whichever calls of it fail:

* calls do what they do on a watched pass, whose accessor calls are those of a traced schema;
* on a watched pass the counter goes no further than one below the limit, and memo and
  accessors are left alone at the last level;
* with a limit of one or none, the answers are the stored fields and nothing is called;
* each call leaves the counter where it found it, from any pass;
* hydration is the recursion that the counter decides on, and it comes to an end: no more
  visits lie within one another than there are levels, with the record at hand. -/
theorem depth_discipline (db : Engine σ) (schema : Schema σ ρ) (maxDepth : Nat)
    (extra skipped : List String) (requests : List (Request ρ)) (s : σ) :
    let start : Pass := ⟨maxDepth, extra, skipped, 0, []⟩
    let watched := watchAll (db.beside (List (Visit ρ))) (schema.traced id) requests
      (start, ([], ([], s)))
    (runAll (db.beside (List (Visit ρ))) (schema.traced id) requests (start, ([], s))
          = (watched.1, (watched.2.1, watched.2.2.2))
        ∧ watched.1 = (runAll db schema requests (start, s)).1)
      ∧ watched.2.2.2.1 = watched.2.2.1.filterMap Moment.resolved?
      ∧ (∀ moment ∈ watched.2.2.1, moment.Within maxDepth)
      ∧ (maxDepth ≤ 1 → runAll db schema requests (start, s)
          = (requests.map fun request => .ok request.stored, (start, s)))
      ∧ (∀ (request : Request ρ) (x : Pass × σ),
          ((request.run db schema).outcome x).2.1.depth = x.1.depth)
      ∧ (∀ r, serialize db schema r = visitRecord db schema (serialize db schema) r)
      ∧ ∀ (beyond : ρ → Expansion σ Json) (x : Pass × σ) (r : ρ),
          (unrolled db schema beyond (x.1.levels + 1) r).outcome x
            = (serialize db schema r).outcome x := by
  intro start watched
  have hruns := watchAll_erases (db.beside (List (Visit ρ))) (schema.traced id) requests
    (start, ([], ([], s)))
  have hanswers := runAll_traced db schema requests start [] s
  have hstart : start.At maxDepth 0 := ⟨rfl, rfl⟩
  obtain ⟨moments, hseen⟩ := observed_watchAll db schema requests
    (start, ([], ([], s))) hstart
  have hlog : watched.2.2.1 = moments := hseen.log
  refine ⟨⟨hruns, ?_⟩, ?_, ?_, fun hlimit => ?_, fun request x => ?_, ?_, fun beyond x r => ?_⟩
  · rw [← hanswers, hruns]
  · rw [hlog]
    exact hseen.visits
  · rw [hlog]
    exact hseen.within
  · refine runAll_of_last db schema (x := (start, s)) ?_ requests
    rw [hstart.levels_eq]
    omega
  · exact (at_run db schema request x).depth
  · exact serialize_eq_visitRecord db schema
  · exact outcome_unrolled db schema beyond (Nat.lt_succ_self _) r

/-- A record that leads to itself, and an accessor that fails when it is called again. -/
example (db : Engine Nat) (load : Model → Fields → Except Error Blog.GraphRecord) :
    let resolve : Blog.GraphRecord → Session Nat (Relation Blog.GraphRecord) := fun r =>
      .ofOutcome fun n => if n = 0 then (.ok (.one r), 1) else (.error .noTotal, n)
    let a : Blog.GraphRecord := .described
      ⟨"a", ⟨"node", "node", ["id"], []⟩, .ofList [("id", .int 1)], ["next"], [], none⟩
    (watchAll db ⟨fun r _ => resolve r, load⟩ [.one a] (⟨3, [], [], 0, []⟩, ([], 0))).2.2.1
      = [.consulted ⟨a, "next"⟩ 0, .resolved ⟨a, "next"⟩ 0, .moved 1,
          .consulted ⟨a, "next"⟩ 1, .resolved ⟨a, "next"⟩ 1, .moved 0] :=
  rfl

end RecordMapper.Hydration
