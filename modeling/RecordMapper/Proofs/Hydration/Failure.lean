import RecordMapper.Proofs.Hydration.Notes
import RecordMapper.Proofs.Hydration.Once

/-!
# Failures of hydration

A call fails with the first of its tasks that does, and does nothing after it. Of the relations
that fail with it nothing is remembered, unless one leads back to itself: such a relation can
be complete further down while the relation around it fails. The memo then has its key, and the
next call on the pass answers where this one failed (`loop_answers_after_failure`). That is the only
way (`errors_end_calls`).
-/

namespace RecordMapper.Hydration

open Session

variable {σ ρ α : Type} [Entity ρ] {db : Engine σ} {schema : Schema σ ρ}

/-! ## How a query fails -/

/-- The ways in which the query of a relation fails. -/
inductive QueryFails (db : Engine σ) (schema : Schema σ ρ) (q : Select) (s : σ) : Error → Prop
  | unbound : q.model = none → QueryFails db schema q s (.unboundQuery q.table)
  | statement {bound : Model} {e : Error} : q.model = some bound →
      ((db.query (q.build.toSql db.escape)).outcome s).1 = .error e → QueryFails db schema q s e
  | count {bound : Model} {rows : List Fields} {s₁ : σ} {e : Error} : q.model = some bound →
      (db.query (q.build.toSql db.escape)).outcome s = (.ok rows, s₁) →
      (db.foundRows.outcome s₁).1 = .error e → QueryFails db schema q s e
  /-- A row cannot be loaded, or is no record for the set. -/
  | row {bound : Model} {rows : List Fields} {total : Nat} {s₁ : σ} {e : Error} :
      q.model = some bound → (db.query (q.build.toSql db.escape)).outcome s = (.ok rows, s₁) →
      (db.foundRows.outcome s₁).1 = .ok total →
      ((ResultSet.forModel bound.name).withTotal total).addRows (schema.load bound) rows
        = .error e → QueryFails db schema q s e

theorem outcome_getDynamic_of_bound (db : Engine σ) (schema : Schema σ ρ) {q : Select}
    {bound : Model} (h : q.model = some bound) (s : σ) :
    (q.getDynamic db schema).outcome s = (q.fetch db ⟨bound, schema.load bound⟩).outcome s := by
  rw [Select.getDynamic, outcome_bind, outcome_settle, Select.boundModel, h]

theorem outcome_fetch_of_error {loader : Loader ρ} {q : Select} {s : σ} {e : Error}
    (hquery : ((db.query (q.build.toSql db.escape)).outcome s).1 = .error e) :
    ((q.fetch db loader).outcome s).1 = .error e := by
  have hfails : (db.query (q.build.toSql db.escape)).outcome s
      = (.error e, ((db.query (q.build.toSql db.escape)).outcome s).2) := Prod.ext hquery rfl
  rw [Select.fetch, Select.execute, outcome_bind, outcome_bind_of_error hfails]

theorem outcome_fetch_of_ok {loader : Loader ρ} {q : Select} {rows : List Fields} {s s₁ : σ}
    (hquery : (db.query (q.build.toSql db.escape)).outcome s = (.ok rows, s₁)) :
    ((q.fetch db loader).outcome s).1 = (db.foundRows.outcome s₁).1.bind fun total =>
      ((ResultSet.forModel loader.model.name).withTotal total).addRows loader.load rows := by
  obtain ⟨count, s₂, hcount⟩ := db.foundRows.exists_outcome s₁
  rw [Select.fetch, Select.execute, outcome_bind, outcome_bind_of_ok hquery, outcome_bind, hcount]
  cases count with
  | error e => rfl
  | ok total =>
      dsimp only [outcome_pure]
      rw [outcome_settle]
      rfl

theorem getDynamic_eq_error_iff (db : Engine σ) (schema : Schema σ ρ) (q : Select) (s : σ)
    (e : Error) :
    ((q.getDynamic db schema).outcome s).1 = .error e ↔ QueryFails db schema q s e := by
  constructor
  · intro h
    cases hmodel : q.model with
    | none =>
        rw [Select.getDynamic, outcome_bind, outcome_settle, Select.boundModel, hmodel] at h
        cases h
        exact .unbound hmodel
    | some bound =>
        rw [outcome_getDynamic_of_bound db schema hmodel] at h
        obtain ⟨result, s₁, hquery⟩ := (db.query (q.build.toSql db.escape)).exists_outcome s
        cases result with
        | error e' =>
            have hfails : ((db.query (q.build.toSql db.escape)).outcome s).1 = .error e' := by
              rw [hquery]
            rw [outcome_fetch_of_error hfails] at h
            obtain rfl : e' = e := Except.error.inj h
            exact .statement hmodel hfails
        | ok rows =>
            rw [outcome_fetch_of_ok hquery] at h
            cases hcount : (db.foundRows.outcome s₁).1 with
            | error e' =>
                rw [hcount] at h
                obtain rfl : e' = e := Except.error.inj h
                exact .count hmodel hquery hcount
            | ok total =>
                rw [hcount] at h
                exact .row hmodel hquery hcount h
  · intro h
    cases h with
    | unbound hmodel =>
        rw [Select.getDynamic, outcome_bind, outcome_settle, Select.boundModel, hmodel]
    | statement hmodel hquery =>
        rw [outcome_getDynamic_of_bound db schema hmodel, outcome_fetch_of_error hquery]
    | count hmodel hquery hcount =>
        rw [outcome_getDynamic_of_bound db schema hmodel, outcome_fetch_of_ok hquery, hcount]
        rfl
    | row hmodel hquery hcount hrows =>
        rw [outcome_getDynamic_of_bound db schema hmodel, outcome_fetch_of_ok hquery, hcount]
        exact hrows

/-! ## Calls -/

theorem mem_answers_iff {n : Nat} {answer : Except Error α} {e : Error} :
    .error e ∈ List.replicate n (.ok ()) ++ failureOf answer ↔ answer = .error e := by
  cases answer with
  | ok a => simp [failureOf]
  | error e' => simp [failureOf, eq_comm]

/-- A call on a pass, whatever the records, the engine and the accessors:

* does what is written down of it, and its tasks, performed again, leave the same database;
* fails if and only if one of its tasks does, with the error of that task;
* fails at once: all tasks but the last succeed, and the last one fails if the call does;
* completes every relation that it begins, unless it fails;
* adds to the memo the relations that were completed, and nothing else, so that what is found
  under a key is what was found before, unless a relation with this key was completed;
* leaves the key of a relation that it resolved out of the memo if and only if no relation with this
  key was completed since, and always that of the one whose accessor failed;
* fails together with some relations, each of which is within the one before. The next call finds
  nothing of such a relation if and only if no relation with its key was completed within it.

The query of a relation fails if it is not bound, if the statement or the row count fails, or if a
row gives no record. -/
theorem errors_end_calls (db : Engine σ) (schema : Schema σ ρ) (request : Request ρ)
    (x : Pass × σ) :
    let performed := (request.walk (relationPerformed db schema)).outcome (x.1, ([], x.2))
    let answer := performed.1
    let pass := performed.2.1
    let notes := performed.2.2.1
    let tasks := notes.filterMap Note.task?
    let replayed := replay db schema tasks x.2
    (request.run db schema).outcome x = (answer, (pass, replayed.2))
      ∧ (∀ e, answer = .error e ↔ .error e ∈ replayed.1)
      ∧ (∃ n, replayed.1 = List.replicate n (.ok ()) ++ failureOf answer)
      ∧ (∀ j, answer = .ok j → Finished notes)
      ∧ pass.memo = (notes.filterMap Note.entry?).reverse ++ x.1.memo
      ∧ (∀ key, pass.lookup? key = x.1.lookup? key
          ∨ ∃ r relation j, .completed r relation j ∈ notes ∧ memoKey? r relation = some key
            ∧ pass.lookup? key = some j)
      ∧ (∀ before r relation after key, notes = before ++ .task (.resolve r relation) :: after →
          memoKey? r relation = some key → (pass.lookup? key = none ↔ ¬ Completes after key))
      ∧ (∀ e r relation, answer = .error e → tasks.getLast? = some (.resolve r relation) →
          (memoKey? r relation).bind pass.lookup? = none)
      ∧ (∀ e, answer = .error e → ∃ failed, failed ≠ [] ∧ Stopped notes failed
          ∧ ∀ f ∈ failed, ∀ key, memoKey? f.record f.relation = some key →
            (pass.lookup? key = none ↔ ¬ Completes f.expansion key))
      ∧ ∀ (q : Select) s e, ((q.getDynamic db schema).outcome s).1 = .error e
          ↔ QueryFails db schema q s e := by
  intro performed answer pass notes tasks replayed
  obtain ⟨notes', hperformed⟩ := performs_walkRequest db schema request (x.1, ([], x.2))
  have hnotes : notes' = notes := hperformed.log.symm
  subst hnotes
  obtain ⟨notes', hlog, hends⟩ := nests_walkRequest db schema request (x.1, ([], x.2))
  obtain rfl : notes' = notes := hlog.symm
  obtain ⟨n, htasks⟩ := hperformed.tasks
  have hanswers : replayed.1 = List.replicate n (.ok ()) ++ failureOf answer :=
    congrArg Prod.fst htasks
  have hbelow : replayed.2 = performed.2.2.2 := congrArg Prod.snd htasks
  refine ⟨?_, fun e => ?_, ⟨n, hanswers⟩, fun j hok => ?_, hperformed.memo, hperformed.lookup,
    fun _ _ _ _ _ => hperformed.left_out, hperformed.missed, fun e herror => ?_,
    getDynamic_eq_error_iff db schema⟩
  · rw [hbelow]
    exact erases_walkRequest_performed db schema request (x.1, ([], x.2))
  · rw [hanswers, mem_answers_iff]
  · rw [show ((request.walk _).outcome _).1 = .ok j from hok] at hends
    exact hends
  · rw [show ((request.walk _).outcome _).1 = .error e from herror] at hends
    obtain ⟨failed, hstopped, hfailed⟩ := hends
    refine ⟨failed, hfailed, hstopped, fun f hf key hkey => ?_⟩
    obtain ⟨before, hsplit⟩ := hstopped.exists_split hf
    exact hperformed.left_out hsplit hkey

/-- The second of three relations fails: the first one is remembered, the third one left alone. -/
example (db : Engine Unit) (load : Model → Fields → Except Error Blog.GraphRecord) :
    let resolve : String → Except Error (Relation Blog.GraphRecord) := fun relation =>
      if relation = "broken" then .error .noTotal else .ok (.scalar (.int 7))
    let a : Blog.GraphRecord := .described
      ⟨"a", ⟨"node", "node", ["id"], []⟩, .ofList [("id", .int 1)], ["fine", "broken", "late"],
        [], none⟩
    let performed := ((Request.one a).walk (relationPerformed db
      ⟨fun _ relation => .settle (resolve relation), load⟩)).outcome (.new 3, ([], ()))
    performed.2.2.1 = [.task (.resolve a "fine"), .completed a "fine" (Value.int 7).toJson,
        .task (.resolve a "broken")]
      ∧ performed.2.1.memo.map (fun e => e.1.relation) = ["fine"] :=
  ⟨rfl, rfl⟩

open Blog

/-- A record that leads to itself and to another, whose relation fails. -/
def brokenLoop : Graph :=
  [chained "a" 1 (.many ["a", "b"]), chained "b" 2 (.failing ⟨.engine, "down"⟩)]

/-- The relation of the first record is complete on the second level when that of the other record
fails, and with it the relation of the first record on the first level. The same call again is
answered from the memo: it calls no accessor, and nothing is left of the failure. -/
theorem loop_answers_after_failure :
    let db := silent.beside (List (Visit GraphRecord))
    let schema := (brokenLoop.schema silent).traced id
    let r : GraphRecord := .described (chained "a" 1 (.many ["a", "b"]))
    let r' : GraphRecord := .described (chained "b" 2 (.failing ⟨.engine, "down"⟩))
    let start : Pass × (List (Visit GraphRecord) × Unit) := (⟨3, [], [], 0, []⟩, ([], ()))
    let first := runAll db schema [.one r] start
    let second := runAll db schema [.one r] first.2
    let notes := (((Request.one r).walk (relationPerformed db schema)).outcome
      (start.1, ([], start.2))).2.2.1
    first.1 = [.error ⟨.engine, "down"⟩]
      ∧ keysOf first.2.2.1 = [⟨"node", "next", "1"⟩, ⟨"node", "next", "1"⟩, ⟨"node", "next", "2"⟩]
      ∧ notes = [.task (.resolve r "next"), .task (.resolve r "next"),
        .completed r "next" (.arr [.obj [("id", .int 1)], .obj [("id", .int 2)]]),
        .task (.resolve r' "next")]
      ∧ (second.1.map fun answer => answer.toOption.map Json.render)
        = [some "\x7b\"id\":1,\"next\":[\x7b\"id\":1\x7d,\x7b\"id\":2\x7d]\x7d"]
      ∧ second.2.2.1 = first.2.2.1 := by
  intro db schema r r' start first second notes
  refine ⟨?_, ?_, ?_, ?_, ?_⟩
  · rfl
  · decide +kernel
  · rfl
  · decide +kernel
  · rfl

end RecordMapper.Hydration
