import RecordMapper.Blog.Relations
import RecordMapper.Engine.Recorded
import RecordMapper.Engine.Scripted
import RecordMapper.Proofs.Hydration.Lasting

/-!
# Queries that are left for hydration

An accessor may run its query itself and hand over the records, or leave the query for
hydration to run. The two ways of loading rows do not share their code: one goes by a loader
that the accessor names, the other by the model that the query is bound to. They meet in
`getDynamic_eq_get`, and what is left is when the query runs.

Left for hydration, it runs one level further down, with nothing between it and where it would
have run: the memo has been asked already, and the counter of the depth is no part of
the database (`settleBelow_of_fetched`). So neither answers nor errors show which of the two
an accessor does, and neither does what is left of the pass or of the database. On a recorded
engine that database includes the calls made so far.
-/

namespace RecordMapper

variable {σ ρ : Type}

/-! ## The two ways of loading rows -/

namespace ResultSet

variable [Entity ρ]

theorem addRows_append (load : Fields → Except Error ρ) : ∀ (rows later : List Fields)
    (s : ResultSet ρ), s.addRows load (rows ++ later)
      = s.addRows load rows >>= fun s' => s'.addRows load later
  | [], _, _ => rfl
  | row :: rows, later, s => by
      rw [List.cons_append, addRows, addRows, bind_assoc]
      refine congrArg (load row >>= ·) (funext fun r => ?_)
      rw [bind_assoc]
      exact congrArg (s.add r >>= ·) (funext fun s' => addRows_append load rows later s')

/-- A row that cannot be loaded is the answer, whatever rows come after it. -/
theorem addRows_of_unloadable {load : Fields → Except Error ρ} {rows : List Fields}
    {s s' : ResultSet ρ} (hrows : s.addRows load rows = .ok s') {row : Fields} {e : Error}
    (hrow : load row = .error e) (later : List Fields) :
    s.addRows load (rows ++ row :: later) = .error e := by
  rw [addRows_append, hrows]
  show s'.addRows load (row :: later) = .error e
  rw [addRows, hrow]
  rfl

end ResultSet

namespace Select

variable [Entity ρ] {q : Select} {loader : Loader ρ}

/-- Rows are loaded in the same way for the type that a query is bound to and for the model that
it is bound to. -/
theorem getDynamic_eq_get (hbound : q.model = some loader.model) {schema : Schema σ ρ}
    (hload : schema.load loader.model = loader.load) (db : Engine σ) :
    q.getDynamic db schema = q.get db loader := by
  have hmodel : q.boundModel = .ok loader.model := by rw [boundModel, hbound]
  apply Session.ext_outcome
  intro s
  rw [get_eq_fetch hbound, getDynamic, hmodel, Session.outcome_bind, Session.outcome_settle]
  simp only [hload]

end Select

/-! ## Accessors that run their queries -/

variable [Entity ρ]

/-- The records that a query finds, as a relation. -/
def Relation.found (db : Engine σ) (loader : Loader ρ) (q : Select) : Session σ (Relation ρ) := do
  let set ← q.get db loader
  pure (.many set.items)

/-- What two accessors come out with: the same, or the first with a query and the second with
what the query finds then and there. -/
inductive Fetched (db : Engine σ) (load : Model → Fields → Except Error ρ) :
    Except Error (Relation ρ) × σ → Except Error (Relation ρ) × σ → Prop
  | same (out : Except Error (Relation ρ) × σ) : Fetched db load out out
  | ahead {q : Select} {loader : Loader ρ} (s : σ) (bound : q.model = some loader.model)
      (loads : load loader.model = loader.load) :
      Fetched db load (.ok (.deferred q), s) ((Relation.found db loader q).outcome s)

/-- The accessors of `lazy` leave for hydration what those of `eager` run, or some of it. -/
structure Schema.Defers (db : Engine σ) (lazy eager : Schema σ ρ) : Prop where
  load : eager.load = lazy.load
  resolve : ∀ r relation s, Fetched db lazy.load ((lazy.resolve r relation).outcome s)
    ((eager.resolve r relation).outcome s)

namespace Hydration

open Session

variable {db : Engine σ} {lazy eager : Schema σ ρ}

/-- Relations are expanded by what the schema loads, and by nothing else of it. -/
theorem normalize_congr (h : eager.load = lazy.load) (db : Engine σ)
    (expand : ρ → Expansion σ Json) (relation : Relation ρ) :
    normalize db eager expand relation = normalize db lazy expand relation := by
  have hquery : ∀ q : Select, q.getDynamic db eager = q.getDynamic db lazy := by
    intro q
    rw [Select.getDynamic, Select.getDynamic, h]
  rw [normalize_eq_normalizeBy, normalize_eq_normalizeBy]
  simp only [hquery]

/-- What becomes of a relation that an accessor came out with. -/
def settleBelow (db : Engine σ) (schema : Schema σ ρ) (expand : ρ → Expansion σ Json) (p : Pass)
    (out : Except Error (Relation ρ) × σ) : Except Error Json × (Pass × σ) :=
  match out with
  | (.ok resolved, s) =>
      (within Pass.deeper Pass.shallower (normalize db schema expand resolved)).outcome (p, s)
  | (.error e, s) => (.error e, (p, s))

theorem outcome_expandFresh (db : Engine σ) (schema : Schema σ ρ) (levels : Nat)
    (expand : ρ → Expansion σ Json) (r : ρ) (relation : String) (x : Pass × σ) :
    (expandFresh db schema levels expand r relation).outcome x
      = settleBelow db schema expand x.1 ((schema.resolve r relation).outcome x.2) := by
  rw [expandFresh, outcome_bind, outcome_beside]
  obtain ⟨result, s, hresolve⟩ := (schema.resolve r relation).exists_outcome x.2
  rw [hresolve]
  cases result <;> rfl

/-- One level further down the query runs as it would have run in the accessor. -/
theorem settleBelow_of_fetched {out out' : Except Error (Relation ρ) × σ}
    (h : Fetched db lazy.load out out') (expand : ρ → Expansion σ Json) (p : Pass) :
    settleBelow db lazy expand p out = settleBelow db lazy expand p out' := by
  cases h with
  | same out => rfl
  | @ahead q loader s bound loads =>
      rw [settleBelow, outcome_within, normalize, Select.getDynamic_eq_get bound loads,
        outcome_bind, outcome_beside, Relation.found, outcome_bind]
      obtain ⟨result, s', hget⟩ := (q.get db loader).exists_outcome s
      rw [hget]
      -- on failure the counter comes back from a level that was never entered otherwise
      cases result with
      | error e => rfl
      | ok set => rfl

theorem settleBelow_congr (h : eager.load = lazy.load) (expand : ρ → Expansion σ Json) (p : Pass)
    (out : Except Error (Relation ρ) × σ) :
    settleBelow db eager expand p out = settleBelow db lazy expand p out := by
  obtain ⟨result, s⟩ := out
  cases result with
  | error e => rfl
  | ok resolved => rw [settleBelow, settleBelow, normalize_congr h]

theorem expandFresh_of_defers (h : lazy.Defers db eager) (levels : Nat)
    (expand : ρ → Expansion σ Json) (r : ρ) (relation : String) :
    expandFresh db lazy levels expand r relation
      = expandFresh db eager levels expand r relation := by
  apply ext_outcome
  intro x
  rw [outcome_expandFresh, outcome_expandFresh, settleBelow_congr h.load]
  exact settleBelow_of_fetched (h.resolve r relation x.2) expand x.1

/-! ## Calls -/

/-- The memo comes first, whatever the accessor would do. -/
theorem relationJson_of_defers (h : lazy.Defers db eager)
    (expand : ρ → Expansion σ Json) (r : ρ) (relation : String) :
    relationJson db lazy expand r relation = relationJson db eager expand r relation := by
  apply ext_outcome
  intro x
  cases hfound : (memoKey? r relation).bind x.1.lookup? with
  | some j => rw [outcome_relationJson_of_hit hfound, outcome_relationJson_of_hit hfound]
  | none =>
      rw [outcome_relationJson_of_miss hfound 0, outcome_relationJson_of_miss hfound 0,
        expandFresh_of_defers h]

theorem run_of_defers (h : lazy.Defers db eager) (request : Request ρ) :
    request.run db lazy = request.run db eager := by
  have hstep : relationJson db lazy = relationJson db eager := by
    funext expand r relation
    exact relationJson_of_defers h expand r relation
  rw [Request.run_eq_walk, Request.run_eq_walk, hstep]

theorem runAll_of_defers (h : lazy.Defers db eager) : ∀ (requests : List (Request ρ))
    (x : Pass × σ), runAll db lazy requests x = runAll db eager requests x
  | [], _ => rfl
  | request :: rest, x => by
      rw [runAll, runAll, run_of_defers h]
      exact congrArg (fun later => (_ :: later.1, later.2)) (runAll_of_defers h rest _)

/-- What an answer says went wrong. -/
def failure? : Except Error Json → Option Error
  | .ok _ => none
  | .error e => some e

/-- The text of a call that asks for rows. -/
def statement? : Call → Option String
  | .query sql => some sql
  | _ => none

/-- On any engine and from any pass, calls answer alike whether accessors leave their queries or
run them, fail alike, make the same calls to the engine in the same order, and leave the same
pass and the same database. The two ways of running a query give the same records, the same total
and the same errors. If a row cannot be loaded, that is the answer of both, once both calls of
the query have been made. -/
theorem deferred_as_fetched (db : Engine σ) {lazy eager : Schema (List Call × σ) ρ}
    (h : lazy.Defers db.recorded eager) :
    (∀ (requests : List (Request ρ)) (p : Pass) (calls : List Call) (s : σ),
      runAll db.recorded lazy requests (p, (calls, s))
        = runAll db.recorded eager requests (p, (calls, s)))
      ∧ ∀ (q : Select) (loader : Loader ρ), q.model = some loader.model →
        lazy.load loader.model = loader.load →
        q.getDynamic db.recorded lazy = q.get db.recorded loader
          ∧ ∀ rows row later total set e x x',
            (q.execute db.recorded).outcome x = (.ok (rows ++ row :: later, total), x') →
            ((ResultSet.forModel loader.model.name).withTotal total).addRows loader.load rows
              = .ok set →
            loader.load row = .error e → (q.get db.recorded loader).outcome x = (.error e, x') := by
  refine ⟨fun requests p calls s => runAll_of_defers h requests _, fun q loader hbound hload =>
    ⟨Select.getDynamic_eq_get hbound hload _, ?_⟩⟩
  intro rows row later total set e x x' hexecute hrows hrow
  rw [Select.get_eq_fetch hbound, Select.fetch, outcome_bind_of_ok hexecute]
  simp only [outcome_settle, ResultSet.addRows_of_unloadable hrows hrow]

open Blog

/-- The second of three notes has no text for a body, so the notes of an author are not to be
had in either way, and both ways get there by the same two calls. -/
theorem deferred_as_fetched_of_unloadable_note :
    let db := Script.engine.recorded
    let notes : Select := { Select.ofTable "note" with model := some Kind.note.model }
    let lazy : Schema (List Call × Script) Record := ⟨fun _ _ => pure (.deferred notes), load⟩
    let eager : Schema (List Call × Script) Record :=
      ⟨fun _ _ => Relation.found db Kind.note.recordType.toLoader notes, load⟩
    let note : Value → Fields := fun body => .ofList [("note_id", .int 1), ("body", body)]
    let script : Script :=
      { rules := [⟨"FROM `note`", .ok [note (.text "a"), note (.int 7), note (.text "c")]⟩] }
    let author : Record := ⟨.author, .ofList [("author_id", .int 1)], []⟩
    let run := runAll db lazy [.one author] (.new 3, ([], script))
    lazy.Defers db eager
      ∧ run = runAll db eager [.one author] (.new 3, ([], script))
      ∧ run.1.map failure? = [some ⟨.mapping, "note body must be text"⟩]
      ∧ run.2.2.1.map statement?
        = [some "SELECT SQL_CALC_FOUND_ROWS `note`.* FROM `note`", some Engine.foundRowsSql] := by
  intro db notes lazy eager note script author run
  have hdefers : lazy.Defers db eager :=
    ⟨rfl, fun _ _ s => .ahead s rfl rfl⟩
  exact ⟨hdefers, (deferred_as_fetched Script.engine hdefers).1 _ _ _ _, by decide +kernel,
    by decide +kernel⟩

end Hydration

end RecordMapper
