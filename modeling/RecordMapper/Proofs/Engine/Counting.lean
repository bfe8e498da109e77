import RecordMapper.Engine.Scripted
import RecordMapper.Proofs.Engine.Program
import RecordMapper.Proofs.Engine.Transcript

/-!
# Row counts belong to their statements

What an operation adds to the transcript of the calls is counted (`Counts`), wherever
the operation fails: before the statement, with it, or behind the question. Sequences
of operations add nothing else, and in hydration neither do the accessors, which are
such sequences themselves. So it holds of every program.
-/

namespace RecordMapper

open Session

/-! ## What actions add -/

section Actions

variable {κ σ τ α β : Type} {log : κ → List Exchange}

/-- What `act` adds to the transcript in the state is counted. -/
def Counts (log : κ → List Exchange) (act : Session κ α) : Prop :=
  ∀ x, ∃ entries, log (act.outcome x).2 = log x ++ entries ∧ Counted entries

theorem counts_of_same {act : Session κ α} (h : ∀ x, log (act.outcome x).2 = log x) :
    Counts log act :=
  fun x => ⟨[], by rw [h, List.append_nil], counted_nil⟩

theorem counts_settle (x : Except Error α) : Counts log (settle x) :=
  counts_of_same fun s => by rw [outcome_settle]

theorem counts_pure (a : α) : Counts log (pure a : Session κ α) :=
  counts_of_same fun _ => rfl

theorem Counts.bind {act : Session κ α} {f : α → Session κ β} (hact : Counts log act)
    (hf : ∀ a, Counts log (f a)) : Counts log (act >>= f) := by
  intro x
  obtain ⟨entries, hlog, hcounted⟩ := hact x
  obtain ⟨result, x', h⟩ := act.exists_outcome x
  rw [h] at hlog
  rw [outcome_bind, h]
  cases result with
  | error e => exact ⟨entries, hlog, hcounted⟩
  | ok a =>
      obtain ⟨entries', hlog', hcounted'⟩ := hf a x'
      refine ⟨entries ++ entries', ?_, hcounted.append hcounted'⟩
      rw [← List.append_assoc, ← hlog]
      exact hlog'

theorem Counts.attempt {act : Session κ α} (h : Counts log act) : Counts log act.attempt := h

/-- The transcript of a database that stands beside something else. -/
abbrev transcriptBelow (x : τ × (List Exchange × σ)) : List Exchange := x.2.1

theorem Counts.beside {act : Session (List Exchange × σ) α} (h : Counts Prod.fst act) :
    Counts transcriptBelow (act.beside : Session (τ × (List Exchange × σ)) α) :=
  fun x => h x.2

theorem Counts.lending {act : Session (τ × (List Exchange × σ)) α}
    (h : Counts transcriptBelow act) (a : τ) : Counts Prod.fst (lending a act) :=
  fun x => h (a, x)

theorem Counts.within {act : Session (τ × (List Exchange × σ)) α}
    (h : Counts transcriptBelow act) (enter leave : τ → τ) :
    Counts transcriptBelow (within enter leave act) :=
  fun x => h (enter x.1, x.2)

/-- A call that is no statement is counted by itself. -/
theorem counts_transcribing {note : Except Error α → Exchange}
    (hnote : ∀ answer sql rows, note answer ≠ .query sql rows) (act : Session σ α) :
    Counts Prod.fst (Engine.transcribing note act) := by
  intro x
  refine ⟨[note (act.outcome x.2).1], rfl, counted_singleton ?_ ?_⟩
  · rintro ⟨answer, h⟩
    exact hnote _ _ _ h
  · rintro ⟨sql, rows, h, -⟩
    exact hnote _ _ _ h

end Actions

/-! ## Operations -/

variable {σ ρ : Type} [Entity ρ] {db : Engine σ}

namespace Select

omit [Entity ρ] in
theorem counts_execute (hcounter : db.counter = none) (q : Select) :
    Counts Prod.fst (q.execute db.transcribed) := by
  intro x
  obtain ⟨result, s, h⟩ := (db.query (q.build.toSql db.escape)).exists_outcome x.2
  cases result with
  | error e =>
      rw [outcome_execute_of_error q h]
      refine ⟨_, rfl, counted_singleton ?_ ?_⟩
      · rintro ⟨answer, hask⟩
        have hsql : q.build.toSql db.escape = Engine.foundRowsSql := (Exchange.query.inj hask).1
        exact Query.not_calculates_foundRowsSql (hsql ▸ Query.calculates_toSql q db.escape)
      · rintro ⟨sql, rows, hfound, -⟩
        cases (Exchange.query.inj hfound).2
  | ok rows =>
      obtain ⟨answer, s', hanswer⟩ := (db.query Engine.foundRowsSql).exists_outcome s
      rw [outcome_execute_of_ok hcounter q h hanswer]
      exact ⟨_, rfl, counted_pair ⟨_, _, rfl, Query.calculates_toSql q db.escape⟩ ⟨_, rfl⟩⟩

theorem counts_fetch (hcounter : db.counter = none) (loader : Loader ρ) (q : Select) :
    Counts Prod.fst (q.fetch db.transcribed loader) :=
  (counts_execute hcounter q).bind fun _ => counts_settle _

theorem counts_get (hcounter : db.counter = none) (loader : Loader ρ) (q : Select) :
    Counts Prod.fst (q.get db.transcribed loader) := by
  refine (counts_settle q.boundModel).bind fun bound => ?_
  split
  · exact counts_fetch hcounter loader q
  · exact counts_settle (.error _)

theorem counts_first (hcounter : db.counter = none) (loader : Loader ρ) (q : Select) :
    Counts Prod.fst (q.first db.transcribed loader) :=
  (counts_get hcounter loader _).bind fun _ => counts_pure _

theorem counts_getDynamic (hcounter : db.counter = none)
    (schema : Schema (List Exchange × σ) ρ) (q : Select) :
    Counts Prod.fst (q.getDynamic db.transcribed schema) :=
  (counts_settle q.boundModel).bind fun _ => counts_fetch hcounter _ q

end Select

namespace RecordType

theorem counts_find (hcounter : db.counter = none) (t : RecordType ρ) (id : Value) :
    Counts Prod.fst (t.find db.transcribed id) := by
  unfold find
  split
  · exact counts_settle (.error _)
  · refine (counts_settle _).bind fun key => (counts_settle _).bind fun q => ?_
    refine (Select.counts_first hcounter t.toLoader _).bind fun found => ?_
    cases found with
    | none => exact counts_settle (.error _)
    | some r => exact counts_pure r

theorem counts_create (hcounter : db.counter = none) (t : RecordType ρ) (fields : Fields) :
    Counts Prod.fst (t.create db.transcribed fields) := by
  unfold create
  refine (counts_settle _).bind fun record => (counts_settle _).bind fun record => ?_
  refine (counts_transcribing (by simp) _).bind fun generated => ?_
  have hrest : ∀ id, Counts Prod.fst (t.find db.transcribed id >>= t.announce .afterCreate) :=
    fun id => (counts_find hcounter t id).bind fun created => counts_settle _
  dsimp only
  split
  · exact counts_settle (.error _)
  · exact hrest _

omit [Entity ρ] in
theorem counts_react (t : RecordType ρ) (e : Event) :
    Counts transcriptBelow (t.react e : Session (ρ × (List Exchange × σ)) Unit) :=
  counts_of_same fun _ => rfl

theorem counts_save (t : RecordType ρ) : Counts transcriptBelow (t.save db.transcribed) := by
  unfold save
  refine (counts_react t .beforeUpdate).bind fun _ => ?_
  refine (counts_of_same fun _ => rfl).bind fun r => ?_
  cases Entity.id? r with
  | none => exact counts_settle (.error _)
  | some id =>
      refine (counts_settle _).bind fun key => ?_
      refine (counts_transcribing (by simp) _).beside.bind fun affected => ?_
      exact (counts_react t .afterUpdate).bind fun _ => counts_pure affected

theorem counts_delete (t : RecordType ρ) : Counts transcriptBelow (t.delete db.transcribed) := by
  unfold delete
  refine (counts_react t .beforeDelete).bind fun _ => ?_
  refine (counts_of_same fun _ => rfl).bind fun r => ?_
  cases Entity.id? r with
  | none => exact counts_settle (.error _)
  | some id =>
      refine (counts_transcribing (by simp) _).beside.bind fun affected => ?_
      exact (counts_react t .afterDelete).bind fun _ => counts_pure affected

end RecordType

namespace Hydration

theorem counts_relationJson (hcounter : db.counter = none)
    {schema : Schema (List Exchange × σ) ρ}
    (hschema : ∀ r relation, Counts Prod.fst (schema.resolve r relation))
    {expand : ρ → Expansion (List Exchange × σ) Json}
    (h : ∀ r, Counts transcriptBelow (expand r)) (r : ρ) (relation : String) :
    Counts transcriptBelow (relationJson db.transcribed schema expand r relation) := by
  unfold relationJson
  refine (counts_of_same fun _ => rfl).bind fun pass => ?_
  cases (memoKey? r relation).bind pass.lookup? with
  | some j => exact counts_pure j
  | none =>
      refine (hschema r relation).beside.bind fun resolved => ?_
      have hvalue := (Compositional.of_property counts_pure Counts.bind).normalize
        (fun q => ⟨rfl, (q.counts_getDynamic hcounter schema).beside⟩) (fun r => ⟨rfl, h r⟩)
        resolved
      refine (hvalue.2.within _ _).bind fun j => ?_
      cases memoKey? r relation with
      | none => exact counts_pure j
      | some key => exact (counts_of_same fun _ => rfl).bind fun _ => counts_pure j

theorem counts_run (hcounter : db.counter = none) {schema : Schema (List Exchange × σ) ρ}
    (hschema : ∀ r relation, Counts Prod.fst (schema.resolve r relation)) (request : Request ρ) :
    Counts transcriptBelow (request.run db.transcribed schema) := by
  rw [Request.run_eq_walk]
  exact Request.walk_of_property counts_pure Counts.bind (counts_of_same fun _ => rfl)
    (fun _ _ h => counts_relationJson hcounter hschema h) request

end Hydration

theorem Program.counts (hcounter : db.counter = none) {α : Type}
    {act : Session (List Exchange × σ) α} (h : Program db.transcribed act) :
    Counts Prod.fst act := by
  induction h with
  | settle x => exact counts_settle x
  | bind _ _ hact hf => exact hact.bind hf
  | attempt _ hact => exact hact.attempt
  | find t id => exact t.counts_find hcounter id
  | findFirst t node => exact (counts_settle _).bind fun _ => Select.counts_first hcounter _ _
  | findAll t node => exact (counts_settle _).bind fun _ => Select.counts_get hcounter _ _
  | paginate t p => exact (counts_settle _).bind fun _ => Select.counts_get hcounter _ _
  | create t fields => exact t.counts_create hcounter fields
  | save t r => exact t.counts_save.lending r
  | delete t r => exact t.counts_delete.lending r
  | get loader q => exact q.counts_get hcounter loader
  | first loader q => exact q.counts_first hcounter loader
  | getDynamic schema q => exact q.counts_getDynamic hcounter schema
  | hydration _ p request hschema =>
      exact (Hydration.counts_run hcounter hschema request).lending p

/-! ## Runs -/

/-- On an engine that counts rows by a statement, whatever it answers and wherever it fails:

* what a program adds to the transcript, from any state on, is counted: each question for a
  number of rows stands right behind a statement that found rows, and each such statement right
  before a question;
* a set of records that was got from the database adds just its own statement and the question
  behind it, and its total is the number that the answer to that question shows. -/
theorem Program.totals_of_statements {db : Engine σ} (hcounter : db.counter = none) :
    (∀ {α : Type} {act : Session (List Exchange × σ) α}, Program db.transcribed act →
        ∀ transcript s, ∃ entries, (act.outcome (transcript, s)).2.1 = transcript ++ entries
          ∧ Counted entries)
      ∧ ∀ {ρ : Type} [Entity ρ] {x x' : List Exchange × σ} {set : ResultSet ρ},
        (∀ loader q, (q.get db.transcribed loader).outcome x = (.ok set, x') →
            Drawn db loader q set x.1 x'.1)
          ∧ (∀ (schema : Schema (List Exchange × σ) ρ) q,
            (q.getDynamic db.transcribed schema).outcome x = (.ok set, x') →
              ∃ bound, q.model = some bound
                ∧ Drawn db ⟨bound, schema.load bound⟩ q set x.1 x'.1)
          ∧ (∀ (t : RecordType ρ) node,
            (t.findAll db.transcribed node).outcome x = (.ok set, x') →
              ∃ q, t.select = .ok q ∧ Drawn db t.toLoader (q.andWhere node) set x.1 x'.1)
          ∧ ∀ (t : RecordType ρ) p,
            (t.paginate db.transcribed p).outcome x = (.ok set, x') →
              ∃ q, t.select = .ok q ∧ Drawn db t.toLoader (q.paginate p) set x.1 x'.1 := by
  refine ⟨fun h transcript s => h.counts hcounter (transcript, s), fun {ρ _ x x' set} => ?_⟩
  refine ⟨fun loader q => Select.drawn_of_get hcounter, fun schema q h => ?_, fun t node h => ?_,
    fun t p h => ?_⟩
  · obtain ⟨bound, hbound, hfetch⟩ := outcome_settle_bind_eq_ok_iff.mp h
    exact ⟨bound, q.model_eq_some_of_boundModel hbound, Select.drawn_of_fetch hcounter hfetch⟩
  · obtain ⟨q, hselect, hget⟩ := outcome_settle_bind_eq_ok_iff.mp h
    exact ⟨q, hselect, Select.drawn_of_get hcounter hget⟩
  · obtain ⟨q, hselect, hget⟩ := outcome_settle_bind_eq_ok_iff.mp h
    exact ⟨q, hselect, Select.drawn_of_get hcounter hget⟩

/-- Posts, of which there are two, and comments, of which there are three. A post is hydrated with
its author and its comments; then all posts and all comments are got, one set after the other. -/
theorem Program.totals_of_posts_and_comments :
    let db := Script.engine.transcribed
    let post : Int64 → Fields := fun id => .ofList [("post_id", .int id)]
    let comment : Int64 → Fields := fun id => .ofList [("comment_id", .int id)]
    let script : Script := { rules := [⟨"FROM `post`", .ok [post 7, post 8]⟩,
      ⟨"FROM `comment`", .ok [comment 1, comment 2, comment 3]⟩] }
    let r : Blog.Record := ⟨.post, .ofList [("post_id", .int 7), ("author_id", .int 1)], []⟩
    let t := Blog.Kind.post.recordType
    let t' := Blog.Kind.comment.recordType
    Script.engine.counter = none
      ∧ Program db (RecordMapper.hydrate db (Blog.schema db) ⟨2⟩ r)
      ∧ (∃ entries, ((RecordMapper.hydrate db (Blog.schema db) ⟨2⟩ r).outcome ([], script)).2.1
            = [] ++ entries ∧ Counted entries ∧ entries.length = 4)
      ∧ ∃ posts x, (t.findAll db none).outcome ([], script) = (.ok posts, x) ∧ posts.total = 2
          ∧ (∃ q, t.select = .ok q
            ∧ (q.andWhere none).build.toSql Script.engine.escape
              = "SELECT SQL_CALC_FOUND_ROWS `post`.* FROM `post`"
            ∧ Drawn Script.engine t.toLoader (q.andWhere none) posts [] x.1)
          ∧ ∃ comments x', (t'.findAll db none).outcome x = (.ok comments, x')
            ∧ comments.total = 3
            ∧ ∃ q, t'.select = .ok q
              ∧ (q.andWhere none).build.toSql Script.engine.escape
                = "SELECT SQL_CALC_FOUND_ROWS `comment`.* FROM `comment`"
              ∧ Drawn Script.engine t'.toLoader (q.andWhere none) comments x.1 x'.1 := by
  intro db post comment script r t t'
  have hcounter : Script.engine.counter = none := rfl
  have hprogram := Program.hydrate (Program.blog db) ⟨2⟩ r
  have hruns := Program.totals_of_statements hcounter
  refine ⟨hcounter, hprogram, ?_, ?_⟩
  · obtain ⟨entries, hlog, hcounted⟩ := hruns.1 hprogram [] script
    refine ⟨entries, hlog, hcounted, ?_⟩
    rw [List.nil_append] at hlog
    rw [← hlog]
    decide +kernel
  · have htotals : ((t.findAll db none).outcome ([], script)).1.toOption.map ResultSet.total
          = some 2
        ∧ ((t'.findAll db none).outcome ((t.findAll db none).outcome ([], script)).2).1.toOption.map
          ResultSet.total = some 3 := by decide +kernel
    have hsql : (t.select.toOption.map fun q => (q.andWhere none).build.toSql Script.engine.escape)
          = some "SELECT SQL_CALC_FOUND_ROWS `post`.* FROM `post`"
        ∧ (t'.select.toOption.map fun q => (q.andWhere none).build.toSql Script.engine.escape)
          = some "SELECT SQL_CALC_FOUND_ROWS `comment`.* FROM `comment`" := by decide +kernel
    obtain ⟨result, x, hposts⟩ := (t.findAll db none).exists_outcome ([], script)
    obtain ⟨result', x', hcomments⟩ := (t'.findAll db none).exists_outcome x
    rw [hposts, hcomments] at htotals
    obtain ⟨htotal, htotal'⟩ := htotals
    cases result with
    | error e => cases htotal
    | ok posts =>
        cases result' with
        | error e => cases htotal'
        | ok comments =>
            obtain ⟨q, hq, hdrawn⟩ := hruns.2.2.2.1 t none hposts
            obtain ⟨q', hq', hdrawn'⟩ := hruns.2.2.2.1 t' none hcomments
            rw [hq, hq'] at hsql
            exact ⟨posts, x, hposts, Option.some.inj htotal,
              ⟨q, hq, Option.some.inj hsql.1, hdrawn⟩, comments, x', hcomments,
              Option.some.inj htotal', q', hq', Option.some.inj hsql.2, hdrawn'⟩

end RecordMapper
