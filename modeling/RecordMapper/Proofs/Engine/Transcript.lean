import RecordMapper.Engine.Transcribed
import RecordMapper.Proofs.Decimal
import RecordMapper.Proofs.Query.Layout
import RecordMapper.Proofs.Query.Substitution
import RecordMapper.Proofs.Session

/-!
# Statements and row counts in a transcript

The database is asked for a row count without being told of which statement, so the
question must come right behind the statement that is meant. A transcript is counted
if it has a question right behind each statement that found rows, and nowhere else
(`Counted`); counted transcripts can be put one behind the other. A query adds its
statement and, if that found rows, the question; what is got from the database is
made of these two answers (`Drawn`), its total being the number in the first row of
the second one (`ShowsTotal`).
-/

namespace RecordMapper

open Session

/-! ## Statements and questions -/

/-- The statement has the database find out how many rows there are without the limit. -/
def Query.Calculates (sql : String) : Prop :=
  "SELECT SQL_CALC_FOUND_ROWS ".toList <+: sql.toList

theorem Query.calculates_toSql (q : Select) (escape : Value → String) :
    Calculates (q.build.toSql escape) := by
  have hhead : ∃ rest, q.build.sql.toList = "SELECT SQL_CALC_FOUND_ROWS ".toList ++ rest := by
    cases hroot : q.filter.root with
    | none =>
        rw [sql_build_of_none hroot]
        simp only [String.toList_append, toList_headText, List.append_assoc]
        exact ⟨_, rfl⟩
    | some root =>
        rw [sql_build_of_some hroot]
        simp only [String.toList_append, toList_headText, List.append_assoc]
        exact ⟨_, rfl⟩
  obtain ⟨rest, hrest⟩ := hhead
  have hcolon : ':' ∉ "SELECT SQL_CALC_FOUND_ROWS ".toList := by decide
  have htext : (q.build.toSql escape).toList = substitute _ 0 q.build.sql.toList :=
    String.toList_ofList
  rw [Calculates, htext, hrest, substitute_append_of_no_colon hcolon]
  exact List.prefix_append ..

theorem Query.not_calculates_foundRowsSql : ¬ Calculates Engine.foundRowsSql := by
  rw [Calculates, ← List.isPrefixOf_iff_prefix]
  decide

namespace Exchange

/-- A statement succeeded, and how many rows there are can be asked for. -/
def Found (x : Exchange) : Prop :=
  ∃ sql rows, x = .query sql (.ok rows) ∧ Query.Calculates sql

/-- The database is asked how many rows there are. -/
def AsksTotal (x : Exchange) : Prop :=
  ∃ answer, x = .query "SELECT FOUND_ROWS() AS total;" answer

theorem Found.not_asksTotal {x : Exchange} (h : x.Found) : ¬ x.AsksTotal := by
  rintro ⟨answer, rfl⟩
  obtain ⟨sql, rows, heq, hsql⟩ := h
  obtain ⟨rfl, -⟩ := Exchange.query.inj heq
  exact Query.not_calculates_foundRowsSql hsql

end Exchange

/-! ## Counted transcripts -/

/-- Each question stands right behind a statement that found rows, and each such statement right
before a question. -/
structure Counted (entries : List Exchange) : Prop where
  asked : ∀ {i ask}, entries[i]? = some ask → ask.AsksTotal →
    ∃ j select, i = j + 1 ∧ entries[j]? = some select ∧ select.Found
  answered : ∀ {i select}, entries[i]? = some select → select.Found →
    ∃ ask, entries[i + 1]? = some ask ∧ ask.AsksTotal

theorem counted_nil : Counted [] where
  asked h := by cases h
  answered h := by cases h

theorem counted_singleton {x : Exchange} (hask : ¬ x.AsksTotal) (hfound : ¬ x.Found) :
    Counted [x] where
  asked h hx := by
    obtain rfl := List.mem_singleton.mp (List.mem_of_getElem? h)
    exact absurd hx hask
  answered h hx := by
    obtain rfl := List.mem_singleton.mp (List.mem_of_getElem? h)
    exact absurd hx hfound

theorem counted_pair {select ask : Exchange} (hselect : select.Found) (hask : ask.AsksTotal) :
    Counted [select, ask] where
  asked {i x} h hx := by
    match i with
    | 0 =>
        obtain rfl : select = x := Option.some.inj h
        exact absurd hx hselect.not_asksTotal
    | 1 => exact ⟨0, select, rfl, rfl, hselect⟩
    | i + 2 => cases h
  answered {i x} h hx := by
    match i with
    | 0 => exact ⟨ask, rfl, hask⟩
    | 1 =>
        obtain rfl : ask = x := Option.some.inj h
        exact absurd hask hx.not_asksTotal
    | i + 2 => cases h

theorem Counted.append {entries entries' : List Exchange} (h : Counted entries)
    (h' : Counted entries') : Counted (entries ++ entries') where
  -- no piece begins with a question or ends with a statement, so the neighbours are in one piece
  asked {i x} hi hx := by
    by_cases hlt : i < entries.length
    · rw [List.getElem?_append_left hlt] at hi
      obtain ⟨j, select, rfl, hj, hselect⟩ := h.asked hi hx
      exact ⟨j, select, rfl, by rwa [List.getElem?_append_left (by omega)], hselect⟩
    · rw [List.getElem?_append_right (by omega)] at hi
      obtain ⟨j, select, hij, hj, hselect⟩ := h'.asked hi hx
      refine ⟨entries.length + j, select, by omega, ?_, hselect⟩
      rwa [List.getElem?_append_right (by omega), Nat.add_sub_cancel_left]
  answered {i x} hi hx := by
    by_cases hlt : i < entries.length
    · rw [List.getElem?_append_left hlt] at hi
      obtain ⟨ask, hask, hasks⟩ := h.answered hi hx
      have hnext : i + 1 < entries.length := (List.getElem?_eq_some_iff.mp hask).1
      exact ⟨ask, by rwa [List.getElem?_append_left hnext], hasks⟩
    · rw [List.getElem?_append_right (by omega)] at hi
      obtain ⟨ask, hask, hasks⟩ := h'.answered hi hx
      refine ⟨ask, ?_, hasks⟩
      rwa [List.getElem?_append_right (by omega), Nat.sub_add_comm (by omega)]

/-! ## A statement with its question -/

namespace Engine

variable {σ : Type} {db : Engine σ}

/-- What is run is written down with its answer, behind what was there. -/
theorem outcome_transcribing {α : Type} (note : Except Error α → Exchange) {act : Session σ α}
    {answer : Except Error α} {s s' : σ} (h : act.outcome s = (answer, s'))
    (log : List Exchange) :
    (transcribing note act).outcome (log, s) = (answer, (log ++ [note answer], s')) := by
  show ((act.outcome s).1, (log ++ [note (act.outcome s).1], (act.outcome s).2)) = _
  rw [h]

theorem outcome_query_transcribed (db : Engine σ) {sql : String}
    {answer : Except Error (List Fields)} {x : List Exchange × σ} {s : σ}
    (h : (db.query sql).outcome x.2 = (answer, s)) :
    (db.transcribed.query sql).outcome x = (answer, (x.1 ++ [.query sql answer], s)) :=
  outcome_transcribing (.query sql) h x.1

/-- The total in an answer to the question for it. -/
def totalIn : Except Error (List Fields) → Except Error Nat
  | .ok counts => (total? counts).elim (.error .noTotal) .ok
  | .error e => .error e

theorem outcome_foundRows_transcribed (hcounter : db.counter = none)
    {answer : Except Error (List Fields)} {x : List Exchange × σ} {s : σ}
    (h : (db.query foundRowsSql).outcome x.2 = (answer, s)) :
    db.transcribed.foundRows.outcome x
      = (totalIn answer, (x.1 ++ [.query foundRowsSql answer], s)) := by
  have hnone : db.transcribed.counter = none := by simp [transcribed, hcounter]
  rw [foundRows, hnone]
  show (db.transcribed.query foundRowsSql >>= _).outcome x = _
  rw [outcome_bind, outcome_query_transcribed db h]
  cases answer with
  | error e => rfl
  | ok counts =>
      cases htotal : total? counts with
      | none =>
          simp only [htotal, totalIn]
          rfl
      | some n =>
          simp only [htotal, totalIn]
          rfl

/-- What counting the rows of the last query comes to: a call, unless the engine has a way of
its own, and the count. -/
inductive Tally (db : Engine σ) (s : σ) : List Exchange → Except Error Nat → σ → Prop
  | own {count : Session σ Nat} {answer : Except Error Nat} {s' : σ}
      (counter : db.counter = some count) (run : count.outcome s = (answer, s')) :
      Tally db s [] answer s'
  | asked {answer : Except Error (List Fields)} {s' : σ} (counter : db.counter = none)
      (run : (db.query foundRowsSql).outcome s = (answer, s')) :
      Tally db s [.query foundRowsSql answer] (totalIn answer) s'

theorem exists_tally (db : Engine σ) (s : σ) :
    ∃ entries answer s', db.Tally s entries answer s' := by
  cases hcounter : db.counter with
  | some count => exact ⟨_, _, _, .own hcounter rfl⟩
  | none => exact ⟨_, _, _, .asked hcounter rfl⟩

theorem Tally.outcome {db : Engine σ} {s s' : σ} {entries : List Exchange}
    {answer : Except Error Nat} (h : db.Tally s entries answer s') (log : List Exchange) :
    db.transcribed.foundRows.outcome (log, s) = (answer, (log ++ entries, s')) := by
  cases h with
  | @own count _ _ hcounter hrun =>
      have hown : db.transcribed.counter = some count.beside := by
        rw [transcribed, hcounter]
        rfl
      rw [foundRows, hown]
      show (count.beside : Session (List Exchange × σ) Nat).outcome (log, s) = _
      rw [outcome_beside, hrun, List.append_nil]
  | asked hcounter hrun => exact outcome_foundRows_transcribed hcounter hrun

theorem Tally.asks {db : Engine σ} {s s' : σ} {entries : List Exchange} {answer : Except Error Nat}
    (h : db.Tally s entries answer s') {x : Exchange} (hx : x ∈ entries) :
    ∃ sql rows, x = .query sql rows := by
  cases h with
  | own => cases hx
  | asked => exact ⟨_, _, List.mem_singleton.mp hx⟩

end Engine

namespace Select

variable {σ ρ : Type} {db : Engine σ}

/-- The statement failed, and nothing was asked. -/
theorem outcome_execute_of_error (q : Select) {e : Error} {x : List Exchange × σ} {s : σ}
    (h : (db.query (q.build.toSql db.escape)).outcome x.2 = (.error e, s)) :
    (q.execute db.transcribed).outcome x
      = (.error e, (x.1 ++ [.query (q.build.toSql db.escape) (.error e)], s)) :=
  outcome_bind_of_error (Engine.outcome_query_transcribed db h) _

/-- The statement found rows, which are then counted. -/
theorem outcome_execute_of_tally (q : Select) {rows : List Fields} {asked : List Exchange}
    {answer : Except Error Nat} {s s₁ s₂ : σ}
    (hquery : (db.query (q.build.toSql db.escape)).outcome s = (.ok rows, s₁))
    (hcount : db.Tally s₁ asked answer s₂) (log : List Exchange) :
    (q.execute db.transcribed).outcome (log, s) = (answer.map fun total => (rows, total),
      (log ++ .query (q.build.toSql db.escape) (.ok rows) :: asked, s₂)) := by
  have hstatement := Engine.outcome_query_transcribed db (x := (log, s)) hquery
  rw [execute]
  show (db.transcribed.query (q.build.toSql db.escape) >>= _).outcome (log, s) = _
  rw [outcome_bind_of_ok hstatement, outcome_bind, hcount.outcome, List.append_assoc,
    List.singleton_append]
  cases answer <;> rfl

/-- The statement found rows, and the next call asked how many. -/
theorem outcome_execute_of_ok (hcounter : db.counter = none) (q : Select) {rows : List Fields}
    {answer : Except Error (List Fields)} {x : List Exchange × σ} {s s' : σ}
    (h : (db.query (q.build.toSql db.escape)).outcome x.2 = (.ok rows, s))
    (hanswer : (db.query Engine.foundRowsSql).outcome s = (answer, s')) :
    (q.execute db.transcribed).outcome x
      = ((Engine.totalIn answer).map fun total => (rows, total),
          (x.1 ++ [.query (q.build.toSql db.escape) (.ok rows),
            .query Engine.foundRowsSql answer], s')) :=
  q.outcome_execute_of_tally h (.asked hcounter hanswer) x.1

end Select

variable {σ ρ : Type} [Entity ρ] {db : Engine σ}

/-! ## Totals -/

namespace ResultSet

theorem total_add {s s' : ResultSet ρ} {r : ρ} (h : s.add r = .ok s') : s'.total = s.total := by
  unfold add at h
  dsimp only at h
  split at h
  · cases h
    rfl
  · split at h
    · cases h
      rfl
    · cases h

theorem total_addRows {load : Fields → Except Error ρ} : ∀ {rows : List Fields}
    {s s' : ResultSet ρ}, s.addRows load rows = .ok s' → s'.total = s.total
  | [], _, _, h => by
      cases h
      rfl
  | row :: rest, s, s', h => by
      rw [addRows] at h
      cases hload : load row with
      | error e =>
          rw [hload] at h
          cases h
      | ok r =>
          cases hadd : s.add r with
          | error e =>
              rw [hload] at h
              simp only [bind, Except.bind, hadd] at h
              cases h
          | ok grown =>
              rw [hload] at h
              simp only [bind, Except.bind, hadd] at h
              rw [total_addRows h, total_add hadd]

end ResultSet

/-- The first row has this number in its column `total`, as an integer or as a text that spells one.
The integers are those of 64 bits. -/
inductive ShowsTotal : List Fields → Nat → Prop
  | int {row : Fields} {rest : List Fields} {i : Int64} {n : Nat} :
      row.get? "total" = some (.int i) → i.toInt = n → ShowsTotal (row :: rest) n
  | text {row : Fields} {rest : List Fields} {s : String} {n : Nat} :
      row.get? "total" = some (.text s) → Decimal.SpellsInt s n → n ≤ Int64.maxValue.toInt →
      ShowsTotal (row :: rest) n

namespace Engine

/-- A 64-bit integer in the column of the first row, and not below zero. -/
theorem total?_cons_eq_some_iff {row : Fields} {rest : List Fields} {n : Nat} :
    total? (row :: rest) = some n ↔ ∃ v i, row.get? "total" = some v ∧ v.toInt64? = some i
      ∧ i.toInt = n := by
  have hnatural : ∀ i : Int64, (if i.toInt < 0 then none else some i.toInt.toNat) = some n
      ↔ i.toInt = n := by
    intro i
    by_cases hneg : i.toInt < 0
    · rw [if_pos hneg]
      exact ⟨nofun, fun h => absurd hneg (by omega)⟩
    · rw [if_neg hneg, Option.some.injEq]
      omega
  show ((row.get? "total").bind fun v => v.toInt64?.bind fun i =>
    if i.toInt < 0 then none else some i.toInt.toNat) = some n ↔ _
  simp only [Option.bind_eq_some_iff, hnatural, exists_and_left]

theorem total?_eq_some_iff {counts : List Fields} {n : Nat} :
    total? counts = some n ↔ ShowsTotal counts n := by
  cases counts with
  | nil =>
      constructor
      · intro h
        cases h
      · intro h
        cases h
  | cons row rest =>
      rw [total?_cons_eq_some_iff]
      constructor
      · rintro ⟨v, i, hget, hread, hn⟩
        cases v with
        | int _ =>
            cases hread
            exact .int hget hn
        | text s =>
            have hspells : Decimal.SpellsInt s i.toInt := Decimal.readInt64?_eq_some_iff.mp hread
            exact .text hget (hn ▸ hspells) (hn ▸ Int64.toInt_le i)
        | null | bool _ | float _ | list _ => cases hread
      · intro h
        cases h with
        | @int _ _ i _ hget hn => exact ⟨.int i, i, hget, rfl, hn⟩
        | @text _ _ s _ hget hspells hfits =>
            have hlow : Int64.minValue.toInt ≤ (n : Int) := by
              have hmin : Int64.minValue.toInt ≤ 0 := by decide
              omega
            have hi : (Int64.ofInt n).toInt = n :=
              Decimal.toInt_ofInt_of_fits (Decimal.fitsInt64_iff.mpr ⟨hlow, hfits⟩)
            refine ⟨.text s, Int64.ofInt n, hget, ?_, hi⟩
            exact Decimal.readInt64?_eq_some_iff.mpr (hi.symm ▸ hspells)

end Engine

/-- The set was loaded from the rows that a statement found, and its total is the number in the
answer to the question right behind that statement. -/
def Drawn (db : Engine σ) (loader : Loader ρ) (q : Select) (set : ResultSet ρ)
    (before after : List Exchange) : Prop :=
  ∃ rows counts, after = before ++ [.query (q.build.toSql db.escape) (.ok rows),
      .query "SELECT FOUND_ROWS() AS total;" (.ok counts)]
    ∧ ShowsTotal counts set.total
    ∧ ((ResultSet.forModel loader.model.name).withTotal set.total).addRows loader.load rows
      = .ok set

omit [Entity ρ] in
theorem Engine.totalIn_eq_ok_iff {answer : Except Error (List Fields)} {total : Nat} :
    totalIn answer = .ok total ↔ ∃ counts, answer = .ok counts ∧ total? counts = some total := by
  cases answer with
  | error e => simp [totalIn]
  | ok counts => cases h : total? counts <;> simp [totalIn, h]

omit [Entity ρ] in
/-- Rows and their total come from two calls, one right behind the other. -/
theorem Select.calls_of_execute (hcounter : db.counter = none) {q : Select} {rows : List Fields}
    {total : Nat} {x x' : List Exchange × σ}
    (h : (q.execute db.transcribed).outcome x = (.ok (rows, total), x')) :
    ∃ counts, x'.1 = x.1 ++ [.query (q.build.toSql db.escape) (.ok rows),
        .query Engine.foundRowsSql (.ok counts)] ∧ Engine.total? counts = some total := by
  obtain ⟨result, s, hquery⟩ := (db.query (q.build.toSql db.escape)).exists_outcome x.2
  cases result with
  | error e =>
      rw [outcome_execute_of_error q hquery] at h
      cases (Prod.mk.inj h).1
  | ok rows' =>
      obtain ⟨answer, s', hanswer⟩ := (db.query Engine.foundRowsSql).exists_outcome s
      rw [outcome_execute_of_ok hcounter q hquery hanswer] at h
      obtain ⟨hfound, rfl⟩ := Prod.mk.inj h
      cases htotal : Engine.totalIn answer with
      | error e =>
          rw [htotal] at hfound
          cases hfound
      | ok total' =>
          rw [htotal] at hfound
          obtain ⟨rfl, rfl⟩ := Prod.mk.inj (Except.ok.inj hfound)
          obtain ⟨counts, rfl, hcounts⟩ := Engine.totalIn_eq_ok_iff.mp htotal
          exact ⟨counts, rfl, hcounts⟩

omit [Entity ρ] in
theorem Select.model_eq_some_of_boundModel {q : Select} {bound : Model}
    (h : q.boundModel = .ok bound) : q.model = some bound := by
  unfold boundModel at h
  split at h
  · next m hm =>
      cases h
      exact hm
  · cases h

theorem Select.drawn_of_fetch (hcounter : db.counter = none) {loader : Loader ρ} {q : Select}
    {x x' : List Exchange × σ} {set : ResultSet ρ}
    (h : (q.fetch db.transcribed loader).outcome x = (.ok set, x')) :
    Drawn db loader q set x.1 x'.1 := by
  obtain ⟨⟨rows, total⟩, x₁, hexecute, hload⟩ := outcome_bind_eq_ok_iff.mp h
  rw [outcome_settle] at hload
  obtain ⟨hset, rfl⟩ := Prod.mk.inj hload
  obtain ⟨counts, hlog, hcounts⟩ := calls_of_execute hcounter hexecute
  obtain rfl : set.total = total := ResultSet.total_addRows hset
  exact ⟨rows, counts, hlog, Engine.total?_eq_some_iff.mp hcounts, hset⟩

theorem Select.drawn_of_get (hcounter : db.counter = none) {loader : Loader ρ} {q : Select}
    {x x' : List Exchange × σ} {set : ResultSet ρ}
    (h : (q.get db.transcribed loader).outcome x = (.ok set, x')) :
    Drawn db loader q set x.1 x'.1 := by
  obtain ⟨bound, -, hget⟩ := outcome_settle_bind_eq_ok_iff.mp h
  split at hget
  · exact drawn_of_fetch hcounter hget
  · cases (Prod.mk.inj hget).1

end RecordMapper
