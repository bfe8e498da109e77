import RecordMapper.Engine.Scripted
import RecordMapper.Proofs.Engine.Transcript
import RecordMapper.Proofs.Items
import RecordMapper.Proofs.Record.Identity

/-!
# Asking for one row

A record is looked up by a statement that asks for one row, and the row count is asked for right
behind it. `OneRow` has a constructor for each way in which this can go, with the calls that are
made, what the engine answers to them, and what comes of it; `Lookup` is put around it, for what
may keep the identifier from being asked for at all. Every run is one of these (`exists_oneRow`,
`OneRow.outcome_get`; `exists_lookup`, `Lookup.outcome`), so what holds of each way holds of the
run. All the rows that the engine answers with are loaded, and the first record is taken only if
all of them are records of the type.
-/

namespace RecordMapper

open Session

variable {σ ρ : Type}

/-! ## Rows as records -/

section Rows

variable [Entity ρ]

/-- The record of a row. One of another type is refused. -/
def Loader.read (loader : Loader ρ) (row : Fields) : Except Error ρ :=
  (loader.load row).bind fun r =>
    if Entity.typeName r = loader.model.name then .ok r
    else .error (.foreignRecord (Entity.typeName r) loader.model.name)

theorem ResultSet.addRows_eq (loader : Loader ρ) (total : Nat) :
    ∀ (rows : List Fields) (items : List ρ),
      (⟨items, total, some loader.model.name⟩ : ResultSet ρ).addRows loader.load rows
        = (rows.mapM loader.read).map fun records =>
          ⟨items ++ records, total, some loader.model.name⟩
  | [], items => by
      rw [addRows, List.mapM_nil]
      show Except.ok _ = Except.ok (⟨items ++ [], total, some loader.model.name⟩ : ResultSet ρ)
      rw [List.append_nil]
  | row :: rest, items => by
      rw [addRows]
      cases hload : loader.load row with
      | error e =>
          have hread : loader.read row = .error e := by rw [Loader.read, hload]; rfl
          rw [mapM_cons_of_error hread]
          rfl
      | ok r =>
          show ((⟨items, total, some loader.model.name⟩ : ResultSet ρ).add r).bind _ = _
          by_cases htype : Entity.typeName r = loader.model.name
          · have hread : loader.read row = .ok r := by
              rw [Loader.read, hload]
              exact if_pos htype
            rw [add]
            simp only [if_pos htype.symm]
            show addRows loader.load _ rest = _
            rw [addRows_eq loader total rest, mapM_cons_of_ok hread]
            cases rest.mapM loader.read with
            | error e => rfl
            | ok records => simp [Except.map]
          · have hread : loader.read row
                = .error (.foreignRecord (Entity.typeName r) loader.model.name) := by
              rw [Loader.read, hload]
              exact if_neg htype
            rw [add, mapM_cons_of_error hread]
            simp only [if_neg fun h => htype (Eq.symm h)]
            rfl

end Rows

/-! ## Scripted answers -/

/-- The empty text occurs in every statement, so the first rule answers them all. -/
theorem Script.outcome_query_of_empty_text {s : Script} {rows : List Fields} {later : List Rule}
    (hrules : s.rules = ⟨"", .ok rows⟩ :: later) (sql : String) :
    (engine.query sql).outcome s
      = (.ok rows, if sql = Engine.foundRowsSql then s else { s with found := rows.length }) := by
  have hoccurs : occursIn "".toList sql.toList = true := by
    cases sql.toList <;> simp [occursIn]
  have hrule : s.ruleFor? sql = some ⟨"", .ok rows⟩ := by
    rw [ruleFor?, hrules]
    exact List.find?_cons_of_pos hoccurs
  show (s.answer sql, s.count sql (s.answer sql)) = _
  rw [answer, hrule]
  rfl

/-- Without rules nothing is found, and a total counts what was found before. -/
theorem Script.outcome_query_of_no_rules {s : Script} (hrules : s.rules = []) (sql : String) :
    (engine.query sql).outcome s
      = if sql = Engine.foundRowsSql then (.ok [.ofList [("total", .int (Int64.ofNat s.found))]], s)
        else (.ok [], { s with found := 0 }) := by
  have hrule : s.ruleFor? sql = none := by
    rw [ruleFor?, hrules]
    rfl
  show (s.answer sql, s.count sql (s.answer sql)) = _
  rw [answer, hrule]
  by_cases h : sql = Engine.foundRowsSql <;> simp [h, count]

/-! ## One row -/

section OneRow

variable [Entity ρ] {db : Engine σ} {loader : Loader ρ}

/-- What asking for one row comes to: the statement fails, or the count behind it, or some row is
no record of the type, or there is the record of the first row, if there is a row. -/
inductive OneRow (db : Engine σ) (loader : Loader ρ) (sql : String) (s : σ) :
    List Exchange → Except Error (Option ρ) → σ → Prop
  | failed {e : Error} {s₁ : σ} (query : (db.query sql).outcome s = (.error e, s₁)) :
      OneRow db loader sql s [.query sql (.error e)] (.error e) s₁
  | uncounted {rows : List Fields} {asked : List Exchange} {e : Error} {s₁ s₂ : σ}
      (query : (db.query sql).outcome s = (.ok rows, s₁))
      (count : db.Tally s₁ asked (.error e) s₂) :
      OneRow db loader sql s (.query sql (.ok rows) :: asked) (.error e) s₂
  | unreadable {rows : List Fields} {asked : List Exchange} {total : Nat} {e : Error} {s₁ s₂ : σ}
      (query : (db.query sql).outcome s = (.ok rows, s₁))
      (count : db.Tally s₁ asked (.ok total) s₂) (read : rows.mapM loader.read = .error e) :
      OneRow db loader sql s (.query sql (.ok rows) :: asked) (.error e) s₂
  | read {rows : List Fields} {asked : List Exchange} {total : Nat} {records : List ρ} {s₁ s₂ : σ}
      (query : (db.query sql).outcome s = (.ok rows, s₁))
      (count : db.Tally s₁ asked (.ok total) s₂) (read : rows.mapM loader.read = .ok records) :
      OneRow db loader sql s (.query sql (.ok rows) :: asked) (.ok records.head?) s₂

theorem exists_oneRow (db : Engine σ) (loader : Loader ρ) (sql : String) (s : σ) :
    ∃ entries result s', OneRow db loader sql s entries result s' := by
  obtain ⟨answer, s₁, hquery⟩ := (db.query sql).exists_outcome s
  cases answer with
  | error e => exact ⟨_, _, _, .failed hquery⟩
  | ok rows =>
      obtain ⟨asked, answer, s₂, hcount⟩ := db.exists_tally s₁
      cases answer with
      | error e => exact ⟨_, _, _, .uncounted hquery hcount⟩
      | ok total =>
          cases hread : rows.mapM loader.read with
          | error e => exact ⟨_, _, _, .unreadable hquery hcount hread⟩
          | ok records => exact ⟨_, _, _, .read hquery hcount hread⟩

theorem OneRow.asks {sql : String} {s s' : σ} {entries : List Exchange}
    {result : Except Error (Option ρ)} (h : OneRow db loader sql s entries result s')
    {x : Exchange} (hx : x ∈ entries) : ∃ sql rows, x = .query sql rows := by
  have hstatement : ∀ {rows : List Fields} {asked : List Exchange} {answer : Except Error Nat}
      {s₁ s₂ : σ}, db.Tally s₁ asked answer s₂ → x ∈ Exchange.query sql (.ok rows) :: asked →
        ∃ sql rows, x = .query sql rows := by
    intro rows asked answer s₁ s₂ hcount hmem
    rcases List.mem_cons.mp hmem with rfl | hmem
    · exact ⟨_, _, rfl⟩
    · exact hcount.asks hmem
  cases h with
  | failed => exact ⟨_, _, List.mem_singleton.mp hx⟩
  | uncounted _ hcount => exact hstatement hcount hx
  | unreadable _ hcount _ => exact hstatement hcount hx
  | read _ hcount _ => exact hstatement hcount hx

/-- The rows found are records, and counted. -/
theorem Select.outcome_fetch_of_tally (q : Select) {rows : List Fields} {asked : List Exchange}
    {answer : Except Error Nat} {s s₁ s₂ : σ}
    (hquery : (db.query (q.build.toSql db.escape)).outcome s = (.ok rows, s₁))
    (hcount : db.Tally s₁ asked answer s₂) (log : List Exchange) :
    (q.fetch db.transcribed loader).outcome (log, s)
      = (answer.bind fun total => (rows.mapM loader.read).map fun records =>
          ⟨records, total, some loader.model.name⟩,
        (log ++ .query (q.build.toSql db.escape) (.ok rows) :: asked, s₂)) := by
  rw [fetch, outcome_bind, q.outcome_execute_of_tally hquery hcount]
  cases answer with
  | error e => rfl
  | ok total =>
      show (settle (ResultSet.addRows loader.load ⟨[], total, some loader.model.name⟩ rows)
        : Session _ _).outcome _ = _
      rw [outcome_settle, ResultSet.addRows_eq]
      rfl

/-- A query that is bound to the loader's type, with the first of its records. -/
theorem OneRow.outcome_get {q : Select} (hbound : q.model = some loader.model) {s s' : σ}
    {entries : List Exchange} {result : Except Error (Option ρ)}
    (h : OneRow db loader (q.build.toSql db.escape) s entries result s') (log : List Exchange) :
    (q.get db.transcribed loader >>= fun found => pure found.first?).outcome (log, s)
      = (result, (log ++ entries, s')) := by
  rw [Select.get_eq_fetch hbound, outcome_bind]
  cases h with
  | failed hquery =>
      have hexecute := Select.outcome_execute_of_error q (x := (log, s)) hquery
      rw [Select.fetch, outcome_bind_of_error hexecute]
  | uncounted hquery hcount =>
      rw [q.outcome_fetch_of_tally hquery hcount]
      rfl
  | unreadable hquery hcount hread =>
      rw [q.outcome_fetch_of_tally hquery hcount, hread]
      rfl
  | read hquery hcount hread =>
      rw [q.outcome_fetch_of_tally hquery hcount, hread]
      rfl

end OneRow

/-! ## Finding a record -/

section Lookup

variable [Entity ρ] {t : RecordType ρ} {db : Engine σ} {id : Value}

/-- What finding a record comes to: the identifier names nothing, or there is nothing to ask, or
one row is asked for. -/
inductive Lookup (t : RecordType ρ) (db : Engine σ) (id : Value) (s : σ) :
    List Exchange → Except Error ρ → σ → Prop
  | nameless (names : id.isNull = true ∨ id = .text "") :
      Lookup t db id s [] (.error (.noSuchRecord t.model.name id.key)) s
  | mismatched {e : Error} (notNull : id.isNull = false) (notEmpty : id ≠ .text "")
      (filter : t.model.keyFilter id = .error e) :
      Lookup t db id s [] (.error e) s
  | unbuilt {key : Filter.Node} {e : Error} (notNull : id.isNull = false)
      (notEmpty : id ≠ .text "") (filter : t.model.keyFilter id = .ok key)
      (select : t.select = .error e) :
      Lookup t db id s [] (.error e) s
  | asked {key : Filter.Node} {q : Select} {entries : List Exchange}
      {result : Except Error (Option ρ)} {s' : σ} (notNull : id.isNull = false)
      (notEmpty : id ≠ .text "") (filter : t.model.keyFilter id = .ok key) (select : t.select = .ok q)
      (row : OneRow db t.toLoader ((q.forKey key).build.toSql db.escape) s entries result s') :
      Lookup t db id s entries
        (result.bind fun found => found.elim (.error (.noSuchRecord t.model.name id.key)) .ok) s'

theorem exists_lookup (t : RecordType ρ) (db : Engine σ) (id : Value) (s : σ) :
    ∃ entries result s', Lookup t db id s entries result s' := by
  by_cases hnameless : id.isNull = true ∨ id = .text ""
  · exact ⟨_, _, _, .nameless hnameless⟩
  obtain ⟨hnull, htext⟩ := not_or.mp hnameless
  rw [Bool.not_eq_true] at hnull
  cases hkey : t.model.keyFilter id with
  | error e => exact ⟨_, _, _, .mismatched hnull htext hkey⟩
  | ok key =>
      cases hselect : t.select with
      | error e => exact ⟨_, _, _, .unbuilt hnull htext hkey hselect⟩
      | ok q =>
          obtain ⟨entries, result, s', hrow⟩ :=
            exists_oneRow db t.toLoader ((q.forKey key).build.toSql db.escape) s
          exact ⟨_, _, _, .asked hnull htext hkey hselect hrow⟩

theorem Lookup.outcome {s s' : σ} {entries : List Exchange} {result : Except Error ρ}
    (h : Lookup t db id s entries result s') (log : List Exchange) :
    (t.find db.transcribed id).outcome (log, s) = (result, (log ++ entries, s')) := by
  cases h with
  | nameless hnameless =>
      unfold RecordType.find
      dsimp only
      rw [if_pos (RecordType.nameless_iff.mpr hnameless), List.append_nil]
      rfl
  | mismatched hnull htext hkey =>
      have hgiven : ¬ (id.isNull || id.asText? == some "") = true := by
        rw [RecordType.nameless_iff]
        simp [hnull, htext]
      unfold RecordType.find
      dsimp only
      rw [if_neg hgiven, hkey, List.append_nil]
      rfl
  | unbuilt hnull htext hkey hselect =>
      rw [RecordType.outcome_find hnull htext hkey, hselect, List.append_nil]
      rfl
  | @asked key q _ found _ hnull htext hkey hselect hrow =>
      have hfirst : ((q.andWhere (some key)).first db.transcribed t.toLoader).outcome (log, s)
          = (found, (log ++ entries, s')) :=
        hrow.outcome_get (RecordType.model_forKey hselect key) log
      rw [RecordType.outcome_find hnull htext hkey, hselect, outcome_bind, outcome_settle]
      dsimp only
      rw [outcome_bind, hfirst]
      rcases found with e | r
      · rfl
      · cases r <;> rfl

/-- Finding makes no call but queries. -/
theorem Lookup.asks {s s' : σ} {entries : List Exchange} {result : Except Error ρ}
    (h : Lookup t db id s entries result s') {x : Exchange} (hx : x ∈ entries) :
    ∃ sql rows, x = .query sql rows := by
  cases h with
  | nameless | mismatched | unbuilt => cases hx
  | asked _ _ _ _ hrow => exact hrow.asks hx

end Lookup

end RecordMapper
