import RecordMapper.Blog.Basic
import RecordMapper.Engine.Scripted
import RecordMapper.Proofs.Record.Lookup

/-!
# Creating a record

Creating is a row of steps, and each of them may fail: the fields are loaded and announced, the
row is inserted, and the record is read back by its identifier and announced again. `Creation` has
a constructor for each step at which this can end, with the calls that were made until then and
what the engine answered, and `ReadBack` does the same for what comes behind the insertion. For a
type whose key has one column, every run is one of these and no other
(`RecordType.outcome_create_iff`).
-/

namespace RecordMapper

open Session

variable {σ ρ : Type}

/-! ## Step by step -/

/-- An insertion is written down behind what was there. -/
theorem Engine.outcome_insert_transcribed {db : Engine σ} {table : String} {data : Fields}
    {answer : Except Error Value} {s s' : σ} (h : (db.insert table data).outcome s = (answer, s'))
    (log : List Exchange) :
    (db.transcribed.insert table data).outcome (log, s)
      = (answer, (log ++ [.insert table data answer], s')) :=
  outcome_transcribing (.insert table data) h log

namespace RecordType

variable [Entity ρ] {t : RecordType ρ} {db : Engine σ}

/-- The fields are loaded as a record, and the event in front of its creation leaves `record`. -/
def Prepared (t : RecordType ρ) (fields : Fields) (record : ρ) : Prop :=
  ∃ r, t.load fields = .ok r ∧ (t.handle .beforeCreate).outcome r = (.ok (), record)

omit [Entity ρ] in
theorem Prepared.unique {fields : Fields} {record record' : ρ} (h : t.Prepared fields record)
    (h' : t.Prepared fields record') : record' = record := by
  obtain ⟨r, hload, hbefore⟩ := h
  obtain ⟨r', hload', hbefore'⟩ := h'
  obtain rfl := Except.ok.inj (hload'.symm.trans hload)
  exact (Prod.mk.inj (hbefore'.symm.trans hbefore)).2

/-- Reads a row back by the identifier that it was inserted with. -/
def readBack (t : RecordType ρ) (db : Engine σ) (id : Value) : Session σ ρ := do
  if id.isNull then throw (.noIdentifier t.model.name)
  let created ← t.find db id
  t.announce .afterCreate created

omit [Entity ρ] in
theorem outcome_announce {e : Event} {r r' : ρ} {answer : Except Error Unit}
    (h : (t.handle e).outcome r = (answer, r')) (s : σ) :
    (t.announce e r).outcome s = (answer.map fun _ => r', s) := by
  rw [announce, h]
  exact outcome_settle _ s

theorem outcome_readBack_of_null {id : Value} (hnull : id.isNull = true) (s : σ) :
    (t.readBack db id).outcome s = (.error (.noIdentifier t.model.name), s) := by
  unfold readBack
  rw [if_pos hnull]
  rfl

theorem outcome_readBack {id : Value} (hnull : id.isNull = false) (s : σ) :
    (t.readBack db id).outcome s
      = (t.find db id >>= fun created => t.announce .afterCreate created).outcome s := by
  have hgiven : ¬ id.isNull = true := by simp [hnull]
  unfold readBack
  rw [if_neg hgiven]

variable {fields : Fields}

theorem outcome_create_of_unloadable {e : Error} (hload : t.load fields = .error e) (s : σ) :
    (t.create db fields).outcome s = (.error e, s) := by
  rw [create, hload]
  rfl

theorem outcome_create_of_refused {r r' : ρ} {e : Error} (hload : t.load fields = .ok r)
    (hbefore : (t.handle .beforeCreate).outcome r = (.error e, r')) (s : σ) :
    (t.create db fields).outcome s = (.error e, s) := by
  rw [create, hload]
  exact outcome_bind_of_error (outcome_announce hbefore s) _

/-- Loaded and announced, the record is inserted and read back. -/
theorem outcome_create {record : ρ} (h : t.Prepared fields record) (db : Engine σ) (s : σ) :
    let data := t.insertable (Entity.fields record)
    (t.create db fields).outcome s = (db.insert t.model.table data >>= fun generated =>
      t.readBack db (t.insertedId data generated)).outcome s := by
  obtain ⟨r, hload, hbefore⟩ := h
  rw [create, hload]
  exact outcome_bind_of_ok (outcome_announce hbefore s) _

end RecordType

/-! ## Keys of one column -/

namespace RecordType

variable {t : RecordType ρ} {column : String}

theorem entries_insertable (hkey : t.model.primaryKey = [column]) (fields : Fields) :
    (t.insertable fields).entries
      = fields.entries.filter fun e => decide (e.1 ≠ "created_at" ∧ e.1 ≠ column) := by
  rw [insertable, hkey]
  show (fields.entries.filter fun e => e.1 != "created_at").filter (fun e => e.1 != column) = _
  rw [List.filter_filter]
  refine List.filter_congr fun e _ => ?_
  by_cases hcreated : e.1 = "created_at" <;> by_cases hcolumn : e.1 = column <;>
    simp [hcreated, hcolumn]

theorem insertedId_eq (hkey : t.model.primaryKey = [column]) (data : Fields) (generated : Value) :
    t.insertedId data generated = generated := by
  rw [insertedId, hkey]

theorem keyFilter_eq (hvalid : t.model.toDescriptor.Valid) (hkey : t.model.primaryKey = [column])
    (id : Value) : t.model.keyFilter id = .ok (.binary column "=" id) := by
  have hok : t.model.validate = .ok () := by rw [Descriptor.validate_eq, if_pos hvalid]
  unfold Descriptor.keyFilter
  rw [hok, hkey]
  rfl

end RecordType

/-- The statement for the one row that has the value in the column. -/
def Select.rowStatement (q : Select) (column : String) (id : Value) : Statement :=
  ⟨Query.headText q ++ " WHERE " ++ Query.quote (Filter.qualifyName q.table column)
    ++ " = :value1 LIMIT 0, 1", .ofList [("value1", id)]⟩

theorem Query.condition_equal (field : String) (id : Value) :
    condition 1 (.binary field "=" id) = quote field ++ " = :value1" := by
  have htext : " " ++ ("=" ++ (" :" ++ placeholder 1)) = " = :value1" := by decide
  rw [← htext, Filter.Node.binary, condition]
  simp only [String.append_assoc]

theorem RecordType.build_forKey {t : RecordType ρ} {q : Select} (hselect : t.select = .ok q)
    (column : String) (id : Value) :
    (q.forKey (.binary column "=" id)).build = q.rowStatement column id := by
  have htable := table_select hselect
  have horders := orders_select hselect
  have hroot : (q.forKey (.binary column "=" id)).filter.root
      = some (.binary (Filter.qualifyName q.table column) "=" id) := by
    rw [root_forKey hselect, htable]
    rfl
  have hend : " = :value1" ++ " LIMIT 0, 1" = " = :value1 LIMIT 0, 1" := by decide
  have hhead : Query.headText (q.forKey (.binary column "=" id)) = Query.headText q := rfl
  have hvalues : Query.numbered 1 (Query.operands (.binary (Filter.qualifyName q.table column)
      "=" id)) = [("value1", id)] := by
    rfl
  rw [Select.build, hroot]
  simp only
  rw [Query.condition_equal, Query.tailText_forKey horders, hhead, hvalues, Select.rowStatement,
    ← hend]
  simp only [String.append_assoc]

theorem Query.inlinedCondition_equal (escape : Value → String) (field : String) (id : Value) :
    inlinedCondition escape (.binary field "=" id)
      = quote field ++ " = " ++ literal escape id := by
  have htext : " " ++ ("=" ++ (" " ++ literal escape id)) = " = " ++ literal escape id := by
    have hword : " " ++ "=" ++ " " = " = " := by decide
    rw [← hword]
    simp only [String.append_assoc]
  rw [String.append_assoc, ← htext, Filter.Node.binary, inlinedCondition]
  simp only [String.append_assoc]

/-- The text compares the key column with the value, unless a name in it looks like the
placeholder. -/
theorem RecordType.toSql_rowStatement_iff {t : RecordType ρ} {q : Select}
    (hselect : t.select = .ok q) (escape : Value → String) (column : String) (id : Value) :
    (q.rowStatement column id).toSql escape
        = Query.headText q ++ " WHERE " ++ Query.quote (Filter.qualifyName q.table column)
          ++ " = " ++ Query.literal escape id ++ " LIMIT 0, 1"
      ↔ ∀ name ∈ Query.headNames q ++ [Filter.qualifyName q.table column],
        ¬ Query.Mentions (Query.IsPlaceholder 1) name.toList := by
  let qualified := Filter.qualifyName q.table column
  have horders := orders_select hselect
  have hroot : (q.forKey (.binary column "=" id)).filter.root
      = some (.binary qualified "=" id) := by
    rw [root_forKey hselect, ← table_select hselect]
    rfl
  have htext := Query.toSql_forKey_iff horders hroot (.binary qualified id) escape
  rw [Query.shownNames_forKey horders hroot, Query.inlinedCondition_equal,
    build_forKey hselect] at htext
  simp only [String.append_assoc] at htext ⊢
  exact htext

/-! ## Protocol -/

section Protocol

variable [Entity ρ] {t : RecordType ρ} {db : Engine σ} {column : String}

/-- What comes of the identifier that a row was inserted with. A row that is there and can be read
is announced, and the handler has the last word. -/
inductive ReadBack (t : RecordType ρ) (db : Engine σ) (column : String) (id : Value) (s : σ) :
    List Exchange → Except Error ρ → σ → Prop
  | unidentified (null : id.isNull = true) :
      ReadBack t db column id s [] (.error (.noIdentifier t.model.name)) s
  | empty (text : id = .text "") :
      ReadBack t db column id s [] (.error (.noSuchRecord t.model.name "")) s
  | unbuilt {e : Error} (notNull : id.isNull = false) (notEmpty : id ≠ .text "")
      (select : t.select = .error e) :
      ReadBack t db column id s [] (.error e) s
  | failed {q : Select} {entries : List Exchange} {e : Error} {s' : σ} (notNull : id.isNull = false)
      (notEmpty : id ≠ .text "") (select : t.select = .ok q)
      (row : OneRow db t.toLoader ((q.rowStatement column id).toSql db.escape) s entries
        (.error e) s') :
      ReadBack t db column id s entries (.error e) s'
  | missing {q : Select} {entries : List Exchange} {s' : σ} (notNull : id.isNull = false)
      (notEmpty : id ≠ .text "") (select : t.select = .ok q)
      (row : OneRow db t.toLoader ((q.rowStatement column id).toSql db.escape) s entries
        (.ok none) s') :
      ReadBack t db column id s entries (.error (.noSuchRecord t.model.name id.key)) s'
  | stored {q : Select} {entries : List Exchange} {r r' : ρ} {answer : Except Error Unit} {s' : σ}
      (notNull : id.isNull = false) (notEmpty : id ≠ .text "") (select : t.select = .ok q)
      (row : OneRow db t.toLoader ((q.rowStatement column id).toSql db.escape) s entries
        (.ok (some r)) s')
      (after : (t.handle .afterCreate).outcome r = (answer, r')) :
      ReadBack t db column id s entries (answer.map fun _ => r') s'

/-- What creating a record comes to. The data handed to the engine are the fields of the record as
the handler left it, in their order, without its creation time and its key. -/
inductive Creation (t : RecordType ρ) (db : Engine σ) (column : String) (fields : Fields) (s : σ) :
    List Exchange → Except Error ρ → σ → Prop
  | unloadable {e : Error} (load : t.load fields = .error e) :
      Creation t db column fields s [] (.error e) s
  | refused {r r' : ρ} {e : Error} (load : t.load fields = .ok r)
      (before : (t.handle .beforeCreate).outcome r = (.error e, r')) :
      Creation t db column fields s [] (.error e) s
  | rejected {record : ρ} {data : Fields} {e : Error} {s' : σ}
      (prepared : t.Prepared fields record)
      (data_eq : data.entries = (Entity.fields record).entries.filter fun field =>
        decide (field.1 ≠ "created_at" ∧ field.1 ≠ column))
      (insert : (db.insert t.model.table data).outcome s = (.error e, s')) :
      Creation t db column fields s [.insert t.model.table data (.error e)] (.error e) s'
  | inserted {record : ρ} {data : Fields} {id : Value} {later : List Exchange}
      {result : Except Error ρ} {s₁ s' : σ} (prepared : t.Prepared fields record)
      (data_eq : data.entries = (Entity.fields record).entries.filter fun field =>
        decide (field.1 ≠ "created_at" ∧ field.1 ≠ column))
      (insert : (db.insert t.model.table data).outcome s = (.ok id, s₁))
      (back : ReadBack t db column id s₁ later result s') :
      Creation t db column fields s (.insert t.model.table data (.ok id) :: later) result s'

theorem exists_readBack (t : RecordType ρ) (db : Engine σ) (column : String) (id : Value) (s : σ) :
    ∃ entries result s', ReadBack t db column id s entries result s' := by
  by_cases hnull : id.isNull = true
  · exact ⟨_, _, _, .unidentified hnull⟩
  rw [Bool.not_eq_true] at hnull
  by_cases htext : id = .text ""
  · exact ⟨_, _, _, .empty htext⟩
  cases hselect : t.select with
  | error e => exact ⟨_, _, _, .unbuilt hnull htext hselect⟩
  | ok q =>
      obtain ⟨entries, result, s', hrow⟩ :=
        exists_oneRow db t.toLoader ((q.rowStatement column id).toSql db.escape) s
      rcases result with e | _ | r
      · exact ⟨_, _, _, .failed hnull htext hselect hrow⟩
      · exact ⟨_, _, _, .missing hnull htext hselect hrow⟩
      · exact ⟨_, _, _, .stored hnull htext hselect hrow rfl⟩

theorem ReadBack.outcome (hvalid : t.model.toDescriptor.Valid)
    (hkey : t.model.primaryKey = [column]) {id : Value} {s s' : σ} {entries : List Exchange}
    {result : Except Error ρ} (h : ReadBack t db column id s entries result s')
    (log : List Exchange) :
    (t.readBack db.transcribed id).outcome (log, s) = (result, (log ++ entries, s')) := by
  have hfilter := RecordType.keyFilter_eq hvalid hkey id
  -- the identifier is looked up by the statement for its row
  have hfind : ∀ {q : Select} {found : Except Error (Option ρ)}, id.isNull = false →
      id ≠ .text "" → t.select = .ok q →
      OneRow db t.toLoader ((q.rowStatement column id).toSql db.escape) s entries found s' →
      (t.find db.transcribed id).outcome (log, s)
        = (found.bind fun r => r.elim (.error (.noSuchRecord t.model.name id.key)) .ok,
            (log ++ entries, s')) := by
    intro q found hnull htext hselect hrow
    rw [← RecordType.build_forKey hselect] at hrow
    exact (Lookup.asked hnull htext hfilter hselect hrow).outcome log
  cases h with
  | unidentified hnull => rw [RecordType.outcome_readBack_of_null hnull, List.append_nil]
  | empty htext =>
      subst htext
      have hlookup : Lookup t db (.text "") s [] _ s := .nameless (.inr rfl)
      rw [RecordType.outcome_readBack rfl, outcome_bind_of_error (hlookup.outcome log)]
      rfl
  | unbuilt hnull htext hselect =>
      have hlookup : Lookup t db id s [] _ s := .unbuilt hnull htext hfilter hselect
      rw [RecordType.outcome_readBack hnull, outcome_bind_of_error (hlookup.outcome log)]
  | failed hnull htext hselect hrow =>
      have hfound := hfind hnull htext hselect hrow
      rw [RecordType.outcome_readBack hnull, outcome_bind_of_error hfound]
  | missing hnull htext hselect hrow =>
      have hfound := hfind hnull htext hselect hrow
      rw [RecordType.outcome_readBack hnull, outcome_bind_of_error hfound]
  | stored hnull htext hselect hrow hafter =>
      have hfound := hfind hnull htext hselect hrow
      rw [RecordType.outcome_readBack hnull, outcome_bind_of_ok hfound]
      exact RecordType.outcome_announce hafter _

theorem exists_creation (hkey : t.model.primaryKey = [column]) (db : Engine σ) (fields : Fields)
    (s : σ) : ∃ entries result s', Creation t db column fields s entries result s' := by
  cases hload : t.load fields with
  | error e => exact ⟨_, _, _, .unloadable hload⟩
  | ok r =>
      obtain ⟨answer, record, hbefore⟩ := (t.handle .beforeCreate).exists_outcome r
      cases answer with
      | error e => exact ⟨_, _, _, .refused hload hbefore⟩
      | ok _ =>
          have hprepared : t.Prepared fields record := ⟨r, hload, hbefore⟩
          have hdata := RecordType.entries_insertable hkey (Entity.fields record)
          obtain ⟨given, s₁, hinsert⟩ := (db.insert t.model.table
            (t.insertable (Entity.fields record))).exists_outcome s
          cases given with
          | error e => exact ⟨_, _, _, .rejected hprepared hdata hinsert⟩
          | ok id =>
              obtain ⟨later, result, s', hback⟩ := exists_readBack t db column id s₁
              exact ⟨_, _, _, .inserted hprepared hdata hinsert hback⟩

theorem Creation.outcome (hvalid : t.model.toDescriptor.Valid)
    (hkey : t.model.primaryKey = [column]) {fields : Fields} {s s' : σ} {entries : List Exchange}
    {result : Except Error ρ} (h : Creation t db column fields s entries result s')
    (log : List Exchange) :
    (t.create db.transcribed fields).outcome (log, s) = (result, (log ++ entries, s')) := by
  -- the data are those of the insertion, since a map is its entries
  have hdata : ∀ {record : ρ} {data : Fields},
      data.entries = (Entity.fields record).entries.filter
        (fun field => decide (field.1 ≠ "created_at" ∧ field.1 ≠ column)) →
      t.insertable (Entity.fields record) = data := by
    intro record data h
    exact OrderedMap.eq_of_entries ((RecordType.entries_insertable hkey _).trans h.symm)
  cases h with
  | unloadable hload => rw [RecordType.outcome_create_of_unloadable hload, List.append_nil]
  | refused hload hbefore =>
      rw [RecordType.outcome_create_of_refused hload hbefore, List.append_nil]
  | rejected hprepared hentries hinsert =>
      rw [RecordType.outcome_create hprepared, hdata hentries]
      exact outcome_bind_of_error (Engine.outcome_insert_transcribed hinsert log) _
  | inserted hprepared hentries hinsert hback =>
      have hinsert := Engine.outcome_insert_transcribed hinsert log
      rw [RecordType.outcome_create hprepared, hdata hentries, outcome_bind_of_ok hinsert,
        RecordType.insertedId_eq hkey, hback.outcome hvalid hkey, List.append_assoc,
        List.singleton_append]

/-- Creating a record of a type with a table and a key of one column, for all fields, handlers
and engines, which may fail at every call: each run only adds to the transcript, and its calls,
answers and result are those of one way in which a creation can go. The text of the statement that
reads the row back compares the key column with the identifier, unless a name in it looks like the
placeholder. -/
theorem RecordType.outcome_create_iff (db : Engine σ) (t : RecordType ρ)
    (hvalid : t.model.toDescriptor.Valid) (hkey : t.model.primaryKey = [column])
    (fields : Fields) (log : List Exchange) (s : σ) :
    (∃ entries result s',
        (t.create db.transcribed fields).outcome (log, s) = (result, (log ++ entries, s')))
      ∧ (∀ entries result s',
        (t.create db.transcribed fields).outcome (log, s) = (result, (log ++ entries, s'))
          ↔ Creation t db column fields s entries result s')
      ∧ ∀ q id, t.select = .ok q →
        ((q.rowStatement column id).toSql db.escape
            = Query.headText q ++ " WHERE " ++ Query.quote (Filter.qualifyName q.table column)
              ++ " = " ++ Query.literal db.escape id ++ " LIMIT 0, 1"
          ↔ ∀ name ∈ Query.headNames q ++ [Filter.qualifyName q.table column],
            ¬ Query.Mentions (Query.IsPlaceholder 1) name.toList) := by
  obtain ⟨entries, result, s', hcreation⟩ := exists_creation hkey db fields s
  have hrun := hcreation.outcome hvalid hkey log
  refine ⟨⟨entries, result, s', hrun⟩, fun entries' result' s'' => ⟨fun h => ?_, fun h => ?_⟩,
    fun q id hselect => RecordType.toSql_rowStatement_iff hselect db.escape column id⟩
  · obtain ⟨rfl, hafter⟩ := Prod.mk.inj (hrun.symm.trans h)
    obtain ⟨hlog, rfl⟩ := Prod.mk.inj hafter
    obtain rfl := List.append_cancel_left hlog
    exact hcreation
  · exact h.outcome hvalid hkey log

open Blog

/-- A note, created without the creation time and the key that were given for it. The script
answers to every query with the same row, which gives a total, too. -/
theorem RecordType.outcome_create_of_note :
    let t := Kind.note.recordType
    let fields : Fields := .ofList
      [("note_id", .int 9), ("created_at", .text "today"), ("body", .text "Hello")]
    let row : Fields := .ofList [("note_id", .int 7), ("body", .text "Hello"), ("total", .int 1)]
    let script : Script := { rules := [⟨"", .ok [row]⟩], ids := [.int 7] }
    t.model.toDescriptor.Valid ∧ t.model.primaryKey = ["note_id"]
      ∧ (t.create Script.engine.transcribed fields).outcome ([], script)
        = (.ok ⟨.note, row, ["after_create"]⟩,
            ([.insert "note" (.ofList [("body", .text "Hello")]) (.ok (.int 7)),
              .query ("SELECT SQL_CALC_FOUND_ROWS `note`.* FROM `note` "
                ++ "WHERE `note`.`note_id` = '7' LIMIT 0, 1") (.ok [row]),
              .query "SELECT FOUND_ROWS() AS total;" (.ok [row])],
            { script with ids := [], found := 1 })) := by
  intro t fields row script
  have hvalid : t.model.toDescriptor.Valid := by decide
  have hkey : t.model.primaryKey = ["note_id"] := rfl
  obtain ⟨-, hruns, hwritten⟩ :=
    RecordType.outcome_create_iff Script.engine t hvalid hkey fields [] script
  refine ⟨hvalid, hkey, (hruns _ _ _).mpr ?_⟩
  have hprepared : t.Prepared fields ⟨.note, fields, ["before_create"]⟩ :=
    ⟨⟨.note, fields, []⟩, rfl, rfl⟩
  have hafter : (t.handle .afterCreate).outcome ⟨.note, row, []⟩
      = (.ok (), ⟨.note, row, ["after_create"]⟩) := rfl
  let sql := "SELECT SQL_CALC_FOUND_ROWS `note`.* FROM `note` "
    ++ "WHERE `note`.`note_id` = '7' LIMIT 0, 1"
  let q := Select.chained t.model.toDescriptor []
  have hselect : t.select = .ok q := rfl
  have hsql : (q.rowStatement "note_id" (.int 7)).toSql Script.engine.escape = sql := by
    have hnames : ∀ name ∈ Query.headNames q ++ [Filter.qualifyName q.table "note_id"],
        (!name.toList.contains ':') = true := List.all_eq_true.mp (by decide +kernel)
    rw [(hwritten q (.int 7) hselect).mpr fun name hname =>
      Query.not_mentions_of_no_colon (by simpa using hnames name hname)]
    decide +kernel
  have hanswer := fun (s : Script) (hrules : s.rules = script.rules) (sql : String) =>
    Script.outcome_query_of_empty_text hrules sql
  have hquery : (Script.engine.query sql).outcome { script with ids := [] }
      = (.ok [row], { script with ids := [], found := 1 }) := by
    have hstatement : sql ≠ Engine.foundRowsSql := by decide +kernel
    rw [hanswer { script with ids := [] } rfl sql, if_neg hstatement]
    rfl
  have hcount : Script.engine.Tally { script with ids := [], found := 1 }
      [.query Engine.foundRowsSql (.ok [row])] (.ok 1) { script with ids := [], found := 1 } := by
    refine .asked rfl ?_
    rw [hanswer { script with ids := [], found := 1 } rfl, if_pos rfl]
  have hread : [row].mapM t.toLoader.read = .ok [⟨.note, row, []⟩] := rfl
  have hback : ReadBack t Script.engine "note_id" (.int 7) { script with ids := [] }
      [.query sql (.ok [row]), .query Engine.foundRowsSql (.ok [row])]
      (.ok ⟨.note, row, ["after_create"]⟩) { script with ids := [], found := 1 } := by
    have hnotEmpty : Value.int 7 ≠ .text "" := nofun
    refine .stored rfl hnotEmpty hselect ?_ hafter
    rw [hsql]
    exact .read hquery hcount hread
  exact .inserted hprepared rfl rfl hback

end Protocol

end RecordMapper
