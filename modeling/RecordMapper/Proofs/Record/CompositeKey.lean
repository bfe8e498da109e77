import RecordMapper.Blog.Basic
import RecordMapper.Engine.Scripted
import RecordMapper.Proofs.Record.Creation

/-!
# Creating with a key of several columns

The values of a key of several columns come with the fields, and creating does not look whether
all of them are there. The row is inserted in any case, without the creation time also where that
is part of the key, and what the engine gives back is passed over: the identifier is the list of
the values, with null for the missing ones. So an insertion has a complete key exactly if the
record has one that the creation time is no part of (`RecordType.identified_insertions_iff`).
-/

namespace RecordMapper

open Session

variable {σ ρ : Type}

namespace Descriptor

theorem hasKey_erase_iff {d : Descriptor} {fields : Fields} {name : String} :
    d.HasKey (fields.erase name) ↔ name ∉ d.primaryKey ∧ d.HasKey fields := by
  have hkept : ∀ {column : String}, column ≠ name →
      (fields.erase name).get? column = fields.get? column := by
    intro column hne
    rw [OrderedMap.get?_erase, if_neg hne]
  constructor
  · intro h
    have hname : name ∉ d.primaryKey := by
      intro hmem
      obtain ⟨v, hv, -⟩ := h name hmem
      rw [OrderedMap.get?_erase, if_pos rfl] at hv
      cases hv
    refine ⟨hname, fun column hcolumn => ?_⟩
    rw [← hkept fun heq => hname (heq ▸ hcolumn)]
    exact h column hcolumn
  · rintro ⟨hname, h⟩ column hcolumn
    rw [hkept fun heq => hname (heq ▸ hcolumn)]
    exact h column hcolumn

end Descriptor

namespace RecordType

/-! ## What is inserted, and what it is read back by -/

section Several

variable {t : RecordType ρ} (hseveral : 1 < t.model.primaryKey.length)
include hseveral

theorem insertable_of_several (fields : Fields) :
    t.insertable fields = fields.erase "created_at" := by
  rw [insertable]
  split
  · next hone => simp [hone] at hseveral
  · rfl

/-- The identifier is never null, so that a row just inserted is always looked for. -/
theorem insertedId_of_several (data : Fields) (generated : Value) :
    t.insertedId data generated
      = .list (t.model.primaryKey.map fun column => (data.get? column).getD .null) := by
  rw [insertedId]
  split
  · next hone => simp [hone] at hseveral
  · rfl

end Several

variable [Entity ρ] {t : RecordType ρ} {db : Engine σ}

/-- Reading a row back makes no call but queries. -/
theorem exists_outcome_readBack (t : RecordType ρ) (db : Engine σ) {id : Value}
    (hnull : id.isNull = false) (log : List Exchange) (s : σ) :
    ∃ later result s', (t.readBack db.transcribed id).outcome (log, s) = (result, (log ++ later, s'))
      ∧ ∀ x ∈ later, ∃ sql rows, x = .query sql rows := by
  obtain ⟨later, result, s', hlookup⟩ := exists_lookup t db id s
  have hfind := hlookup.outcome log
  cases result with
  | error e =>
      refine ⟨later, .error e, s', ?_, fun _ => hlookup.asks⟩
      rw [outcome_readBack hnull, outcome_bind_of_error hfind]
  | ok r =>
      obtain ⟨answer, r', hafter⟩ := (t.handle .afterCreate).exists_outcome r
      refine ⟨later, answer.map fun _ => r', s', ?_, fun _ => hlookup.asks⟩
      rw [outcome_readBack hnull, outcome_bind_of_ok hfind]
      exact outcome_announce hafter _

theorem exists_outcome_create {fields : Fields} (hseveral : 1 < t.model.primaryKey.length)
    {record : ρ} (hprepared : t.Prepared fields record) (db : Engine σ) (log : List Exchange)
    (s : σ) :
    ∃ answer later result s', (t.create db.transcribed fields).outcome (log, s)
        = (result, (log ++ .insert t.model.table ((Entity.fields record).erase "created_at")
            answer :: later, s'))
      ∧ ∀ x ∈ later, ∃ sql rows, x = .query sql rows := by
  let data := (Entity.fields record).erase "created_at"
  obtain ⟨answer, s₁, hinsert⟩ := (db.insert t.model.table data).exists_outcome s
  have hcall := Engine.outcome_insert_transcribed hinsert log
  have hcreate := outcome_create hprepared db.transcribed (log, s)
  rw [insertable_of_several hseveral] at hcreate
  cases answer with
  | error e =>
      refine ⟨.error e, [], .error e, s₁, ?_, nofun⟩
      rw [hcreate]
      exact outcome_bind_of_error hcall _
  | ok generated =>
      have hnull : (t.insertedId data generated).isNull = false := by
        rw [insertedId_of_several hseveral]
        rfl
      obtain ⟨later, result, s', hback, hasks⟩ := exists_outcome_readBack t db hnull
        (log ++ [.insert t.model.table data (.ok generated)]) s₁
      refine ⟨.ok generated, later, result, s', ?_, hasks⟩
      rw [hcreate, outcome_bind_of_ok hcall, hback, List.append_assoc, List.singleton_append]

theorem exists_outcome_create_of_not_prepared {fields : Fields}
    (h : ∀ record, ¬ t.Prepared fields record) (db : Engine σ) (x : List Exchange × σ) :
    ∃ e, (t.create db.transcribed fields).outcome x = (.error e, x) := by
  cases hload : t.load fields with
  | error e => exact ⟨e, outcome_create_of_unloadable hload x⟩
  | ok r =>
      obtain ⟨answer, record, hbefore⟩ := (t.handle .beforeCreate).exists_outcome r
      cases answer with
      | error e => exact ⟨e, outcome_create_of_refused hload hbefore x⟩
      | ok _ => exact absurd ⟨r, hload, hbefore⟩ (h record)

/-! ## Rows that can be identified -/

/-- Creating a record of a type whose key has several columns, for all fields, handlers and
engines. If the fields cannot be loaded or the handler refuses the record, this is an error and
there is no call. Otherwise the first call inserts the record's fields without the creation time,
all calls behind it are queries, and there is no other condition.

All that a run inserts has a complete key if and only if the record has one that the creation time
is no part of. -/
theorem identified_insertions_iff (db : Engine σ) (t : RecordType ρ)
    (hseveral : 1 < t.model.primaryKey.length) (fields : Fields) (log : List Exchange) (s : σ) :
    ∃ entries result s',
      (t.create db.transcribed fields).outcome (log, s) = (result, (log ++ entries, s'))
      ∧ ((∀ table data answer, .insert table data answer ∈ entries → t.model.HasKey data)
        ↔ ∀ record, t.Prepared fields record →
          "created_at" ∉ t.model.primaryKey ∧ t.model.HasKey (Entity.fields record))
      ∧ ((∀ record, ¬ t.Prepared fields record) → entries = [] ∧ s' = s ∧ ∃ e, result = .error e)
      ∧ ∀ record, t.Prepared fields record → ∃ answer later,
        entries = .insert t.model.table ((Entity.fields record).erase "created_at") answer :: later
          ∧ ∀ x ∈ later, ∃ sql rows, x = .query sql rows := by
  by_cases hany : ∃ record, t.Prepared fields record
  · obtain ⟨record, hprepared⟩ := hany
    obtain ⟨answer, later, result, s', hrun, hasks⟩ :=
      exists_outcome_create hseveral hprepared db log s
    refine ⟨_, result, s', hrun, ⟨fun h record' hprepared' => ?_, fun h table data given hmem => ?_⟩,
      fun hnone => absurd hprepared (hnone record), fun record' hprepared' => ?_⟩
    · obtain rfl := hprepared.unique hprepared'
      exact Descriptor.hasKey_erase_iff.mp (h _ _ _ List.mem_cons_self)
    · rcases List.mem_cons.mp hmem with heq | hlater
      · obtain ⟨-, rfl, -⟩ := Exchange.insert.inj heq
        exact Descriptor.hasKey_erase_iff.mpr (h record hprepared)
      · obtain ⟨sql, rows, heq⟩ := hasks _ hlater
        cases heq
    · obtain rfl := hprepared.unique hprepared'
      exact ⟨answer, later, rfl, hasks⟩
  · have hnone : ∀ record, ¬ t.Prepared fields record := not_exists.mp hany
    obtain ⟨e, hrun⟩ := exists_outcome_create_of_not_prepared hnone db (log, s)
    refine ⟨[], .error e, s, by rw [hrun, List.append_nil], ?_, fun _ => ⟨rfl, rfl, e, rfl⟩,
      fun record hprepared => absurd hprepared (hnone record)⟩
    exact ⟨fun _ record hprepared => absurd hprepared (hnone record),
      fun _ _ _ _ hmem => nomatch hmem⟩

open Blog

/-- A membership that is created with both columns of its key. -/
theorem identified_insertions_of_membership :
    let t := Kind.membership.recordType
    let fields : Fields := .ofList [("group_id", .int 4), ("user_id", .int 2)]
    1 < t.model.primaryKey.length
      ∧ ∃ entries result s',
        (t.create Script.engine.transcribed fields).outcome ([], {}) = (result, ([] ++ entries, s'))
        ∧ (∃ answer later, entries = .insert "membership" fields answer :: later)
        ∧ ∀ table data answer, .insert table data answer ∈ entries → t.model.HasKey data := by
  intro t fields
  have hseveral : 1 < t.model.primaryKey.length := by decide
  have hprepared : t.Prepared fields ⟨.membership, fields, []⟩ := ⟨_, rfl, rfl⟩
  obtain ⟨entries, result, s', hrun, hidentified, -, hfirst⟩ :=
    identified_insertions_iff Script.engine t hseveral fields [] {}
  refine ⟨hseveral, entries, result, s', hrun, ?_, hidentified.mpr ?_⟩
  · obtain ⟨answer, later, hentries, -⟩ := hfirst _ hprepared
    exact ⟨answer, later, hentries⟩
  · rintro record ⟨r, hload, hbefore⟩
    cases hload
    cases hbefore
    have hkey : t.model.HasKey fields :=
      List.forall_mem_cons.mpr ⟨⟨.int 4, rfl, rfl⟩, List.forall_mem_singleton.mpr ⟨.int 2, rfl, rfl⟩⟩
    exact ⟨by decide, hkey⟩

/-- A membership without its user. The row is in the table before anyone asks for its key, and
then the user is asked for as NULL, which no row has. -/
theorem membership_without_user_inserted :
    let t := Kind.membership.recordType
    let fields : Fields := .ofList [("group_id", .int 4), ("role", .text "r")]
    1 < t.model.primaryKey.length ∧ ¬ t.model.HasKey fields
      ∧ (t.create Script.engine.transcribed fields).outcome ([], {})
        = (.error ⟨.notFound, "Membership with id=[4,null] not found"⟩,
            ([.insert "membership" fields (.ok (.int 1)),
              .query ("SELECT SQL_CALC_FOUND_ROWS `membership`.* FROM `membership` "
                ++ "WHERE (`membership`.`group_id` = '4' AND `membership`.`user_id` = NULL)"
                ++ " LIMIT 0, 1") (.ok []),
              .query "SELECT FOUND_ROWS() AS total;" (.ok [.ofList [("total", .int 0)]])],
            { numbered := 1 })) := by
  intro t fields
  have hseveral : 1 < t.model.primaryKey.length := by decide
  have hkeyless : ¬ t.model.HasKey fields := by
    intro h
    obtain ⟨v, hv, -⟩ := h "user_id" (by decide)
    cases hv
  have hprepared : t.Prepared fields ⟨.membership, fields, []⟩ := ⟨_, rfl, rfl⟩
  have hinsert : (Script.engine.insert t.model.table fields).outcome {}
      = (.ok (.int 1), { numbered := 1 }) := rfl
  let key : Filter.Node := .logical .and (.binary "group_id" "=" (.int 4))
    (.binary "user_id" "=" .null)
  let sql := "SELECT SQL_CALC_FOUND_ROWS `membership`.* FROM `membership` "
    ++ "WHERE (`membership`.`group_id` = '4' AND `membership`.`user_id` = NULL)" ++ " LIMIT 0, 1"
  have hsql : ((Select.chained t.model.toDescriptor []).forKey key).build.toSql
      Script.engine.escape = sql := by
    decide +kernel
  have hrow : OneRow Script.engine t.toLoader
      (((Select.chained t.model.toDescriptor []).forKey key).build.toSql Script.engine.escape)
      { numbered := 1 }
      [.query sql (.ok []), .query Engine.foundRowsSql (.ok [.ofList [("total", .int 0)]])]
      (.ok none) { numbered := 1 } := by
    have hstatement : sql ≠ Engine.foundRowsSql := by decide +kernel
    have hquery := Script.outcome_query_of_no_rules (s := { numbered := 1 }) rfl sql
    have hcount := Script.outcome_query_of_no_rules (s := { numbered := 1 }) rfl Engine.foundRowsSql
    rw [if_neg hstatement] at hquery
    rw [if_pos rfl] at hcount
    rw [hsql]
    exact .read hquery (.asked rfl hcount) rfl
  have hfilter : t.model.keyFilter (.list [.int 4, .null]) = .ok key := rfl
  have hselect : t.select = .ok (Select.chained t.model.toDescriptor []) := rfl
  have hnotEmpty : Value.list [.int 4, .null] ≠ .text "" := nofun
  have hlookup := Lookup.asked rfl hnotEmpty hfilter hselect hrow
  have hdata : t.insertable (Entity.fields (⟨.membership, fields, []⟩ : Record)) = fields :=
    (insertable_of_several hseveral fields).trans (OrderedMap.eq_of_entries rfl)
  have hid : t.insertedId fields (.int 1) = .list [.int 4, .null] :=
    insertedId_of_several hseveral fields _
  refine ⟨hseveral, hkeyless, ?_⟩
  rw [outcome_create hprepared, hdata,
    outcome_bind_of_ok (Engine.outcome_insert_transcribed hinsert []), hid, outcome_readBack rfl,
    outcome_bind_of_error (hlookup.outcome _)]
  have hmissing : Error.noSuchRecord t.model.name (Value.list [.int 4, .null]).key
      = ⟨.notFound, "Membership with id=[4,null] not found"⟩ := by
    decide +kernel
  rw [← hmissing]
  rfl

end RecordType

end RecordMapper
