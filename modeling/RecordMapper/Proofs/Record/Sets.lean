import Mathlib.Algebra.Ring.Nat
import RecordMapper.Blog.Basic
import RecordMapper.Engine.Scripted
import RecordMapper.Proofs.Engine.Transcript
import RecordMapper.Proofs.Record.Identity

/-!
# Whole sets

Saving or deleting a set goes from record to record and stops at the first that fails. A `Change`
says what one record comes to by itself: it fails before the engine is called, or it makes one
call. What a set comes to is put together from that (`Change.InTurn`): some records at the
beginning, each with its own call that succeeded, and then either no record is left or the next one
failed. That a set is changed in this way goes by induction on its records (`exists_inTurn`), and
only what one record does has to be looked at for saving and deleting on their own.
-/

namespace RecordMapper

open Session

variable {σ ρ : Type}

/-! ## Changing one record -/

/-- How the change of a record goes by itself: it fails before the engine is called, or it makes
one call, and the answer to it is that of the change. -/
structure Change (ρ : Type) where
  fails : ρ → Error → Prop
  asks : ρ → Except Error UInt64 → Exchange → Prop

namespace Change

/-- Each record made its own call, in order, and all of them succeeded. -/
inductive Answered (c : Change ρ) : List ρ → List UInt64 → List Exchange → Prop
  | nil : Answered c [] [] []
  | cons {r : ρ} {rest : List ρ} {n : UInt64} {counts : List UInt64} {x : Exchange}
      {entries : List Exchange} (asks : c.asks r (.ok n) x)
      (answered : Answered c rest counts entries) :
      Answered c (r :: rest) (n :: counts) (x :: entries)

/-- The records are changed in order, up to the first that fails, if there is one. -/
inductive InTurn (c : Change ρ) : List ρ → List Exchange → Except Error (List UInt64) → Prop
  | all {items : List ρ} {counts : List UInt64} {entries : List Exchange}
      (answered : c.Answered items counts entries) :
      InTurn c items entries (.ok counts)
  | failed {before : List ρ} {r : ρ} {later : List ρ} {counts : List UInt64}
      {entries : List Exchange} {e : Error} (answered : c.Answered before counts entries)
      (fails : c.fails r e) :
      InTurn c (before ++ r :: later) entries (.error e)
  | rejected {before : List ρ} {r : ρ} {later : List ρ} {counts : List UInt64}
      {entries : List Exchange} {x : Exchange} {e : Error}
      (answered : c.Answered before counts entries) (asks : c.asks r (.error e) x) :
      InTurn c (before ++ r :: later) (entries ++ [x]) (.error e)

/-- A record in front that succeeds. -/
theorem InTurn.cons {c : Change ρ} {r : ρ} {rest : List ρ} {n : UInt64} {x : Exchange}
    {entries : List Exchange} {result : Except Error (List UInt64)} (hasks : c.asks r (.ok n) x)
    (h : c.InTurn rest entries result) :
    c.InTurn (r :: rest) (x :: entries) (result.map (n :: ·)) := by
  cases h with
  | all hall => exact .all (.cons hasks hall)
  | failed hbefore hfails => exact .failed (.cons hasks hbefore) hfails
  | rejected hbefore herror => exact .rejected (.cons hasks hbefore) herror

/-- The action changes the record in this way, in every state, and leaves the record as it is. -/
def Describes (c : Change ρ) (act : Session (ρ × List Exchange × σ) UInt64) (r : ρ) : Prop :=
  ∀ log s, (∃ e, c.fails r e ∧ act.outcome (r, (log, s)) = (.error e, (r, (log, s))))
    ∨ ∃ answer x s', c.asks r answer x
      ∧ act.outcome (r, (log, s)) = (answer, (r, (log ++ [x], s')))

theorem exists_inTurn {c : Change ρ} {act : Session (ρ × List Exchange × σ) UInt64} :
    ∀ {items : List ρ}, (∀ r ∈ items, c.Describes act r) → ∀ (log : List Exchange) (s : σ),
      ∃ entries result s', RecordType.forEach act items (log, s)
          = (result, items, (log ++ entries, s'))
        ∧ c.InTurn items entries result
  | [], _, log, s => ⟨[], .ok [], s, by rw [RecordType.forEach, List.append_nil], .all .nil⟩
  | r :: rest, h, log, s => by
      rw [List.forall_mem_cons] at h
      obtain ⟨hr, hrest⟩ := h
      rw [RecordType.forEach]
      rcases hr log s with ⟨e, hfails, hact⟩ | ⟨answer, x, s₁, hasks, hact⟩
      · refine ⟨[], .error e, s, ?_, .failed .nil hfails⟩
        rw [hact, List.append_nil]
      · rcases answer with e | n
        · refine ⟨[x], .error e, s₁, ?_, .rejected .nil hasks⟩
          rw [hact]
        · obtain ⟨entries, result, s', hrun, hturn⟩ := exists_inTurn hrest (log ++ [x]) s₁
          refine ⟨x :: entries, result.map (n :: ·), s', ?_, hturn.cons hasks⟩
          rw [hact]
          dsimp only
          rw [hrun, List.append_assoc, List.singleton_append]

/-- The set keeps its records and its total. -/
theorem exists_inTurn_onAll {c : Change ρ} {act : Session (ρ × List Exchange × σ) UInt64}
    {set : ResultSet ρ} (h : ∀ r ∈ set.items, c.Describes act r) (log : List Exchange) (s : σ) :
    ∃ entries result s', (RecordType.onAll act).outcome (set, (log, s))
        = (result, (set, (log ++ entries, s')))
      ∧ c.InTurn set.items entries result := by
  obtain ⟨entries, result, s', hrun, hturn⟩ := exists_inTurn h log s
  refine ⟨entries, result, s', ?_, hturn⟩
  show (let (result, items, below) := RecordType.forEach act set.items (log, s)
    (result, ({ set with items := items }, below))) = _
  rw [hrun]

end Change

/-! ## Saving and deleting one record -/

namespace RecordType

variable [Entity ρ]

/-- Saving fails without a call if the key is not complete, or if the type is not valid, and
otherwise updates the row that the key is of. -/
def saving (t : RecordType ρ) : Change ρ where
  fails r e := (¬ t.model.HasKey (Entity.fields r) ∧ e = .unidentified "save" t.model.name)
    ∨ (t.model.HasKey (Entity.fields r) ∧ ¬ t.model.toDescriptor.Valid ∧ e = t.model.fault)
  asks r answer x := ∃ id key, Entity.id? r = some id ∧ t.model.keyFilter id = .ok key
    ∧ x = .update t.model.table (Entity.fields r) key answer

/-- Deleting fails without a call if the key is not complete. -/
def deleting (t : RecordType ρ) : Change ρ where
  fails r e := ¬ t.model.HasKey (Entity.fields r) ∧ e = .unidentified "delete" t.model.name
  asks r answer x := ∃ id, Entity.id? r = some id
    ∧ x = .delete t.model.table t.model.primaryKey (t.deleteValues id) answer

section OneRecord

variable {t : RecordType ρ} {r : ρ} (hmodel : Entity.model r = t.model)
  (hhooks : ∀ e, (t.handle e).outcome r = (.ok (), r)) (db : Engine σ)
include hmodel

omit hhooks in
theorem id?_eq_none (h : ¬ t.model.HasKey (Entity.fields r)) : Entity.id? r = none := by
  rw [Entity.id?, hmodel]
  exact Descriptor.id?_of_not_keyedBy fun hkeyed => h (Descriptor.exists_keyedBy_iff.mp hkeyed)

include hhooks

theorem describes_save : t.saving.Describes (t.save db.transcribed) r := by
  intro log s
  by_cases hkey : t.model.HasKey (Entity.fields r)
  · obtain ⟨values, hvalues⟩ := Descriptor.exists_keyedBy_iff.mpr hkey
    have hid : Entity.id? r = some (Descriptor.identifier values) := by
      rw [Entity.id?, hmodel, Descriptor.id?_of_keyedBy hvalues]
    by_cases hvalid : t.model.toDescriptor.Valid
    · obtain ⟨key, hfilter, -⟩ := Descriptor.exists_keyFilter_identifier hvalid hvalues.length_eq
      obtain ⟨answer, s', hupdate⟩ :=
        (db.update t.model.table (Entity.fields r) key).exists_outcome s
      have hcall : (db.transcribed.update t.model.table (Entity.fields r) key).outcome (log, s)
          = (answer, (log ++ [.update t.model.table (Entity.fields r) key answer], s')) :=
        Engine.outcome_transcribing (.update _ _ _) hupdate log
      refine .inr ⟨answer, _, s', ⟨_, key, hid, hfilter, rfl⟩, ?_⟩
      rw [outcome_save hhooks db.transcribed (log, s) hid hfilter, hcall]
    · have hfilter : t.model.keyFilter (Descriptor.identifier values) = .error t.model.fault := by
        unfold Descriptor.keyFilter
        rw [Descriptor.validate_eq, if_neg hvalid]
        rfl
      exact .inl ⟨_, .inr ⟨hkey, hvalid, rfl⟩,
        outcome_save_of_error hhooks db.transcribed (log, s) hid hfilter⟩
  · exact .inl ⟨_, .inl ⟨hkey, rfl⟩,
      outcome_save_of_none hhooks db.transcribed (log, s) (id?_eq_none hmodel hkey)⟩

theorem describes_delete : t.deleting.Describes (t.delete db.transcribed) r := by
  intro log s
  by_cases hkey : t.model.HasKey (Entity.fields r)
  · obtain ⟨values, hvalues⟩ := Descriptor.exists_keyedBy_iff.mpr hkey
    let id := Descriptor.identifier values
    have hid : Entity.id? r = some id := by
      rw [Entity.id?, hmodel, Descriptor.id?_of_keyedBy hvalues]
    obtain ⟨answer, s', hdelete⟩ :=
      (db.delete t.model.table t.model.primaryKey (t.deleteValues id)).exists_outcome s
    have hcall : (db.transcribed.delete t.model.table t.model.primaryKey
        (t.deleteValues id)).outcome (log, s)
        = (answer, (log ++ [.delete t.model.table t.model.primaryKey (t.deleteValues id) answer],
            s')) :=
      Engine.outcome_transcribing (.delete _ _ _) hdelete log
    refine .inr ⟨answer, _, s', ⟨id, hid, rfl⟩, ?_⟩
    rw [outcome_delete hhooks db.transcribed (log, s) hid, hcall]
  · exact .inl ⟨_, ⟨hkey, rfl⟩,
      outcome_delete_of_none hhooks db.transcribed (log, s) (id?_eq_none hmodel hkey)⟩

end OneRecord

end RecordType

/-! ## Row counts -/

/-- Row counts are added up as words. -/
theorem toNat_foldl_add : ∀ (counts : List UInt64) (start : UInt64),
    (counts.foldl (· + ·) start).toNat = (start.toNat + (counts.map UInt64.toNat).sum) % 2 ^ 64
  | [], start => (Nat.mod_eq_of_lt start.toNat_lt).symm
  | n :: rest, start => by
      rw [List.foldl_cons, toNat_foldl_add rest, UInt64.toNat_add, Nat.mod_add_mod, List.map_cons,
        List.sum_cons, Nat.add_assoc]

/-! ## Whole sets -/

namespace RecordType

variable [Entity ρ]

/-- Saving and deleting a set of records of the type, whose events leave them alone as they do by
default, for all engines. The calls are those of some first records of the set, in order and one
for each, and all of them succeeded but the last, if there is an error; no later record makes a
call. The error is that of the engine, or that of the next record, which failed before a call. If
no record fails, the answer has the row counts in order, or their sum, provided that it is a
word. The set is left as it was. -/
theorem whole_sets_in_turn (db : Engine σ) (t : RecordType ρ) (set : ResultSet ρ)
    (hmodel : ∀ r ∈ set.items, Entity.model r = t.model)
    (hhooks : ∀ r ∈ set.items, ∀ e, (t.handle e).outcome r = (.ok (), r))
    (log : List Exchange) (s : σ) :
    (∃ entries result s', (t.saveAll db.transcribed).outcome (set, (log, s))
        = (result, (set, (log ++ entries, s')))
      ∧ t.saving.InTurn set.items entries result)
    ∧ ∃ entries result counts s', (t.deleteAll db.transcribed).outcome (set, (log, s))
        = (result, (set, (log ++ entries, s')))
      ∧ t.deleting.InTurn set.items entries counts
      ∧ (∀ e, counts = .error e → result = .error e)
      ∧ ∀ ns, counts = .ok ns → ∃ n, result = .ok n
        ∧ ((ns.map UInt64.toNat).sum < 2 ^ 64 → n.toNat = (ns.map UInt64.toNat).sum) := by
  constructor
  · exact Change.exists_inTurn_onAll
      (fun r hr => describes_save (hmodel r hr) (hhooks r hr) db) log s
  · obtain ⟨entries, counts, s', hrun, hturn⟩ := Change.exists_inTurn_onAll
      (fun r hr => describes_delete (hmodel r hr) (hhooks r hr) db) log s
    refine ⟨entries, counts.map fun ns => ns.foldl (· + ·) 0, counts, s', ?_, hturn, ?_, ?_⟩
    · rw [deleteAll, outcome_bind, hrun]
      cases counts <;> rfl
    · rintro e rfl
      rfl
    · rintro ns rfl
      refine ⟨_, rfl, fun hsum => ?_⟩
      rw [toNat_foldl_add, UInt64.toNat_zero, Nat.zero_add, Nat.mod_eq_of_lt hsum]

open Blog

/-- Two authors, and an engine that takes no update. The first author is not saved, and nobody
asks for the second; both are deleted, and the two row counts are added up. -/
theorem whole_sets_in_turn_of_authors :
    let t := Kind.author.recordType
    let first : Fields := .ofList [("author_id", .int 1)]
    let second : Fields := .ofList [("author_id", .int 2)]
    let set : ResultSet Record := ⟨[⟨.author, first, []⟩, ⟨.author, second, []⟩], 9, some "Author"⟩
    let locked : Error := ⟨.engine, "locked"⟩
    let script : Script := { affected := 3, updateError := some locked }
    (∀ r ∈ set.items, Entity.model r = t.model)
      ∧ (∀ r ∈ set.items, ∀ e, (t.handle e).outcome r = (.ok (), r))
      ∧ (let entries := [.update "author" first (.binary "author_id" "=" (.int 1)) (.error locked)]
        (t.saveAll Script.engine.transcribed).outcome (set, ([], script))
          = (.error locked, (set, (entries, script)))
        ∧ t.saving.InTurn set.items entries (.error locked))
      ∧ (let entries := [.delete "author" ["author_id"] [.int 1] (.ok 3),
          .delete "author" ["author_id"] [.int 2] (.ok 3)]
        (t.deleteAll Script.engine.transcribed).outcome (set, ([], script))
          = (.ok 6, (set, (entries, script)))
        ∧ ∃ counts, t.deleting.InTurn set.items entries counts) := by
  intro t first second set locked script
  have hmodel : ∀ r ∈ set.items, Entity.model r = t.model :=
    List.forall_mem_cons.mpr ⟨rfl, List.forall_mem_singleton.mpr rfl⟩
  have hhooks : ∀ r ∈ set.items, ∀ e, (t.handle e).outcome r = (.ok (), r) :=
    List.forall_mem_cons.mpr ⟨fun e => rfl, List.forall_mem_singleton.mpr fun e => rfl⟩
  obtain ⟨⟨saved, saving, s₁, hsaved, hsaving⟩, deleted, deleting, counts, s₂, hdeleted, hdeleting,
    -⟩ := whole_sets_in_turn Script.engine t set hmodel hhooks [] script
  refine ⟨hmodel, hhooks, ⟨rfl, ?_⟩, rfl, counts, ?_⟩
  · cases hsaved
    exact hsaving
  · cases hdeleted
    exact hdeleting

end RecordType

end RecordMapper
