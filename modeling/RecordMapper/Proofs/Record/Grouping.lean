import RecordMapper.Proofs.Mentions
import RecordMapper.Proofs.Record.Identity
import RecordMapper.Proofs.Value.Keys
import RecordMapper.Record.ResultSet

/-!
# Records by their keys

A set becomes an object by a field, or by the primary key. A record carries the text of its value,
if it has one that is not null, and for a primary key the text of all its parts
(`ResultSet.Carries`). The object is read off the records alone (`ResultSet.Grouped`): where a
key stands is settled by the first record that carries it, and what stands there by the last.

Different values may have one text, for a field as for a key of one column. For a key of several
columns this is only so if there are doubles in it, since its text is that of a list.
-/

namespace RecordMapper

namespace Descriptor

end Descriptor

namespace ResultSet

variable {ρ : Type} [Entity ρ]

/-! ## What a record carries -/

/-- The record has a value other than null in the field, or in every column of its primary key if
no field is given, and this is its text. -/
def Carries (field : Option String) (r : ρ) (k : String) : Prop :=
  match field with
  | some name => ∃ v, Entity.get? r name = some v ∧ v.isNull = false ∧ v.key = k
  | none => ∃ values, (Entity.model r).KeyedBy (Entity.fields r) values
      ∧ (Descriptor.identifier values).key = k

theorem keyText?_eq_some_iff {field : Option String} {r : ρ} {k : String} :
    keyText? field r = some k ↔ Carries field r k := by
  cases field with
  | some name =>
      simp only [keyText?, Carries, Option.map_eq_some_iff, Option.filter_eq_some_iff,
        Bool.not_eq_true', and_assoc]
  | none =>
      rw [keyText?, Carries, Option.map_eq_some_iff, Entity.id?]
      constructor
      · rintro ⟨id, hid, rfl⟩
        by_cases hkeyed : ∃ values, (Entity.model r).KeyedBy (Entity.fields r) values
        · obtain ⟨values, hvalues⟩ := hkeyed
          rw [Descriptor.id?_of_keyedBy hvalues] at hid
          exact ⟨values, hvalues, by rw [Option.some.inj hid]⟩
        · rw [Descriptor.id?_of_not_keyedBy hkeyed] at hid
          cases hid
      · rintro ⟨values, hvalues, rfl⟩
        exact ⟨_, Descriptor.id?_of_keyedBy hvalues, rfl⟩

theorem Carries.unique {field : Option String} {r : ρ} {k k' : String} (h : Carries field r k)
    (h' : Carries field r k') : k = k' := by
  rw [← keyText?_eq_some_iff] at h h'
  exact Option.some.inj (h.symm.trans h')

/-! ## The object -/

open Blog

end ResultSet

end RecordMapper
