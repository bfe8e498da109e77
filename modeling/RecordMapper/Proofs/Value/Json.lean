import RecordMapper.Proofs.Decimal
import RecordMapper.Proofs.Json.RoundTrip
import RecordMapper.Value.Basic

/-!
# Values as JSON trees

The doubles of a value decide what can become of it on its way through JSON. One
that is not finite is found wherever it stands; without any double, the tree of a
value is read back as the value, and the containers of the tree are the lists.
-/

namespace RecordMapper.Value

mutual

/-- The doubles of a value, also those inside lists, from left to right. -/
def floats : Value → List Float
  | .float x => [x]
  | .list items => floatsAmong items
  | _ => []
termination_by structural v => v

def floatsAmong : List Value → List Float
  | [] => []
  | v :: rest => floats v ++ floatsAmong rest
termination_by structural l => l

end

mutual

/-- How many lists of a value enclose one another, at most. -/
def nesting : Value → Nat
  | .list items => nestingAmong items + 1
  | _ => 0
termination_by structural v => v

def nestingAmong : List Value → Nat
  | [] => 0
  | v :: rest => max (nesting v) (nestingAmong rest)
termination_by structural l => l

end

/-! ## Numbers that JSON cannot carry -/

mutual

theorem nonFinite?_eq_find? : ∀ v : Value, v.nonFinite? = v.floats.find? (!·.isFinite)
  | .null | .bool _ | .int _ | .text _ => rfl
  | .float x => by
      rw [nonFinite?, floats]
      cases h : x.isFinite <;> simp [h]
  | .list items => by rw [nonFinite?, floats, nonFiniteAmong?_eq_find? items]

theorem nonFiniteAmong?_eq_find? : ∀ items : List Value,
    nonFiniteAmong? items = (floatsAmong items).find? (!·.isFinite)
  | [] => rfl
  | v :: rest => by
      rw [nonFiniteAmong?, floatsAmong, List.find?_append, nonFinite?_eq_find? v,
        nonFiniteAmong?_eq_find? rest]
      cases v.floats.find? (!·.isFinite) <;> rfl

end

/-! ## Values without doubles -/

mutual

theorem exact_toJson : ∀ {v : Value}, v.floats = [] → v.toJson.Exact
  | .null, _ | .bool _, _ | .text _, _ => trivial
  | .int i, _ => Json.isWord_toInt i
  | .list _, h => exactAll_toJsonAll h

theorem exactAll_toJsonAll : ∀ {items : List Value}, floatsAmong items = [] →
    Json.ExactAll (toJsonAll items)
  | [], _ => trivial
  | v :: rest, h => by
      rw [floatsAmong, List.append_eq_nil_iff] at h
      exact ⟨exact_toJson h.1, exactAll_toJsonAll h.2⟩

end

mutual

theorem nesting_toJson : ∀ {v : Value}, v.floats = [] → v.toJson.nesting = v.nesting
  | .null, _ | .bool _, _ | .int _, _ | .text _, _ => rfl
  | .list items, h => by rw [toJson, Json.nesting, nesting, nestingAll_toJsonAll h]

theorem nestingAll_toJsonAll : ∀ {items : List Value}, floatsAmong items = [] →
    Json.nestingAll (toJsonAll items) = nestingAmong items
  | [], _ => rfl
  | v :: rest, h => by
      rw [floatsAmong, List.append_eq_nil_iff] at h
      rw [toJsonAll, Json.nestingAll, nestingAmong, nesting_toJson h.1, nestingAll_toJsonAll h.2]

end

theorem ofJsonInt_toInt (i : Int64) : ofJsonInt i.toInt = .int i := by
  rw [ofJsonInt, if_pos (Decimal.fitsInt64_toInt i), Int64.ofInt_toInt]

mutual

/-- The tree of a value stands for the value. -/
theorem ofJson?_toJson : ∀ {v : Value}, v.floats = [] → ofJson? v.toJson = some v
  | .null, _ | .bool _, _ | .text _, _ => rfl
  | .int i, _ => by rw [toJson, ofJson?, ofJsonInt_toInt]
  | .list items, h => by rw [toJson, ofJson?, ofJsonAll?_toJsonAll h]; rfl

theorem ofJsonAll?_toJsonAll : ∀ {items : List Value}, floatsAmong items = [] →
    ofJsonAll? (toJsonAll items) = some items
  | [], _ => rfl
  | v :: rest, h => by
      rw [floatsAmong, List.append_eq_nil_iff] at h
      rw [toJsonAll, ofJsonAll?, ofJson?_toJson h.1, ofJsonAll?_toJsonAll h.2]

end

end RecordMapper.Value
