import RecordMapper.Error

/-!
# Lists read item by item

Reading a list stops at the first item that cannot be read, whose error is that of the list
(`mapM_eq_error_iff`). If all items can be read, what is read of the list is what is read of
each.
-/

namespace RecordMapper

variable {α β : Type} {f : α → Except Error β}

theorem mapM_cons_of_ok {a : α} {b : β} (h : f a = .ok b) (rest : List α) :
    (a :: rest).mapM f = (rest.mapM f).map (b :: ·) := by
  rw [List.mapM_cons, h]
  cases rest.mapM f <;> rfl

theorem mapM_cons_of_error {a : α} {e : Error} (h : f a = .error e) (rest : List α) :
    (a :: rest).mapM f = .error e := by
  rw [List.mapM_cons, h]
  rfl

theorem exists_mapM_eq_ok : ∀ {items : List α}, (∀ a ∈ items, ∃ b, f a = .ok b) →
    ∃ read, items.mapM f = .ok read
  | [], _ => ⟨[], rfl⟩
  | a :: rest, h => by
      rw [List.forall_mem_cons] at h
      obtain ⟨⟨b, hb⟩, hrest⟩ := h
      obtain ⟨read, hread⟩ := exists_mapM_eq_ok hrest
      exact ⟨b :: read, by rw [mapM_cons_of_ok hb, hread]; rfl⟩

/-- What is read of a list is what is read of its items. -/
theorem map_eq_of_mapM : ∀ {items : List α} {read : List β}, items.mapM f = .ok read →
    items.map f = read.map .ok
  | [], read, h => by
      cases h
      rfl
  | a :: rest, read, h => by
      cases hfirst : f a with
      | error e =>
          rw [mapM_cons_of_error hfirst] at h
          cases h
      | ok b =>
          rw [mapM_cons_of_ok hfirst] at h
          cases hrest : rest.mapM f with
          | error e =>
              rw [hrest] at h
              cases h
          | ok more =>
              rw [hrest] at h
              cases h
              rw [List.map_cons, List.map_cons, hfirst, map_eq_of_mapM hrest]

/-- A list is read if all of its items are. -/
theorem exists_mapM_eq_ok_iff {items : List α} :
    (∃ read, items.mapM f = .ok read) ↔ ∀ a ∈ items, ∃ b, f a = .ok b := by
  constructor
  · rintro ⟨read, hread⟩ a ha
    have hmem : f a ∈ read.map .ok := map_eq_of_mapM hread ▸ List.mem_map_of_mem ha
    obtain ⟨b, -, hb⟩ := List.mem_map.mp hmem
    exact ⟨b, hb.symm⟩
  · exact exists_mapM_eq_ok

theorem mapM_eq_error {e : Error} {a : α} (ha : f a = .error e) (after : List α) :
    ∀ {before : List α}, (∀ earlier ∈ before, ∃ b, f earlier = .ok b) →
      (before ++ a :: after).mapM f = .error e
  | [], _ => mapM_cons_of_error ha after
  | earlier :: rest, h => by
      rw [List.forall_mem_cons] at h
      obtain ⟨⟨b, hb⟩, hrest⟩ := h
      rw [List.cons_append, mapM_cons_of_ok hb, mapM_eq_error ha after hrest]
      rfl

theorem exists_of_mapM_eq_error {e : Error} : ∀ {items : List α}, items.mapM f = .error e →
    ∃ before a after, items = before ++ a :: after ∧ f a = .error e
      ∧ ∀ earlier ∈ before, ∃ b, f earlier = .ok b
  | [], h => by cases h
  | a :: rest, h => by
      cases hfirst : f a with
      | error e' =>
          rw [mapM_cons_of_error hfirst] at h
          obtain rfl : e' = e := Except.error.inj h
          exact ⟨[], a, rest, rfl, hfirst, by simp⟩
      | ok b =>
          rw [mapM_cons_of_ok hfirst] at h
          cases hrest : rest.mapM f with
          | ok read =>
              rw [hrest] at h
              cases h
          | error e' =>
              rw [hrest] at h
              obtain rfl : e' = e := Except.error.inj h
              obtain ⟨before, x, after, rfl, hx, hbefore⟩ := exists_of_mapM_eq_error hrest
              exact ⟨a :: before, x, after, rfl, hx, List.forall_mem_cons.mpr ⟨⟨b, hfirst⟩, hbefore⟩⟩

/-- The first item that cannot be read decides the error. -/
theorem mapM_eq_error_iff {items : List α} {e : Error} : items.mapM f = .error e
    ↔ ∃ before a after, items = before ++ a :: after ∧ f a = .error e
      ∧ ∀ earlier ∈ before, ∃ b, f earlier = .ok b := by
  refine ⟨exists_of_mapM_eq_error, ?_⟩
  rintro ⟨before, a, after, rfl, ha, hbefore⟩
  exact mapM_eq_error ha after hbefore

end RecordMapper
