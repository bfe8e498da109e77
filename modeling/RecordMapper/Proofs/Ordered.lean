import RecordMapper.Ordered

/-!
# Ordered maps as their entries

What a look-up finds is an entry (`get?_eq_some_iff`), and a map made out of pairs
with distinct names has exactly these pairs as its entries (`entries_ofList`). Of pairs with
repeated names, each name stands where it was first mentioned (`keys_insertAll`) and has the
value of its last mention (`get?_insertAll`).
-/

namespace RecordMapper

/-! ## First mentions -/

theorem eraseDups_of_nodup {names : List String} (h : names.Nodup) : names.eraseDups = names := by
  induction names with
  | nil => rfl
  | cons name rest ih =>
      rw [List.nodup_cons] at h
      have hrest : rest.filter (fun other => !other == name) = rest := by
        rw [List.filter_eq_self]
        intro other hother
        have hne : other ≠ name := fun he => h.1 (he ▸ hother)
        simpa using hne
      rw [List.eraseDups_cons, hrest, ih h.2]

/-- Mentioning a name again adds nothing. -/
theorem eraseDups_append_cons_of_mem {names rest : List String} {name : String}
    (h : name ∈ names) : (names ++ name :: rest).eraseDups = (names ++ rest).eraseDups := by
  have hremoved : (name :: rest).removeAll names = rest.removeAll names :=
    List.filter_cons_of_neg (by simpa using h)
  rw [List.eraseDups_append, List.eraseDups_append, hremoved]

/-! ## Maps -/

/-- A new name goes to the end. -/
theorem putEntry_of_not_mem {α : Type} {name : String} {value : α} :
    ∀ {l : List (String × α)}, name ∉ l.map Prod.fst →
      putEntry name value l = l ++ [(name, value)]
  | [], _ => rfl
  | e :: rest, h => by
      rw [List.map_cons, List.mem_cons, not_or] at h
      have hne : ¬ e.1 = name := fun he => h.1 he.symm
      rw [putEntry, if_neg hne, putEntry_of_not_mem h.2, List.cons_append]

namespace OrderedMap

variable {α : Type}

/-- A map is its entries. -/
theorem eq_of_entries : ∀ {m m' : OrderedMap α}, m.entries = m'.entries → m = m'
  | ⟨_, _⟩, ⟨_, _⟩, rfl => rfl

/-- Each name stands where it was first mentioned. -/
theorem keys_insertAll : ∀ (pairs : List (String × α)) (m : OrderedMap α),
    (m.insertAll pairs).keys = (m.keys ++ pairs.map Prod.fst).eraseDups
  | [], m => by
      rw [List.map_nil, List.append_nil]
      exact (eraseDups_of_nodup m.nodup).symm
  | e :: rest, m => by
      rw [insertAll, List.foldl_cons, ← insertAll, keys_insertAll rest, keys_insert, List.map_cons]
      split
      · next hmem => rw [eraseDups_append_cons_of_mem hmem]
      · rw [List.append_assoc, List.singleton_append]

theorem mem_keys_insertAll {name : String} {pairs : List (String × α)} {m : OrderedMap α} :
    name ∈ (m.insertAll pairs).keys ↔ name ∈ m.keys ∨ name ∈ pairs.map Prod.fst := by
  rw [keys_insertAll, List.mem_eraseDups, List.mem_append]

theorem find?_putEntry (key name : String) (v : α) : ∀ l : List (String × α),
    (putEntry key v l).find? (fun e => e.1 == name)
      = if key = name then some (key, v) else l.find? fun e => e.1 == name
  | [] => by
      by_cases h : key = name <;> simp [putEntry, h]
  | e :: rest => by
      have ih := find?_putEntry key name v rest
      by_cases he : e.1 = key
      · by_cases h : key = name <;> simp [putEntry, he, h]
      · rw [putEntry, if_neg he, List.find?_cons, List.find?_cons, ih]
        by_cases h : key = name
        · have hne : (e.1 == name) = false := by simpa [← h] using he
          rw [hne, if_pos h]
        · rw [if_neg h, if_neg h]

theorem get?_insert (m : OrderedMap α) (key name : String) (v : α) :
    (m.insert key v).get? name = if key = name then some v else m.get? name := by
  rw [get?, insert, find?_putEntry]
  split <;> rfl

/-- Each name has the value of its last mention. -/
theorem get?_insertAll (name : String) : ∀ (pairs : List (String × α)) (m : OrderedMap α),
    (m.insertAll pairs).get? name
      = ((pairs.filter fun e => e.1 == name).getLast?.map Prod.snd).or (m.get? name)
  | [], _ => rfl
  | e :: rest, m => by
      rw [insertAll, List.foldl_cons, ← insertAll, get?_insertAll name rest, get?_insert]
      by_cases h : e.1 = name
      · rw [if_pos h, List.filter_cons_of_pos (by simpa using h), List.getLast?_cons]
        cases (rest.filter fun e => e.1 == name).getLast? <;> rfl
      · rw [if_neg h, List.filter_cons_of_neg (by simpa using h)]

theorem get?_ofList (name : String) (pairs : List (String × α)) :
    (ofList pairs).get? name = (pairs.filter fun e => e.1 == name).getLast?.map Prod.snd := by
  rw [ofList, get?_insertAll]
  exact Option.or_none

theorem ofList_concat (pairs : List (String × α)) (e : String × α) :
    ofList (pairs ++ [e]) = (ofList pairs).insert e.1 e.2 := by
  unfold ofList insertAll
  rw [List.foldl_append]
  rfl

/-- Distinct new names are appended one after the other. -/
theorem entries_insertAll : ∀ (pairs : List (String × α)) (m : OrderedMap α),
    ((m.entries ++ pairs).map Prod.fst).Nodup →
      (m.insertAll pairs).entries = m.entries ++ pairs
  | [], m, _ => by simp [insertAll]
  | e :: rest, m, h => by
      have hnew : e.1 ∉ m.entries.map Prod.fst := by
        intro hmem
        rw [List.map_append, List.nodup_append] at h
        exact h.2.2 _ hmem e.1 (by simp) rfl
      have hput : (m.insert e.1 e.2).entries = m.entries ++ [e] :=
        putEntry_of_not_mem hnew
      have ih := entries_insertAll rest (m.insert e.1 e.2)
        (by rw [hput, List.append_assoc]; exact h)
      rw [hput, List.append_assoc] at ih
      exact ih

theorem entries_ofList {pairs : List (String × α)} (h : (pairs.map Prod.fst).Nodup) :
    (ofList pairs).entries = pairs := by
  rw [ofList, entries_insertAll pairs ∅ (by simpa using h)]
  rfl

/-- Among distinct names, the first entry with a name is the only one. -/
theorem find?_eq_some_of_mem {name : String} {v : α} :
    ∀ {l : List (String × α)}, (l.map Prod.fst).Nodup → (name, v) ∈ l →
      l.find? (fun e => e.1 == name) = some (name, v)
  | e :: rest, hnd, h => by
      rw [List.map_cons, List.nodup_cons] at hnd
      rcases List.mem_cons.mp h with rfl | hrest
      · simp
      · have hne : e.1 ≠ name := fun he =>
          hnd.1 (he ▸ List.mem_map.mpr ⟨(name, v), hrest, rfl⟩)
        rw [List.find?_cons_of_neg (by simpa using hne)]
        exact find?_eq_some_of_mem hnd.2 hrest

theorem get?_eq_some_iff {m : OrderedMap α} {name : String} {v : α} :
    m.get? name = some v ↔ (name, v) ∈ m.entries := by
  constructor
  · intro h
    obtain ⟨e, he, rfl⟩ := Option.map_eq_some_iff.mp h
    have hname : e.1 = name := by simpa using List.find?_some he
    subst hname
    exact List.mem_of_find?_eq_some he
  · intro h
    rw [get?, find?_eq_some_of_mem m.nodup h]
    rfl

theorem get?_erase (m : OrderedMap α) (name other : String) :
    (m.erase name).get? other = if other = name then none else m.get? other := by
  refine Option.ext fun v => ?_
  rw [get?_eq_some_iff, erase, List.mem_filter]
  by_cases h : other = name
  · simp [h]
  · simp [h, get?_eq_some_iff]

end OrderedMap

namespace NameSet

/-- Each name stands where it was first mentioned. -/
theorem names_insertAll : ∀ (names : List String) (s : NameSet),
    (s.insertAll names).names = (s.names ++ names).eraseDups
  | [], s => by
      rw [List.append_nil]
      exact (eraseDups_of_nodup s.nodup).symm
  | name :: rest, s => by
      rw [insertAll, List.foldl_cons, ← insertAll, names_insertAll rest, names_insert]
      split
      · next hmem => rw [eraseDups_append_cons_of_mem hmem]
      · rw [List.append_assoc, List.singleton_append]

theorem mem_names_insertAll {name : String} {names : List String} {s : NameSet} :
    name ∈ (s.insertAll names).names ↔ name ∈ s.names ∨ name ∈ names := by
  rw [names_insertAll, List.mem_eraseDups, List.mem_append]

/-- Distinct names come behind those that are there, except the ones that are there already. -/
theorem names_insertAll_of_nodup {names : List String} (h : names.Nodup) (s : NameSet) :
    (s.insertAll names).names = s.names ++ names.filter fun name => !s.names.contains name := by
  rw [names_insertAll, List.eraseDups_append, eraseDups_of_nodup s.nodup, List.removeAll,
    eraseDups_of_nodup (h.sublist List.filter_sublist)]

end NameSet

end RecordMapper
