import RecordMapper.Proofs.Value.Json

/-!
# Keys of lists

The key of a list is the text of a JSON array. The texts in a list may hold whatever separates
the parts of an array, and still two lists without doubles never have the same key: with as many
containers allowed as the list has, the array is read back from the key, whatever stands behind it
(`value_key_list`), and its tree stands for no other value. With doubles this is not so, since all
of those that are not finite become `null` in the tree.
-/

namespace RecordMapper.Value

theorem toJson_inj {v v' : Value} (h : v.floats = []) (h' : v'.floats = [])
    (heq : v.toJson = v'.toJson) : v = v' := by
  have hread := ofJson?_toJson h
  rw [heq, ofJson?_toJson h'] at hread
  exact (Option.some.inj hread).symm

theorem toList_key_list (items : List Value) :
    (list items).key.toList = Json.print (list items).toJson := by
  rw [key, Json.render, String.toList_ofList, toJson]

/-- The array is read back from the key, and the text behind it is left alone. -/
theorem value_key_list {items : List Value} (h : floatsAmong items = []) {d : Nat}
    (hd : (list items).nesting ≤ d) (rest : List Char) :
    Json.Parser.value d ((list items).key.toList ++ rest) = some ((list items).toJson, rest) := by
  have hexact := Json.exactAll_iff.mp (exactAll_toJsonAll h)
  have hopens : ∀ j ∈ toJsonAll items, Json.Parser.Opens ']' (Json.print j) :=
    fun j hj => Json.Parser.print_opens (hexact j hj)
  have hdeep : (Json.arr (toJsonAll items)).nesting ≤ d := by
    rw [Json.nesting, nestingAll_toJsonAll h]
    exact hd
  have hpos : 0 < d := by
    rw [nesting] at hd
    omega
  obtain ⟨allowed, rfl⟩ := Nat.exists_eq_add_one.mpr hpos
  -- the closing bracket ends the array, so nothing is asked of what follows
  rw [toList_key_list, toJson, Json.Parser.value_print_arr hopens
    fun j hj rest hrest => Json.Parser.value_print allowed (hexact j hj) hrest]
  exact if_pos hdeep

/-- No list without doubles has a key that begins with the key of another one. -/
theorem key_list_append_inj {items items' : List Value} (h : floatsAmong items = [])
    (h' : floatsAmong items' = []) {rest rest' : String}
    (heq : (list items).key ++ rest = (list items').key ++ rest') :
    items = items' ∧ rest = rest' := by
  have hread := value_key_list h (Nat.le_max_left _ (list items').nesting) rest.toList
  have hread' := value_key_list h' (Nat.le_max_right (list items).nesting _) rest'.toList
  rw [← String.toList_append] at hread hread'
  rw [heq, hread'] at hread
  obtain ⟨htree, hrest⟩ := Prod.mk.inj (Option.some.inj hread)
  exact ⟨(list.inj (toJson_inj h' h htree)).symm, (String.toList_inj.mp hrest).symm⟩

theorem key_list_inj {items items' : List Value} (h : floatsAmong items = [])
    (h' : floatsAmong items' = []) (heq : (list items).key = (list items').key) :
    items = items' :=
  (key_list_append_inj h h' (congrArg (· ++ "") heq)).1

/-- Two lists without doubles, whatever texts and lists are in them, have the same key only if they
are the same list. Otherwise the key of neither even begins with that of the other, and each list
can be read off its key. -/
theorem keys_of_lists_apart {items items' : List Value} (h : floatsAmong items = [])
    (h' : floatsAmong items' = []) :
    ((list items).key = (list items').key ↔ items = items')
      ∧ ((list items).key.toList <+: (list items').key.toList ↔ items = items')
      ∧ (Json.Parser.value (list items).nesting (list items).key.toList).bind
          (fun read => ofJson? read.1) = some (list items) := by
  refine ⟨⟨key_list_inj h h', fun heq => by rw [heq]⟩,
    ⟨?_, fun heq => heq ▸ List.prefix_rfl⟩, ?_⟩
  · rintro ⟨rest, hrest⟩
    have htext : (list items).key ++ String.ofList rest = (list items').key ++ "" := by
      rw [← String.toList_inj, String.toList_append, String.toList_ofList, hrest,
        String.append_empty]
    exact (key_list_append_inj h h' htext).1
  · have hread := value_key_list h (Nat.le_refl _) []
    rw [List.append_nil] at hread
    rw [hread, Option.bind_some]
    exact ofJson?_toJson h

/-- Texts that look like the separators of an array, and like parts of another kind. -/
theorem keys_of_imitations_apart :
    let items : List Value := [.text "a\",\"b", .list [.text "]", .int 4], .null, .bool true]
    let items' : List Value := [.text "a", .text "b", .list [.text "],4"], .text "null,true"]
    floatsAmong items = [] ∧ floatsAmong items' = []
      ∧ ((list items).key = (list items').key ↔ items = items')
      ∧ ((list items).key.toList <+: (list items').key.toList ↔ items = items')
      ∧ (list items).key ≠ (list items').key := by
  intro items items'
  have hdiffer : items ≠ items' := by
    intro heq
    obtain ⟨hhead, -⟩ := List.cons.inj heq
    exact absurd (text.inj hhead) (by decide)
  obtain ⟨hkeys, hbegins, -⟩ := @keys_of_lists_apart items items' rfl rfl
  exact ⟨rfl, rfl, hkeys, hbegins, fun heq => hdiffer (hkeys.mp heq)⟩

-- a text may have the key of a list
example : (text "[4,null]").key = (list [.int 4, .null]).key := by decide +kernel

end RecordMapper.Value
