/-!
# Texts cut at a mark

A text is cut at the first place of a character: what stands in front of it does not have the
character, and there is only one such way to cut it. Cut at all of its places, it is a row of
pieces with the character between them.
-/

namespace RecordMapper.Text

variable {mark : Char} {front rest cs : List Char}

theorem not_mem_takeWhile_ne (mark : Char) (cs : List Char) :
    mark ∉ cs.takeWhile (· != mark) := by
  intro h
  simpa using List.all_eq_true.mp List.all_takeWhile mark h

/-- What is left from the mark on begins with the mark. -/
theorem eq_of_dropWhile_ne {c : Char} (h : cs.dropWhile (· != mark) = c :: rest) :
    cs = cs.takeWhile (· != mark) ++ mark :: rest := by
  have hc : c = mark := by simpa [h] using List.head?_dropWhile_not (· != mark) cs
  have hsplit := List.takeWhile_append_dropWhile (p := (· != mark)) (l := cs)
  rw [h, hc] at hsplit
  exact hsplit.symm

theorem takeWhile_ne_of_dropWhile_eq_nil (h : cs.dropWhile (· != mark) = []) :
    cs.takeWhile (· != mark) = cs := by
  have hsplit := List.takeWhile_append_dropWhile (p := (· != mark)) (l := cs)
  rwa [h, List.append_nil] at hsplit

theorem forall_ne_of_not_mem (h : mark ∉ front) : ∀ c ∈ front, (c != mark) = true := by
  intro c hc
  have hne : c ≠ mark := fun he => h (he ▸ hc)
  simpa using hne

theorem dropWhile_ne_of_not_mem (h : mark ∉ cs) : cs.dropWhile (· != mark) = [] := by
  have hdrop : (cs ++ []).dropWhile (· != mark) = [] := by
    rw [List.dropWhile_append_of_pos (forall_ne_of_not_mem h), List.dropWhile_nil]
  rwa [List.append_nil] at hdrop

theorem dropWhile_ne_of_split (h : mark ∉ front) :
    (front ++ mark :: rest).dropWhile (· != mark) = mark :: rest := by
  rw [List.dropWhile_append_of_pos (forall_ne_of_not_mem h), List.dropWhile_cons_of_neg (by simp)]

theorem exists_intercalate (mark : Char) : ∀ cs : List Char,
    ∃ pieces : List (List Char), pieces ≠ [] ∧ cs = [mark].intercalate pieces
      ∧ ∀ piece ∈ pieces, mark ∉ piece
  | [] => ⟨[[]], List.cons_ne_nil _ _, rfl, by simp⟩
  | c :: cs => by
      obtain ⟨pieces, hne, hcs, hpieces⟩ := exists_intercalate mark cs
      by_cases hc : c = mark
      · subst hc
        refine ⟨[] :: pieces, List.cons_ne_nil _ _, ?_, by simpa using hpieces⟩
        obtain ⟨first, more, rfl⟩ := List.exists_cons_of_ne_nil hne
        rw [List.intercalate_cons_cons, ← hcs]
        rfl
      · obtain ⟨first, more, rfl⟩ := List.exists_cons_of_ne_nil hne
        have hfirst : mark ∉ c :: first := fun hmem => by
          rcases List.mem_cons.mp hmem with heq | hmem
          · exact hc heq.symm
          · exact hpieces first List.mem_cons_self hmem
        refine ⟨(c :: first) :: more, List.cons_ne_nil _ _, ?_, ?_⟩
        · cases more with
          | nil => rw [hcs, List.intercalate_singleton, List.intercalate_singleton]
          | cons next more =>
              rw [hcs, List.intercalate_cons_cons, List.intercalate_cons_cons]
              rfl
        · rw [List.forall_mem_cons] at hpieces ⊢
          exact ⟨hfirst, hpieces.2⟩

end RecordMapper.Text
