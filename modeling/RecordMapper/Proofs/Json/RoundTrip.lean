import RecordMapper.Proofs.Json.Scalars

/-!
# Reading back printed trees

A printed tree without doubles is read back as it was, and it is refused exactly
when more containers enclose one another in it than the reader has an allowance
for. Arrays and objects share one argument: both print their parts with commas
between them and a closing bracket behind them, and one reader takes such a row
apart (`contents_listed`).
-/

namespace RecordMapper.Json

open Text

/-! ## Nesting -/

mutual

/-- How many containers of a tree enclose one another, at most. -/
def nesting : Json → Nat
  | .arr items => nestingAll items + 1
  | .obj members => nestingMembers members + 1
  | _ => 0
termination_by structural j => j

def nestingAll : List Json → Nat
  | [] => 0
  | j :: rest => max (nesting j) (nestingAll rest)
termination_by structural l => l

def nestingMembers : List (String × Json) → Nat
  | [] => 0
  | (_, j) :: rest => max (nesting j) (nestingMembers rest)
termination_by structural l => l

end

theorem nestingAll_le_iff {d : Nat} : ∀ {items : List Json},
    nestingAll items ≤ d ↔ ∀ j ∈ items, j.nesting ≤ d
  | [] => by simp [nestingAll]
  | j :: rest => by
      rw [nestingAll, Nat.max_le, nestingAll_le_iff, List.forall_mem_cons]

theorem nestingMembers_le_iff {d : Nat} : ∀ {members : List (String × Json)},
    nestingMembers members ≤ d ↔ ∀ m ∈ members, m.2.nesting ≤ d
  | [] => by simp [nestingMembers]
  | (key, j) :: rest => by
      rw [nestingMembers, Nat.max_le, nestingMembers_le_iff, List.forall_mem_cons]

/-! ## Trees that the reader gives back -/

mutual

/-- No doubles, integers of 64 bits, and members in the order of their keys. -/
def Exact : Json → Prop
  | .int i => IsWord i
  | .float _ => False
  | .arr items => ExactAll items
  | .obj members => sortMembers members = members ∧ ExactMembers members
  | _ => True
termination_by structural j => j

def ExactAll : List Json → Prop
  | [] => True
  | j :: rest => Exact j ∧ ExactAll rest
termination_by structural l => l

def ExactMembers : List (String × Json) → Prop
  | [] => True
  | (_, j) :: rest => Exact j ∧ ExactMembers rest
termination_by structural l => l

end

theorem exactAll_iff : ∀ {items : List Json}, ExactAll items ↔ ∀ j ∈ items, j.Exact
  | [] => by simp [ExactAll]
  | j :: rest => by rw [ExactAll, exactAll_iff, List.forall_mem_cons]

theorem exactMembers_iff : ∀ {members : List (String × Json)},
    ExactMembers members ↔ ∀ m ∈ members, m.2.Exact
  | [] => by simp [ExactMembers]
  | (key, j) :: rest => by rw [ExactMembers, exactMembers_iff, List.forall_mem_cons]

/-! ## Rows of texts -/

/-- The rest of a row behind its first text: commas between the texts and a closing
character behind them. -/
def listedMore (close : Char) : List (List Char) → List Char
  | [] => [close]
  | text :: rest => ',' :: (text ++ listedMore close rest)

def printMember (m : String × Json) : List Char :=
  printString m.1 ++ ':' :: print m.2

theorem printMoreItems_eq : ∀ items : List Json,
    printMoreItems items = listedMore ']' (items.map print)
  | [] => rfl
  | j :: rest => by rw [printMoreItems, printMoreItems_eq rest, List.map_cons, listedMore]

theorem printMoreMembers_eq : ∀ members : List (String × Json),
    printMoreMembers members = listedMore '}' (members.map printMember)
  | [] => rfl
  | (key, j) :: rest => by
      rw [printMoreMembers, printMoreMembers_eq rest, List.map_cons, listedMore, printMember,
        List.append_assoc, List.cons_append]

namespace Parser

variable {α : Type} {item : Reader α} {close : Char} {shown : α → List Char} {good : α → Prop}
  [DecidablePred good]

theorem skipBlanks_cons {c : Char} (h : isBlank c = false) (rest : List Char) :
    skipBlanks (c :: rest) = c :: rest := by
  rw [skipBlanks, List.dropWhile_cons_of_neg (by simp [h])]

/-- A character that may close a row: it ends a number, and is neither blank nor comma. -/
def Closes (close : Char) : Prop :=
  EndsNumber [close] ∧ isBlank close = false ∧ close ≠ ','

/-- A text that starts with a character that neither is blank nor closes the row. -/
def Opens (close : Char) (text : List Char) : Prop :=
  ∃ c rest, text = c :: rest ∧ isBlank c = false ∧ c ≠ close

variable (item shown good) in
/-- `item` gives back each part of a row that is `good`, and refuses the others. -/
def Rereads (parts : List α) : Prop :=
  ∀ x ∈ parts, ∀ rest, EndsNumber rest →
    item (shown x ++ rest) = if good x then some (x, rest) else none

theorem endsNumber_listedMore (hclose : Closes close) (texts : List (List Char))
    (rest : List Char) : EndsNumber (listedMore close texts ++ rest) := by
  cases texts with
  | nil => exact hclose.1
  | cons text more => exact ⟨by decide, by decide, by decide, by decide⟩

theorem separated_listedMore (hclose : Closes close) (rest : List Char) :
    ∀ (n : Nat) (x : α) (more : List α), Rereads item shown good (x :: more) →
      more.length < n →
      separated item close n (shown x ++ (listedMore close (more.map shown) ++ rest))
        = if ∀ y ∈ x :: more, good y then some (x :: more, rest) else none
  | n + 1, x, more, hitem, hn => by
      have hx := hitem x List.mem_cons_self (listedMore close (more.map shown) ++ rest)
        (endsNumber_listedMore hclose _ rest)
      rw [separated, hx]
      by_cases hgood : good x
      · rw [if_pos hgood, Option.bind_eq_bind, Option.bind_some]
        cases more with
        | nil => simp [listedMore, skipBlanks_cons hclose.2.1, hgood]
        | cons y more =>
            have hcomma : isBlank ',' = false := by decide
            have hne : ¬ ',' = close := fun h => hclose.2.2 h.symm
            have ih := separated_listedMore hclose rest n y more
              (fun z hz => hitem z (List.mem_cons_of_mem x hz)) (by simpa using hn)
            have hall : (∀ z ∈ x :: y :: more, good z) ↔ ∀ z ∈ y :: more, good z :=
              List.forall_mem_cons.trans (and_iff_right hgood)
            simp only [List.map_cons, listedMore, List.cons_append, List.append_assoc,
              skipBlanks_cons hcomma, if_neg hne, if_true, ih, hall]
            split <;> rfl
      · have hall : ¬ ∀ z ∈ x :: more, good z := fun h => hgood (h x List.mem_cons_self)
        rw [if_neg hgood, if_neg hall]
        rfl

theorem contents_close (hclose : Closes close) (rest : List Char) :
    contents item close (close :: rest) = some ([], rest) := by
  simp [contents, skipBlanks_cons hclose.2.1]

/-- A row of at least one part is taken apart again if all its parts are good. -/
theorem contents_listed (hclose : Closes close) {x : α} {more : List α}
    (hopens : Opens close (shown x)) (hitem : Rereads item shown good (x :: more))
    (rest : List Char) :
    contents item close (shown x ++ (listedMore close (more.map shown) ++ rest))
      = if ∀ y ∈ x :: more, good y then some (x :: more, rest) else none := by
  have hlong : ∀ l : List α, l.length < (listedMore close (l.map shown)).length := by
    intro l
    induction l with
    | nil => simp [listedMore]
    | cons y l ih =>
        simp only [List.map_cons, listedMore, List.length_cons, List.length_append]
        omega
  have hfuel : more.length
      < (shown x ++ (listedMore close (more.map shown) ++ rest)).length := by
    have h := hlong more
    simp only [List.length_append]
    omega
  have hsep := separated_listedMore hclose rest _ x more hitem hfuel
  obtain ⟨c, tail, hshown, hblank, hne⟩ := hopens
  rw [← hsep, hshown, contents, List.cons_append, skipBlanks_cons hblank]
  simp only [if_neg hne]

/-! ## Values -/

/-- What the reader makes of a scalar does not depend on its allowance. -/
theorem value_of_scalar {c : Char} (hblank : isBlank c = false) (harr : c ≠ '[') (hobj : c ≠ '{')
    (d : Nat) (rest : List Char) : value d (c :: rest) = scalar (c :: rest) := by
  cases d with
  | zero => rw [value, skipBlanks_cons hblank]
  | succ d =>
      rw [value, skipBlanks_cons hblank]
      split
      · next h => exact absurd (List.cons.inj h).1 harr
      · next h => exact absurd (List.cons.inj h).1 hobj
      · rfl

/-- No container is read once the allowance is used up. -/
theorem value_zero_container {c : Char} (hc : c = '[' ∨ c = '{') (rest : List Char) :
    value 0 (c :: rest) = none := by
  rcases hc with rfl | rfl <;> rfl

theorem printInt_head (i : Int) :
    ∃ c rest, printInt i = c :: rest ∧ (c = '-' ∨ Decimal.isDigit c = true) := by
  rw [printInt]
  split
  · exact ⟨'-', _, rfl, Or.inl rfl⟩
  · cases hds : Nat.toDigits 10 i.natAbs with
    | nil => exact absurd hds Nat.toDigits_ne_nil
    | cons c rest =>
        have hmem : c ∈ Nat.toDigits 10 i.natAbs := hds ▸ List.mem_cons_self
        exact ⟨c, rest, rfl, Or.inr (Number.isDigit_of_mem_toDigits hmem)⟩

/-- A sign or a digit is told from every character that starts something else. -/
theorem ne_of_number_head {c other : Char} (hc : c = '-' ∨ Decimal.isDigit c = true)
    (hother : other ≠ '-' ∧ Decimal.isDigit other = false) : c ≠ other := by
  rintro rfl
  rcases hc with hminus | hdigit
  · exact hother.1 hminus
  · rw [hother.2] at hdigit
    cases hdigit

theorem isBlank_of_number_head {c : Char} (hc : c = '-' ∨ Decimal.isDigit c = true) :
    isBlank c = false := by
  have hne : ∀ other : Char, other ≠ '-' ∧ Decimal.isDigit other = false → c ≠ other :=
    fun _ => ne_of_number_head hc
  simp [isBlank, hne ' ' (by decide), hne '\t' (by decide), hne '\n' (by decide),
    hne '\r' (by decide)]

theorem value_printInt {i : Int} (hi : IsWord i) (d : Nat) {rest : List Char}
    (hrest : EndsNumber rest) : value d (printInt i ++ rest) = some (.int i, rest) := by
  have hread := Number.read_printInt hi hrest
  obtain ⟨c, tail, hprint, hc⟩ := printInt_head i
  rw [hprint, List.cons_append] at hread ⊢
  have hne : ∀ other : Char, other ≠ '-' ∧ Decimal.isDigit other = false → c ≠ other :=
    fun _ => ne_of_number_head hc
  rw [value_of_scalar (isBlank_of_number_head hc) (hne '[' (by decide)) (hne '{' (by decide)), scalar,
    if_neg (hne '"' (by decide)), if_neg (hne 'n' (by decide)), if_neg (hne 't' (by decide)),
    if_neg (hne 'f' (by decide)), hread]

theorem print_opens {j : Json} (hj : j.Exact) : Opens ']' (print j) := by
  cases j with
  | null => exact ⟨'n', _, rfl, by decide, by decide⟩
  | bool b => cases b <;> exact ⟨_, _, rfl, by decide, by decide⟩
  | int i =>
      obtain ⟨c, tail, hprint, hc⟩ := printInt_head i
      exact ⟨c, tail, by rw [print, hprint], isBlank_of_number_head hc,
        ne_of_number_head hc (by decide)⟩
  | float x => exact hj.elim
  | str s => exact ⟨'"', _, rfl, by decide, by decide⟩
  | arr items => exact ⟨'[', _, rfl, by decide, by decide⟩
  | obj members => exact ⟨'{', _, rfl, by decide, by decide⟩

theorem printMember_opens (m : String × Json) : Opens '}' (printMember m) :=
  ⟨'"', _, rfl, by decide, by decide⟩

theorem member_printed {d : Nat} {m : String × Json} {rest : List Char}
    (h : value d (print m.2 ++ rest)
      = if m.2.nesting ≤ d then some (m.2, rest) else none) :
    member (value d) (printMember m ++ rest)
      = if m.2.nesting ≤ d then some (m, rest) else none := by
  have hquote : isBlank '"' = false := by decide
  have hcolon : isBlank ':' = false := by decide
  have hkey := string_printed m.1 (':' :: (print m.2 ++ rest))
  rw [printMember, printString, List.append_assoc]
  simp only [List.cons_append, List.append_assoc, List.nil_append, member, skipBlanks_cons hquote,
    hkey, Option.bind_eq_bind, Option.bind_some, skipBlanks_cons hcolon, h]
  split <;> rfl

/-- A value without containers is read back whatever the allowance is. -/
theorem value_print_scalar {j : Json} (hj : j.Exact) (hflat : j.nesting = 0) (d : Nat)
    {rest : List Char} (hrest : EndsNumber rest) : value d (print j ++ rest) = some (j, rest) := by
  cases j with
  | null => exact value_of_scalar (by decide) (by decide) (by decide) d _
  | bool b => cases b <;> exact value_of_scalar (by decide) (by decide) (by decide) d _
  | int i => exact value_printInt hj d hrest
  | float x => exact hj.elim
  | str s =>
      rw [print, printString, List.cons_append, List.append_assoc, List.singleton_append,
        value_of_scalar (by decide) (by decide) (by decide), scalar, if_pos rfl, string_printed]
      rfl
  | arr items => exact absurd hflat (Nat.succ_ne_zero _)
  | obj members => exact absurd hflat (Nat.succ_ne_zero _)

theorem closes_bracket : Closes ']' :=
  ⟨⟨by decide, by decide, by decide, by decide⟩, by decide, by decide⟩

theorem closes_brace : Closes '}' :=
  ⟨⟨by decide, by decide, by decide, by decide⟩, by decide, by decide⟩

theorem value_print_arr {d : Nat} {items : List Json} (hopens : ∀ j ∈ items, Opens ']' (print j))
    (hitems : Rereads (value d) print (fun j => j.nesting ≤ d) items) (rest : List Char) :
    value (d + 1) (print (.arr items) ++ rest)
      = if (Json.arr items).nesting ≤ d + 1 then some (.arr items, rest) else none := by
  have hvalue : ∀ cs, value (d + 1) ('[' :: cs)
      = (contents (value d) ']' cs).map fun found => (.arr found.1, found.2) := fun _ => rfl
  have hdeep : (Json.arr items).nesting ≤ d + 1 ↔ ∀ j ∈ items, j.nesting ≤ d := by
    rw [nesting, Nat.add_le_add_iff_right, nestingAll_le_iff]
  simp only [hdeep]
  rw [print, List.cons_append, hvalue]
  cases items with
  | nil =>
      rw [printItems, List.singleton_append, contents_close closes_bracket, if_pos (by simp)]
      rfl
  | cons j more =>
      rw [printItems, printMoreItems_eq, List.append_assoc,
        contents_listed closes_bracket (hopens j List.mem_cons_self) hitems]
      split <;> rfl

theorem value_print_obj {d : Nat} {members : List (String × Json)}
    (hsorted : sortMembers members = members)
    (hmembers : Rereads (member (value d)) printMember (fun m => m.2.nesting ≤ d) members)
    (rest : List Char) :
    value (d + 1) (print (.obj members) ++ rest)
      = if (Json.obj members).nesting ≤ d + 1 then some (.obj members, rest) else none := by
  have hvalue : ∀ cs, value (d + 1) ('{' :: cs)
      = (contents (member (value d)) '}' cs).map fun found =>
          (Json.object found.1, found.2) := fun _ => rfl
  have hdeep : (Json.obj members).nesting ≤ d + 1 ↔ ∀ m ∈ members, m.2.nesting ≤ d := by
    rw [nesting, Nat.add_le_add_iff_right, nestingMembers_le_iff]
  simp only [hdeep]
  rw [print, List.cons_append, hvalue]
  cases members with
  | nil =>
      rw [printMembers, List.singleton_append, contents_close closes_brace, if_pos (by simp)]
      rfl
  | cons m more =>
      obtain ⟨key, j⟩ := m
      have hprint : printMembers ((key, j) :: more)
          = printMember (key, j) ++ listedMore '}' (more.map printMember) := by
        rw [printMembers, printMoreMembers_eq, printMember, List.append_assoc, List.cons_append]
      rw [hprint, List.append_assoc,
        contents_listed closes_brace (printMember_opens (key, j)) hmembers]
      split
      · show some (Json.obj (sortMembers ((key, j) :: more)), rest) = _
        rw [hsorted]
      · rfl

/-- With an allowance of `d` containers, the reader gives a printed tree back, or refuses it
because more of them enclose one another. -/
theorem value_print (d : Nat) {j : Json} (hj : j.Exact) {rest : List Char}
    (hrest : EndsNumber rest) :
    value d (print j ++ rest) = if j.nesting ≤ d then some (j, rest) else none := by
  by_cases hflat : j.nesting = 0
  · rw [if_pos (by omega), value_print_scalar hj hflat d hrest]
  -- the reader recurses on its allowance, not on the tree
  induction d generalizing j rest with
  | zero =>
      rw [if_neg (by omega)]
      cases j with
      | arr items => exact value_zero_container (Or.inl rfl) _
      | obj members => exact value_zero_container (Or.inr rfl) _
      | _ => exact absurd rfl hflat
  | succ d ih =>
      have hread : ∀ {k : Json}, k.Exact → ∀ rest, EndsNumber rest →
          value d (print k ++ rest) = if k.nesting ≤ d then some (k, rest) else none := by
        intro k hk rest hrest
        by_cases hkflat : k.nesting = 0
        · rw [if_pos (by omega), value_print_scalar hk hkflat d hrest]
        · exact ih hk hrest hkflat
      cases j with
      | arr items =>
          have hitems := exactAll_iff.mp hj
          exact value_print_arr (fun k hk => print_opens (hitems k hk))
            (fun k hk => hread (hitems k hk)) rest
      | obj members =>
          have hvalues := exactMembers_iff.mp hj.2
          exact value_print_obj hj.1
            (fun m hm rest hrest => member_printed (hread (hvalues m hm) rest hrest)) rest
      | _ => exact absurd rfl hflat

end Parser

/-- Printing and reading a tree without doubles gives the tree back, unless it is nested too
deeply to be read. -/
theorem parse?_print {j : Json} (hj : j.Exact) :
    parse? (print j) = if j.nesting ≤ Parser.maxNesting then some j else none := by
  have hvalue : Parser.value Parser.maxNesting (print j ++ [])
      = if j.nesting ≤ Parser.maxNesting then some (j, []) else none :=
    Parser.value_print Parser.maxNesting hj trivial
  rw [List.append_nil] at hvalue
  rw [parse?, hvalue]
  by_cases hdeep : j.nesting ≤ Parser.maxNesting
  · simp [hdeep, Parser.skipBlanks]
  · simp [hdeep]

end RecordMapper.Json
