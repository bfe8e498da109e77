import Mathlib.Data.List.Forall2
import RecordMapper.Proofs.Filter.Transport

/-!
# The grammar of filters in transport

A filter is sent as groups of comparisons. `Grammar` says which JSON is a filter, and for
which tree it stands, up to one point: how many operands may stand behind the field of a
comparison. In the grammar as documented each operator has its number. What
is read is laxer, as any number will do (`ofJson_grammar`): operands behind the first
are dropped, and one that an operator needs may be missing, or stand where it
takes none. On JSON whose comparisons all have the number that their operators take,
the two are the same.
-/

namespace RecordMapper

/-! ## Operands -/

mutual

/-- No object stands anywhere in the tree. -/
def Json.ObjectFree : Json → Prop
  | .arr items => Json.AllObjectFree items
  | .obj _ => False
  | _ => True
termination_by structural j => j

def Json.AllObjectFree : List Json → Prop
  | [] => True
  | j :: rest => j.ObjectFree ∧ Json.AllObjectFree rest
termination_by structural l => l

end

mutual

theorem Value.exists_ofJson?_iff : ∀ j : Json,
    (∃ v, Value.ofJson? j = some v) ↔ j.ObjectFree
  | .null => ⟨fun _ => trivial, fun _ => ⟨_, rfl⟩⟩
  | .bool _ => ⟨fun _ => trivial, fun _ => ⟨_, rfl⟩⟩
  | .int _ => ⟨fun _ => trivial, fun _ => ⟨_, rfl⟩⟩
  | .float _ => ⟨fun _ => trivial, fun _ => ⟨_, rfl⟩⟩
  | .str _ => ⟨fun _ => trivial, fun _ => ⟨_, rfl⟩⟩
  | .obj _ => by simp [Value.ofJson?, Json.ObjectFree]
  | .arr items => by
      rw [Json.ObjectFree, ← Value.exists_ofJsonAll?_iff items]
      simp [Value.ofJson?]

theorem Value.exists_ofJsonAll?_iff : ∀ items : List Json,
    (∃ vs, Value.ofJsonAll? items = some vs) ↔ Json.AllObjectFree items
  | [] => ⟨fun _ => trivial, fun _ => ⟨_, rfl⟩⟩
  | j :: rest => by
      rw [Json.AllObjectFree, ← Value.exists_ofJson?_iff j, ← Value.exists_ofJsonAll?_iff rest,
        Value.ofJsonAll?]
      cases Value.ofJson? j <;> cases Value.ofJsonAll? rest <;> simp

end

namespace Filter

/-- How many operands an operator of transport takes behind the field. -/
def operandsTaken (op : String) : Nat :=
  if op = "IS NULL" ∨ op = "IS NOT NULL" then 0 else 1

theorem operandsTaken_le_one (op : String) : operandsTaken op ≤ 1 := by
  rw [operandsTaken]
  split <;> omega

theorem connective?_eq_some_iff {key : String} {c : Connective} :
    connective? key = some c ↔ key = c.keyword := by
  constructor
  · intro h
    unfold connective? at h
    split at h
    · next hand =>
        cases h
        exact hand
    · split at h
      · next hor =>
          cases h
          exact hor
      · cases h
  · rintro rfl
    exact connective?_keyword c

theorem connective?_eq_none_iff {key : String} :
    connective? key = none ↔ ∀ c : Connective, key ≠ c.keyword := by
  simp only [Option.eq_none_iff_forall_ne_some, ne_eq, connective?_eq_some_iff]

theorem Names.ne_keyword {key op : String} (h : Names key op) (c : Connective) :
    key ≠ c.keyword :=
  connective?_eq_none_iff.mp (connective?_of_names h) c

namespace Node

/-! ## The grammar -/

/-- The JSON is a filter and stands for the tree, if an operator may have as many operands
behind the field as `fits` says. The operands of a group are folded to the left. -/
inductive Grammar (fits : String → Nat → Prop) : Json → Node → Prop
  | group {key : String} {c : Connective} {sent : List Json} {first : Node} {rest : List Node} :
      key = c.keyword → sent.length = rest.length + 1 →
      (∀ p ∈ sent.zip (first :: rest), Grammar fits p.1 p.2) →
      Grammar fits (.obj [(key, .arr sent)]) (rest.foldl (.logical c) first)
  | unary {key op field : String} : Names key op → fits op 0 →
      Grammar fits (.obj [(key, .arr [.str field])]) (.unary field op)
  | binary {key op field : String} {operand : Json} {v : Value} {further : List Json} :
      Names key op → Value.ofJson? operand = some v → fits op (further.length + 1) →
      Grammar fits (.obj [(key, .arr (.str field :: operand :: further))]) (.binary field op v)

/-- As documented: one operand behind the field, and none for tests of null. -/
def Documented : Json → Node → Prop :=
  Grammar fun op n => n = operandsTaken op

/-- However many operands stand behind the field. -/
def Lax : Json → Node → Prop :=
  Grammar fun _ _ => True

/-- Somewhere in the JSON of a filter a comparison has this key, and its array has this
field and these operands behind the field. -/
inductive Sends : Json → String → Json → List Json → Prop
  | here {key : String} {field : Json} {operands : List Json} :
      (∀ c : Connective, key ≠ c.keyword) →
      Sends (.obj [(key, .arr (field :: operands))]) key field operands
  | within {key key' : String} {c : Connective} {sent operands : List Json} {field j : Json} :
      key = c.keyword → j ∈ sent → Sends j key' field operands →
      Sends (.obj [(key, .arr sent)]) key' field operands

/-- Each comparison that is sent has a number of operands that fits its operator. -/
def AllSent (fits : String → Nat → Prop) (j : Json) : Prop :=
  ∀ key op field operands, Names key op → Sends j key field operands → fits op operands.length

/-- Each comparison has the operand that its operator takes, and no other. -/
def Complete : Node → Prop
  | .comparison _ operator operand => operand.toList.length = operandsTaken operator
  | .logical _ left right => left.Complete ∧ right.Complete

variable {fits : String → Nat → Prop}

theorem sends_comparison_iff {key key' : String} {field field' : Json}
    {operands operands' : List Json} (hkey : ∀ c : Connective, key ≠ c.keyword) :
    Sends (.obj [(key, .arr (field :: operands))]) key' field' operands'
      ↔ key' = key ∧ field' = field ∧ operands' = operands := by
  constructor
  · intro h
    cases h with
    | here _ => exact ⟨rfl, rfl, rfl⟩
    | within hgroup _ _ => exact absurd hgroup (hkey _)
  · rintro ⟨rfl, rfl, rfl⟩
    exact .here hkey

theorem sends_group_iff {key key' : String} {c : Connective} {field : Json}
    {sent operands : List Json} (hkey : key = c.keyword) :
    Sends (.obj [(key, .arr sent)]) key' field operands
      ↔ ∃ j ∈ sent, Sends j key' field operands := by
  constructor
  · intro h
    cases h with
    | here hnot => exact absurd hkey (hnot c)
    | within _ hmem hsends => exact ⟨_, hmem, hsends⟩
  · rintro ⟨j, hmem, hsends⟩
    exact .within hkey hmem hsends

theorem allSent_comparison_iff {key op : String} {field : Json} {operands : List Json}
    (hname : Names key op) :
    AllSent fits (.obj [(key, .arr (field :: operands))]) ↔ fits op operands.length := by
  constructor
  · intro h
    exact h key op field operands hname (.here hname.ne_keyword)
  · intro hfits key' op' field' operands' hop hsends
    obtain ⟨rfl, -, rfl⟩ := (sends_comparison_iff hname.ne_keyword).mp hsends
    exact hop.unique hname ▸ hfits

theorem allSent_group_iff {key : String} {c : Connective} {sent : List Json}
    (hkey : key = c.keyword) :
    AllSent fits (.obj [(key, .arr sent)]) ↔ ∀ j ∈ sent, AllSent fits j := by
  constructor
  · intro h j hmem key' op field operands hop hsends
    exact h key' op field operands hop (.within hkey hmem hsends)
  · intro h key' op field operands hop hsends
    obtain ⟨j, hmem, hsends⟩ := (sends_group_iff hkey).mp hsends
    exact h j hmem key' op field operands hop hsends

theorem mem_zip_of_mem_left {α β : Type} {as : List α} {bs : List β} {a : α}
    (h : as.length = bs.length) (hmem : a ∈ as) : ∃ b, (a, b) ∈ as.zip bs := by
  rw [← List.map_fst_zip (Nat.le_of_eq h)] at hmem
  obtain ⟨p, hp, rfl⟩ := List.mem_map.mp hmem
  exact ⟨p.2, hp⟩

theorem mem_zip_of_mem_right {α β : Type} {as : List α} {bs : List β} {b : β}
    (h : as.length = bs.length) (hmem : b ∈ bs) : ∃ a, (a, b) ∈ as.zip bs := by
  rw [← List.map_snd_zip (Nat.le_of_eq h.symm)] at hmem
  obtain ⟨p, hp, rfl⟩ := List.mem_map.mp hmem
  exact ⟨p.1, hp⟩

/-- A grammar is the lax one on JSON in which every number of operands fits. -/
theorem grammar_iff_lax {j : Json} {node : Node} :
    Grammar fits j node ↔ Lax j node ∧ AllSent fits j := by
  constructor
  · intro h
    induction h with
    | unary hname hfits => exact ⟨.unary hname trivial, (allSent_comparison_iff hname).mpr hfits⟩
    | binary hname hoperand hfits =>
        exact ⟨.binary hname hoperand trivial, (allSent_comparison_iff hname).mpr hfits⟩
    | group hkey hlength _ ih =>
        refine ⟨.group hkey hlength fun p hp => (ih p hp).1, (allSent_group_iff hkey).mpr ?_⟩
        intro j hmem
        obtain ⟨node, hp⟩ := mem_zip_of_mem_left (hlength.trans List.length_cons.symm) hmem
        exact (ih _ hp).2
  · rintro ⟨h, hsent⟩
    induction h with
    | unary hname _ => exact .unary hname ((allSent_comparison_iff hname).mp hsent)
    | binary hname hoperand _ =>
        exact .binary hname hoperand ((allSent_comparison_iff hname).mp hsent)
    | group hkey hlength _ ih =>
        refine .group hkey hlength fun p hp => ih p hp ?_
        exact (allSent_group_iff hkey).mp hsent p.1 (List.of_mem_zip hp).1

/-! ## What a tree shows of the JSON -/

theorem complete_foldl_logical (c : Connective) : ∀ (rest : List Node) (first : Node),
    (rest.foldl (.logical c) first).Complete ↔ ∀ node ∈ first :: rest, node.Complete
  | [], first => by simp
  | node :: rest, first => by
      rw [List.foldl_cons, complete_foldl_logical c rest, List.forall_mem_cons,
        List.forall_mem_cons, List.forall_mem_cons, Complete, and_assoc]

/-- A tree has the operands that its operators take if and only if those were sent, further
ones behind the first aside. -/
theorem Lax.complete_iff {j : Json} {node : Node} (h : Lax j node) :
    node.Complete ↔ AllSent (fun op n => min n 1 = operandsTaken op) j := by
  induction h with
  | unary hname _ | binary hname _ _ =>
      rw [allSent_comparison_iff hname]
      simp [unary, binary, Complete]
  | @group key c sent first rest hkey hlength _ ih =>
      have hpair : sent.length = (first :: rest).length := hlength.trans List.length_cons.symm
      rw [complete_foldl_logical, allSent_group_iff hkey]
      constructor
      · intro hall j hmem
        obtain ⟨node, hp⟩ := mem_zip_of_mem_left hpair hmem
        exact (ih _ hp).mp (hall node (List.of_mem_zip hp).2)
      · intro hall node hmem
        obtain ⟨j, hp⟩ := mem_zip_of_mem_right hpair hmem
        exact (ih _ hp).mpr (hall j (List.of_mem_zip hp).1)

theorem fields_foldl_logical (c : Connective) : ∀ (rest : List Node) (first : Node),
    (rest.foldl (.logical c) first).fields = first.fields ++ rest.flatMap fields
  | [], first => (List.append_nil _).symm
  | node :: rest, first => by
      rw [List.foldl_cons, fields_foldl_logical c rest, fields, List.flatMap_cons,
        List.append_assoc]

/-- The fields of a tree are those that were sent. -/
theorem Lax.mem_fields_iff {j : Json} {node : Node} (h : Lax j node) {field : String} :
    field ∈ node.fields ↔ ∃ key operands, Sends j key (.str field) operands := by
  induction h with
  | unary hname _ | binary hname _ _ =>
      show field ∈ [_] ↔ _
      rw [List.mem_singleton]
      constructor
      · rintro rfl
        exact ⟨_, _, .here hname.ne_keyword⟩
      · rintro ⟨key, operands, hsends⟩
        obtain ⟨-, hfield, -⟩ := (sends_comparison_iff hname.ne_keyword).mp hsends
        exact Json.str.inj hfield
  | @group key c sent first rest hkey hlength _ ih =>
      have hpair : sent.length = (first :: rest).length := hlength.trans List.length_cons.symm
      rw [fields_foldl_logical, ← List.flatMap_cons, List.mem_flatMap]
      constructor
      · rintro ⟨node, hnode, hfield⟩
        obtain ⟨j, hp⟩ := mem_zip_of_mem_right hpair hnode
        obtain ⟨key', operands, hsends⟩ := (ih (j, node) hp).mp hfield
        exact ⟨key', operands, .within hkey (List.of_mem_zip hp).1 hsends⟩
      · rintro ⟨key', operands, hsends⟩
        obtain ⟨j, hmem, hsends⟩ := (sends_group_iff hkey).mp hsends
        obtain ⟨node, hp⟩ := mem_zip_of_mem_left hpair hmem
        exact ⟨node, (List.of_mem_zip hp).2, (ih (j, node) hp).mpr ⟨key', operands, hsends⟩⟩

/-! ## What is read -/

theorem ofOperands_eq_ok_iff {key : String} {operands : List Json} {node : Node} :
    ofOperands key operands = .ok node ↔ ∃ op field, Names key op
      ∧ ((operands = [.str field] ∧ node = .unary field op)
        ∨ ∃ operand v further, operands = .str field :: operand :: further
          ∧ Value.ofJson? operand = some v ∧ node = .binary field op v) := by
  constructor
  · intro h
    unfold ofOperands at h
    split at h
    · cases h
    · next op hop =>
        have hname := operator?_eq_some_iff.mp hop
        split at h
        · next field rest =>
            split at h
            · cases h
              exact ⟨op, field, hname, .inl ⟨rfl, rfl⟩⟩
            · next operand further =>
                split at h
                · next v hv =>
                    cases h
                    exact ⟨op, field, hname, .inr ⟨operand, v, further, rfl, hv, rfl⟩⟩
                · cases h
        · cases h
  · rintro ⟨op, field, hname, ⟨rfl, rfl⟩ | ⟨operand, v, further, rfl, hv, rfl⟩⟩
    · simp only [ofOperands, operator?_eq_some_iff.mpr hname]
    · simp only [ofOperands, operator?_eq_some_iff.mpr hname, hv]

/-- What is read of an array is read of its items. -/
abbrev ReadAll : List Json → List Node → Prop :=
  List.Forall₂ fun j node => ofJson j = .ok node

theorem ofMore_eq_ok_iff {c : Connective} {node : Node} : ∀ {sent : List Json} {left : Node},
    ofMore c left sent = .ok node ↔ ∃ rest, ReadAll sent rest ∧ node = rest.foldl (.logical c) left
  | [], left => by
      simp only [ofMore, List.forall₂_nil_left_iff, exists_eq_left, List.foldl_nil,
        Except.ok.injEq, eq_comm]
  | j :: sent, left => by
      rw [ofMore]
      constructor
      · intro h
        split at h
        · cases h
        · next right hj =>
            obtain ⟨rest, hrest, hnode⟩ := ofMore_eq_ok_iff.mp h
            exact ⟨right :: rest, .cons hj hrest, hnode⟩
      · rintro ⟨rest, hrest, hnode⟩
        cases hrest with
        | cons hj hrest =>
            simp only [hj]
            exact ofMore_eq_ok_iff.mpr ⟨_, hrest, hnode⟩

theorem ofGroup_eq_ok_iff {c : Connective} {key : String} {sent : List Json} {node : Node} :
    ofGroup c key sent = .ok node
      ↔ ∃ first rest, ReadAll sent (first :: rest) ∧ node = rest.foldl (.logical c) first := by
  cases sent with
  | nil =>
      constructor
      · intro h
        rw [ofGroup] at h
        cases h
      · rintro ⟨first, rest, hsent, -⟩
        cases hsent
  | cons j sent =>
      rw [ofGroup]
      constructor
      · intro h
        split at h
        · cases h
        · next first hj =>
            obtain ⟨rest, hrest, hnode⟩ := ofMore_eq_ok_iff.mp h
            exact ⟨first, rest, .cons hj hrest, hnode⟩
      · rintro ⟨first, rest, hsent, hnode⟩
        cases hsent with
        | cons hj hrest =>
            simp only [hj]
            exact ofMore_eq_ok_iff.mpr ⟨rest, hrest, hnode⟩

theorem ofJson_eq_ok_iff {j : Json} {node : Node} :
    ofJson j = .ok node ↔ ∃ key operands, j = .obj [(key, .arr operands)]
      ∧ ((∃ c : Connective, key = c.keyword ∧ ∃ first rest, ReadAll operands (first :: rest)
          ∧ node = rest.foldl (.logical c) first)
        ∨ ((∀ c : Connective, key ≠ c.keyword) ∧ ofOperands key operands = .ok node)) := by
  constructor
  · intro h
    unfold ofJson at h
    split at h
    · next key operands =>
        refine ⟨key, operands, rfl, ?_⟩
        split at h
        · next c hc =>
            exact .inl ⟨c, connective?_eq_some_iff.mp hc, ofGroup_eq_ok_iff.mp h⟩
        · next hnone => exact .inr ⟨connective?_eq_none_iff.mp hnone, h⟩
    all_goals cases h
  · rintro ⟨key, operands, rfl, ⟨c, hkey, hread⟩ | ⟨hkey, hread⟩⟩
    · rw [ofJson_comparison, connective?_eq_some_iff.mpr hkey]
      exact ofGroup_eq_ok_iff.mpr hread
    · rw [ofJson_comparison, connective?_eq_none_iff.mpr hkey]
      exact hread

theorem readAll_of_grammar {sent : List Json} {nodes : List Node}
    (hlength : sent.length = nodes.length) (h : ∀ p ∈ sent.zip nodes, ofJson p.1 = .ok p.2) :
    ReadAll sent nodes :=
  List.forall₂_iff_zip.mpr ⟨hlength, fun hmem => h _ hmem⟩

theorem Lax.ofJson {j : Json} {node : Node} (h : Lax j node) : ofJson j = .ok node := by
  induction h with
  | unary hname _ =>
      refine ofJson_eq_ok_iff.mpr ⟨_, _, rfl, .inr ⟨hname.ne_keyword, ?_⟩⟩
      exact ofOperands_eq_ok_iff.mpr ⟨_, _, hname, .inl ⟨rfl, rfl⟩⟩
  | binary hname hoperand _ =>
      refine ofJson_eq_ok_iff.mpr ⟨_, _, rfl, .inr ⟨hname.ne_keyword, ?_⟩⟩
      exact ofOperands_eq_ok_iff.mpr ⟨_, _, hname, .inr ⟨_, _, _, rfl, hoperand, rfl⟩⟩
  | group hkey hlength _ ih =>
      have hread := readAll_of_grammar (hlength.trans List.length_cons.symm) ih
      exact ofJson_eq_ok_iff.mpr ⟨_, _, rfl, .inl ⟨_, hkey, _, _, hread, rfl⟩⟩

theorem lax_of_ofJson (j : Json) (node : Node) (h : ofJson j = .ok node) : Lax j node := by
  obtain ⟨key, operands, hj, ⟨c, hkey, first, rest, hread, rfl⟩ | ⟨-, hread⟩⟩ :=
    ofJson_eq_ok_iff.mp h
  · obtain ⟨hlength, hzip⟩ := List.forall₂_iff_zip.mp hread
    rw [hj]
    refine .group hkey (hlength.trans List.length_cons) fun p hp => ?_
    -- the items are smaller than the JSON, but only membership is known of them
    have hmem : p.1 ∈ operands := (List.of_mem_zip hp).1
    exact lax_of_ofJson p.1 p.2 (hzip hp)
  · obtain ⟨op, field, hname, ⟨rfl, rfl⟩ | ⟨operand, v, further, rfl, hv, rfl⟩⟩ :=
      ofOperands_eq_ok_iff.mp hread
    · exact hj ▸ .unary hname trivial
    · exact hj ▸ .binary hname hv trivial
termination_by sizeOf j
decreasing_by
  have hsize := List.sizeOf_lt_of_mem hmem
  simp [hj]
  omega

/-- What is read is the lax grammar, each filter as the tree that it stands for. It is
read as documented if and only if each comparison that was sent has the operands that its
operator takes, and then so do those of the tree. A tree may have them though more were
sent: these are the comparisons whose further operands are dropped. -/
theorem ofJson_grammar (j : Json) :
    (∀ node, ofJson j = .ok node ↔ Lax j node)
      ∧ (∀ node, Documented j node
        ↔ ofJson j = .ok node ∧ AllSent (fun op n => n = operandsTaken op) j)
      ∧ (∀ node, Documented j node → node.Complete)
      ∧ (∀ node, ofJson j = .ok node →
        (node.Complete ↔ AllSent (fun op n => min n 1 = operandsTaken op) j))
      ∧ ((∃ v, Value.ofJson? j = some v) ↔ j.ObjectFree) := by
  have hread : ∀ node, ofJson j = .ok node ↔ Lax j node :=
    fun node => ⟨lax_of_ofJson j node, Lax.ofJson⟩
  refine ⟨hread, fun node => ?_, fun node h => ?_, fun node h => ((hread node).mp h).complete_iff,
    Value.exists_ofJson?_iff j⟩
  · rw [Documented, grammar_iff_lax, hread]
  · obtain ⟨hlax, hsent⟩ := grammar_iff_lax.mp h
    refine hlax.complete_iff.mpr fun key op field operands hop hsends => ?_
    rw [hsent key op field operands hop hsends]
    exact Nat.min_eq_left (operandsTaken_le_one op)

/-- `=` is read with two operands, the second of which is dropped, and with none; a test of
null is read with one. In the grammar as documented none of these is a filter. -/
theorem ofJson_of_other_count :
    let two : Json := .obj [("=", .arr [.str "a", .int 1, .int 2])]
    let bare : Json := .obj [("=", .arr [.str "a"])]
    let one : Json := .obj [("IS NULL", .arr [.str "a", .int 1])]
    (ofJson two = .ok (.binary "a" "=" (.int 1)) ∧ ∀ node, ¬ Documented two node)
      ∧ (ofJson bare = .ok (.unary "a" "=") ∧ ∀ node, ¬ Documented bare node)
      ∧ (ofJson one = .ok (.binary "a" "IS NULL" (.int 1)) ∧ ∀ node, ¬ Documented one node) := by
  have hequal : Names "=" "=" := names_self_iff.mpr (by decide)
  have htest : Names "IS NULL" "IS NULL" := names_self_iff.mpr (by decide)
  have hcount : ∀ {op : String} {operands : List Json} {node : Node}, Names op op →
      Documented (.obj [(op, .arr (.str "a" :: operands))]) node →
      operands.length = operandsTaken op := by
    intro op operands node hop h
    exact (allSent_comparison_iff hop).mp (grammar_iff_lax.mp h).2
  refine ⟨⟨Lax.ofJson (.binary hequal rfl trivial), fun node h => ?_⟩,
    ⟨Lax.ofJson (.unary hequal trivial), fun node h => ?_⟩,
    ⟨Lax.ofJson (.binary htest rfl trivial), fun node h => ?_⟩⟩
  · exact absurd (hcount hequal h) (by decide)
  · exact absurd (hcount hequal h) (by decide)
  · exact absurd (hcount htest h) (by decide)

end Node

end Filter

end RecordMapper
