import RecordMapper.Filter.Transport
import RecordMapper.Proofs.Filter.Tree
import RecordMapper.Proofs.Text.Base64
import RecordMapper.Proofs.Value.Json

/-!
# What transport does to a filter

Encoding fails for one reason only, a double that is not finite. What it writes
for a filter without doubles is read back in one of two ways: as the filter with
its operators in the spelling of `operators`, or with an error. The second
happens when an operator is none of these, also when it reads as the name of a
group, and when the tree is too high for the JSON reader.
-/

namespace RecordMapper.Filter

open Text

/-! ## Operators -/

/-- `key` names the operator `op` of transport, blanks around it and case aside. -/
def Names (key op : String) : Prop :=
  op ∈ operators ∧ foldCase op = foldCase (trim key)

theorem foldCase_inj_operators {op op' : String} (h : op ∈ operators) (h' : op' ∈ operators)
    (hfold : foldCase op = foldCase op') : op = op' := by
  have hall : ∀ a ∈ operators, ∀ b ∈ operators, foldCase a = foldCase b → a = b := by
    decide +kernel
  exact hall op h op' h' hfold

theorem Names.unique {key op op' : String} (h : Names key op) (h' : Names key op') : op = op' :=
  foldCase_inj_operators h.1 h'.1 (h.2.trans h'.2.symm)

theorem operator?_eq_some_iff {key op : String} : operator? key = some op ↔ Names key op := by
  have hsome : ∀ {op'}, operator? key = some op' → Names key op' := by
    intro op' h
    have hword := List.find?_some h
    exact ⟨List.mem_of_find?_eq_some h, by simpa [sameWord] using hword⟩
  refine ⟨hsome, fun h => ?_⟩
  cases hfind : operator? key with
  | none =>
      have hno := List.find?_eq_none.mp hfind op h.1
      exact absurd (by simp [sameWord, h.2]) hno
  | some op' => rw [(hsome hfind).unique h]

/-- The name of a group names no operator. -/
theorem not_names_keyword (c : Connective) (op : String) : ¬ Names c.keyword op := by
  have hall : ∀ op ∈ operators, ∀ word ∈ ["AND", "OR"],
      foldCase op ≠ foldCase (trim word) := by decide +kernel
  rintro ⟨hop, hfold⟩
  exact hall op hop c.keyword (by cases c <;> simp [Connective.keyword]) hfold

theorem connective?_of_names {key op : String} (h : Names key op) : connective? key = none := by
  have hand : ¬ key = "AND" := by
    rintro rfl
    exact not_names_keyword .and op h
  have hor : ¬ key = "OR" := by
    rintro rfl
    exact not_names_keyword .or op h
  rw [connective?, if_neg hand, if_neg hor]

theorem names_self_iff {op : String} : Names op op ↔ op ∈ operators := by
  have htrim : ∀ op ∈ operators, foldCase op = foldCase (trim op) := by decide +kernel
  exact ⟨fun h => h.1, fun h => ⟨h, htrim op h⟩⟩

theorem connective?_keyword (op : Connective) : connective? op.keyword = some op := by
  cases op <;> decide

/-! ## Trees -/

namespace Node

/-- The doubles of the operands from left to right, also those inside lists. -/
def floats : Node → List Float
  | .comparison _ _ operand => operand.elim [] Value.floats
  | .logical _ left right => left.floats ++ right.floats

/-- The tree with every operator spelt as `spell` has it. -/
def respell (spell : String → String) : Node → Node
  | .comparison field operator operand => .comparison field (spell operator) operand
  | .logical op left right => .logical op (left.respell spell) (right.respell spell)

/-- Containers along the deepest path: an object and an array for each node, and one
more for each list around an operand. -/
def nesting : Node → Nat
  | .comparison _ _ operand => operand.elim 0 Value.nesting + 2
  | .logical _ left right => max left.nesting right.nesting + 2

theorem nonFinite?_eq_none_iff (node : Node) :
    node.nonFinite? = none ↔ ∀ x ∈ node.floats, x.isFinite = true := by
  induction node with
  | comparison field operator operand =>
      cases operand with
      | none => simp [nonFinite?, floats]
      | some v => simp [nonFinite?, floats, Value.nonFinite?_eq_find?]
  | logical op left right ihl ihr =>
      rw [floats, List.forall_mem_append, ← ihl, ← ihr, nonFinite?]
      cases left.nonFinite? <;> simp

theorem exact_toJson {node : Node} (h : node.floats = []) : node.toJson.Exact := by
  induction node with
  | comparison field operator operand =>
      cases operand with
      | none => exact ⟨rfl, ⟨trivial, trivial⟩, trivial⟩
      | some v => exact ⟨rfl, ⟨trivial, Value.exact_toJson h, trivial⟩, trivial⟩
  | logical op left right ihl ihr =>
      rw [floats, List.append_eq_nil_iff] at h
      exact ⟨rfl, ⟨ihl h.1, ihr h.2, trivial⟩, trivial⟩

theorem nesting_toJson {node : Node} (h : node.floats = []) :
    node.toJson.nesting = node.nesting := by
  induction node with
  | comparison field operator operand =>
      cases operand with
      | none => rfl
      | some v =>
          have hv := Value.nesting_toJson (v := v) h
          simp [toJson, nesting, Json.nesting, Json.nestingMembers, Json.nestingAll, hv]
  | logical op left right ihl ihr =>
      rw [floats, List.append_eq_nil_iff] at h
      simp [toJson, nesting, Json.nesting, Json.nestingMembers, Json.nestingAll, ihl h.1,
        ihr h.2]

/-! ## Reading trees -/

theorem ofJson_comparison (key : String) (operands : List Json) :
    ofJson (.obj [(key, .arr operands)]) = match connective? key with
      | some op => ofGroup op key operands
      | none => ofOperands key operands := by
  unfold ofJson
  rfl

theorem ofJson_logical (op : Connective) (left right : Node) :
    ofJson (toJson (.logical op left right))
      = match ofJson left.toJson with
        | .error e => .error e
        | .ok l => match ofJson right.toJson with
          | .error e => .error e
          | .ok r => .ok (.logical op l r) := by
  rw [toJson, ofJson_comparison, connective?_keyword]
  cases hl : ofJson left.toJson with
  | error e => simp only [ofGroup, hl]
  | ok l =>
      cases hr : ofJson right.toJson with
      | error e => simp only [ofGroup, ofMore, hl, hr]
      | ok r => simp only [ofGroup, ofMore, hl, hr]

/-- What a tree without doubles becomes if all its operators are known. -/
theorem ofJson_toJson {spell : String → String} {node : Node} (h : node.floats = [])
    (hnames : ∀ key ∈ node.operators, Names key (spell key)) :
    ofJson node.toJson = .ok (node.respell spell) := by
  induction node with
  | comparison field operator operand =>
      have hname := hnames operator (by simp [operators])
      rw [toJson, ofJson_comparison, connective?_of_names hname]
      simp only [ofOperands, operator?_eq_some_iff.mpr hname]
      cases operand with
      | none => rfl
      | some v =>
          have hv := Value.ofJson?_toJson (v := v) h
          simp only [Option.map_some, Option.toList_some, hv]
          rfl
  | logical op left right ihl ihr =>
      rw [floats, List.append_eq_nil_iff] at h
      rw [operators, List.forall_mem_append] at hnames
      rw [ofJson_logical, ihl h.1 hnames.1, ihr h.2 hnames.2]
      rfl

theorem ofJson_toJson_error {node : Node}
    (hno : ∃ key ∈ node.operators, ∀ op, ¬ Names key op) :
    ∃ e, ofJson node.toJson = .error e := by
  induction node with
  | comparison field operator operand =>
      obtain ⟨key, hmem, hkey⟩ := hno
      rw [operators, List.mem_singleton] at hmem
      subst hmem
      rw [toJson, ofJson_comparison]
      cases connective? key with
      | some op => exact ⟨_, rfl⟩
      | none =>
          cases hop : operator? key with
          | some op => exact absurd (operator?_eq_some_iff.mp hop) (hkey op)
          | none => exact ⟨.unknownOperator key, by simp [ofOperands, hop]⟩
  | logical op left right ihl ihr =>
      rw [ofJson_logical]
      cases hleft : ofJson left.toJson with
      | error e => exact ⟨e, rfl⟩
      | ok l =>
          cases hright : ofJson right.toJson with
          | error e => exact ⟨e, rfl⟩
          | ok r =>
              obtain ⟨key, hmem, hkey⟩ := hno
              rw [operators, List.mem_append] at hmem
              rcases hmem with hmem | hmem
              · obtain ⟨e, he⟩ := ihl ⟨key, hmem, hkey⟩
                rw [hleft] at he
                cases he
              · obtain ⟨e, he⟩ := ihr ⟨key, hmem, hkey⟩
                rw [hright] at he
                cases he

/-! ## Accepted operators

Whatever JSON is sent, a tree that is read from it compares by the operators of transport
and by no other text. -/

theorem accepted_of_ofOperands {key : String} {operands : List Json} {node : Node}
    (h : ofOperands key operands = .ok node) : ∀ op ∈ node.operators, op ∈ Filter.operators := by
  unfold ofOperands at h
  split at h
  · cases h
  · next operator hop =>
      have hmem : operator ∈ Filter.operators := (operator?_eq_some_iff.mp hop).1
      repeat' split at h
      all_goals cases h
      all_goals exact fun op h => List.mem_singleton.mp h ▸ hmem

mutual

theorem accepted_of_ofJson : ∀ {j : Json} {node : Node}, ofJson j = .ok node →
    ∀ op ∈ node.operators, op ∈ Filter.operators
  | j, node, h => by
      unfold ofJson at h
      split at h
      · next key operands =>
          split at h
          · exact accepted_of_ofGroup h
          · exact accepted_of_ofOperands h
      all_goals cases h

theorem accepted_of_ofGroup : ∀ {op : Connective} {key : String} {operands : List Json}
    {node : Node}, ofGroup op key operands = .ok node →
    ∀ op ∈ node.operators, op ∈ Filter.operators
  | op, key, [], node, h => by
      rw [ofGroup] at h
      cases h
  | op, key, j :: rest, node, h => by
      rw [ofGroup] at h
      split at h
      · cases h
      · next first hj => exact accepted_of_ofMore (accepted_of_ofJson hj) h

theorem accepted_of_ofMore : ∀ {op : Connective} {left : Node} {operands : List Json}
    {node : Node}, (∀ op ∈ left.operators, op ∈ Filter.operators) →
    ofMore op left operands = .ok node → ∀ op ∈ node.operators, op ∈ Filter.operators
  | op, left, [], node, hleft, h => by
      rw [ofMore] at h
      cases h
      exact hleft
  | op, left, j :: rest, node, hleft, h => by
      rw [ofMore] at h
      split at h
      · cases h
      · next right hj =>
          refine accepted_of_ofMore ?_ h
          rw [operators, List.forall_mem_append]
          exact ⟨hleft, accepted_of_ofJson hj⟩

end

/-! ## Errors -/

theorem kind_of_ofOperands {key : String} {operands : List Json} {e : Error}
    (h : ofOperands key operands = .error e) : e.kind = .transport := by
  unfold ofOperands at h
  repeat' split at h
  all_goals cases h
  all_goals rfl

mutual

theorem kind_of_ofJson : ∀ {j : Json} {e : Error}, ofJson j = .error e → e.kind = .transport
  | j, e, h => by
      unfold ofJson at h
      split at h
      · next key operands =>
          split at h
          · exact kind_of_ofGroup h
          · exact kind_of_ofOperands h
      all_goals cases h
      all_goals rfl

theorem kind_of_ofGroup : ∀ {op : Connective} {key : String} {operands : List Json} {e : Error},
    ofGroup op key operands = .error e → e.kind = .transport
  | op, key, [], e, h => by
      rw [ofGroup] at h
      cases h
      rfl
  | op, key, j :: rest, e, h => by
      rw [ofGroup] at h
      split at h
      · next hj =>
          cases h
          exact kind_of_ofJson hj
      · exact kind_of_ofMore h

theorem kind_of_ofMore : ∀ {op : Connective} {left : Node} {operands : List Json} {e : Error},
    ofMore op left operands = .error e → e.kind = .transport
  | op, left, [], e, h => by
      rw [ofMore] at h
      cases h
  | op, left, j :: rest, e, h => by
      rw [ofMore] at h
      split at h
      · next hj =>
          cases h
          exact kind_of_ofJson hj
      · exact kind_of_ofMore h

end

end Node

/-! ## Whole filters -/

def floats (f : Filter) : List Float := f.root.elim [] Node.floats

/-- The filter with every operator spelt as `spell` has it. -/
def respell (f : Filter) (spell : String → String) : Filter :=
  ⟨f.root.map (Node.respell spell)⟩

/-- Containers along the deepest path; the empty filter is an empty object. -/
def nesting (f : Filter) : Nat := f.root.elim 1 Node.nesting

theorem exact_toJson {f : Filter} (h : f.floats = []) : f.toJson.Exact := by
  obtain ⟨root⟩ := f
  cases root with
  | none => exact ⟨rfl, trivial⟩
  | some node => exact Node.exact_toJson h

theorem nesting_toJson {f : Filter} (h : f.floats = []) : f.toJson.nesting = f.nesting := by
  obtain ⟨root⟩ := f
  cases root with
  | none => rfl
  | some node => exact Node.nesting_toJson h

theorem nonFinite?_eq_none_iff (f : Filter) :
    f.root.bind Node.nonFinite? = none ↔ ∀ x ∈ f.floats, x.isFinite = true := by
  obtain ⟨root⟩ := f
  cases root with
  | none => simp [floats]
  | some node => exact Node.nonFinite?_eq_none_iff node

/-- A double that is not finite is the one reason not to encode a filter. -/
theorem encode_eq_error_iff {f : Filter} :
    (∃ e, encode f = .error e) ↔ ∃ x ∈ f.floats, x.isFinite = false := by
  have hnone := nonFinite?_eq_none_iff f
  unfold encode
  cases hfound : f.root.bind Node.nonFinite? with
  | none =>
      have hall := hnone.mp hfound
      constructor
      · rintro ⟨e, he⟩
        cases he
      · rintro ⟨x, hx, hinf⟩
        rw [hall x hx] at hinf
        cases hinf
  | some found =>
      refine ⟨fun _ => ?_, fun _ => ⟨_, rfl⟩⟩
      by_cases hall : ∀ x ∈ f.floats, x.isFinite = true
      · rw [hnone.mpr hall] at hfound
        cases hfound
      · simpa using hall

theorem kind_of_encode {f : Filter} {e : Error} (h : encode f = .error e) :
    e.kind = .transport := by
  unfold encode at h
  split at h
  · cases h
    rfl
  · cases h

theorem encode_of_floats_eq_nil {f : Filter} (h : f.floats = []) :
    encode f = .ok (Base64.encodeText f.toJson.render) := by
  have hnone : f.root.bind Node.nonFinite? = none :=
    (nonFinite?_eq_none_iff f).mpr (by simp [h])
  rw [encode, hnone]

/-- Only what JSON makes of the tree decides what an encoded filter decodes to. -/
theorem decode_encodeText (j : Json) :
    decode (Base64.encodeText j.render)
      = match Json.parse? j.print with
        | none => .error .notJson
        | some j => ofJson j := by
  have htext : (Base64.textOf? (Base64.bytesOf j.render)).bind (fun s => Json.parse? s.toList)
      = Json.parse? j.print := by
    rw [Base64.textOf?_bytesOf, Option.bind_some, Json.render, String.toList_ofList]
  rw [decode, Base64.decode?_encodeText]
  cases hj : Json.parse? j.print with
  | none => simp only [htext, hj]
  | some j => simp only [htext, hj]

theorem kind_of_ofJson {j : Json} {e : Error} (h : ofJson j = .error e) :
    e.kind = .transport := by
  unfold ofJson at h
  split at h
  · cases h
  · cases h
  · cases h
  · cases hnode : Node.ofJson j with
    | error e' =>
        rw [hnode] at h
        cases h
        exact Node.kind_of_ofJson hnode
    | ok node =>
        rw [hnode] at h
        cases h

/-- Whatever the text, a refusal is one of transport. -/
theorem kind_of_decode {text : String} {e : Error} (h : decode text = .error e) :
    e.kind = .transport := by
  unfold decode at h
  split at h
  · cases h
    rfl
  · split at h
    · cases h
      rfl
    · exact kind_of_ofJson h

theorem accepted_of_ofJson {j : Json} {f : Filter} (h : ofJson j = .ok f) :
    ∀ op ∈ f.operatorTexts, op ∈ operators := by
  have hempty : ∀ op ∈ (∅ : Filter).operatorTexts, op ∈ operators := fun op h => by cases h
  unfold ofJson at h
  split at h
  · cases h
    exact hempty
  · cases h
    exact hempty
  · cases h
    exact hempty
  · cases hnode : Node.ofJson j with
    | error e =>
        rw [hnode] at h
        cases h
    | ok node =>
        rw [hnode] at h
        cases h
        exact Node.accepted_of_ofJson hnode

theorem accepted_of_decode {text : String} {f : Filter} (h : decode text = .ok f) :
    ∀ op ∈ f.operatorTexts, op ∈ operators := by
  unfold decode at h
  split at h
  · cases h
  · split at h
    · cases h
    · exact accepted_of_ofJson h

/-! ## There and back -/

theorem ofJson_toJson_node (node : Node) :
    ofJson node.toJson = (Node.ofJson node.toJson).map ofNode := by
  cases node <;> rfl

theorem ofJson_toJson {spell : String → String} {f : Filter} (h : f.floats = [])
    (hnames : ∀ key ∈ f.operatorTexts, Names key (spell key)) :
    ofJson f.toJson = .ok (f.respell spell) := by
  obtain ⟨root⟩ := f
  cases root with
  | none => rfl
  | some node =>
      have hnode : Node.ofJson node.toJson = .ok (node.respell spell) :=
        Node.ofJson_toJson h hnames
      rw [toJson, ofJson_toJson_node, hnode]
      rfl

theorem ofJson_toJson_error {f : Filter}
    (hno : ∃ key ∈ f.operatorTexts, ∀ op, ¬ Names key op) :
    ∃ e, ofJson f.toJson = .error e := by
  obtain ⟨root⟩ := f
  cases root with
  | none =>
      obtain ⟨key, hmem, -⟩ := hno
      exact absurd hmem (by simp [operatorTexts])
  | some node =>
      obtain ⟨e, he⟩ : ∃ e, Node.ofJson node.toJson = .error e := Node.ofJson_toJson_error hno
      exact ⟨e, by rw [toJson, ofJson_toJson_node, he]; rfl⟩

theorem Node.respell_eq_self_iff {spell : String → String} {node : Node} :
    node.respell spell = node ↔ ∀ key ∈ node.operators, spell key = key := by
  induction node with
  | comparison field operator operand => simp [respell, operators]
  | logical op left right ihl ihr =>
      rw [operators, List.forall_mem_append, ← ihl, ← ihr, respell, logical.injEq]
      simp

theorem respell_eq_self_iff {spell : String → String} {f : Filter} :
    f.respell spell = f ↔ ∀ key ∈ f.operatorTexts, spell key = key := by
  obtain ⟨root⟩ := f
  cases root with
  | none => simp [respell, operatorTexts]
  | some node => simpa [respell, operatorTexts] using Node.respell_eq_self_iff

/-- The text of a filter without doubles is read as the filter in the spelling of transport,
or it is refused: for its height, or for an operator that transport does not know. -/
theorem decode_encodeText_toJson {f : Filter} (h : f.floats = []) (spell : String → String)
    (hdeep : f.nesting ≤ 127) (hnames : ∀ key ∈ f.operatorTexts, Names key (spell key)) :
    decode (Base64.encodeText f.toJson.render) = .ok (f.respell spell) := by
  have hdeep' : f.toJson.nesting ≤ Json.Parser.maxNesting := by rwa [nesting_toJson h]
  rw [decode_encodeText, Json.parse?_print (exact_toJson h), if_pos hdeep']
  exact ofJson_toJson h hnames

theorem decode_encodeText_toJson_error {f : Filter} (h : f.floats = [])
    (hno : ¬ (f.nesting ≤ 127 ∧ ∀ key ∈ f.operatorTexts, ∃ op, Names key op)) :
    ∃ e, decode (Base64.encodeText f.toJson.render) = .error e := by
  rw [decode_encodeText, Json.parse?_print (exact_toJson h), nesting_toJson h]
  by_cases hdeep : f.nesting ≤ 127
  · have hops : ∃ key ∈ f.operatorTexts, ∀ op, ¬ Names key op := by
      by_cases hall : ∀ key ∈ f.operatorTexts, ∃ op, Names key op
      · exact absurd ⟨hdeep, hall⟩ hno
      · simpa using hall
    rw [Json.Parser.maxNesting, if_pos hdeep]
    exact ofJson_toJson_error hops
  · rw [Json.Parser.maxNesting, if_neg hdeep]
    exact ⟨_, rfl⟩

/-- A filter survives as it is if and only if its operators are spelt as in transport. -/
theorem decode_encodeText_toJson_eq_self_iff {f : Filter} (h : f.floats = []) :
    decode (Base64.encodeText f.toJson.render) = .ok f
      ↔ f.nesting ≤ 127 ∧ ∀ key ∈ f.operatorTexts, key ∈ operators := by
  constructor
  · intro hok
    by_cases hread : f.nesting ≤ 127 ∧ ∀ key ∈ f.operatorTexts, ∃ op, Names key op
    · obtain ⟨hdeep, hnames⟩ := hread
      let spell := fun key => (operator? key).getD key
      have hspell : ∀ key ∈ f.operatorTexts, Names key (spell key) := by
        intro key hkey
        obtain ⟨op, hop⟩ := hnames key hkey
        have hsome := operator?_eq_some_iff.mpr hop
        simpa [spell, hsome] using hop
      have hrespelt := decode_encodeText_toJson h spell hdeep hspell
      have hsame : f.respell spell = f := Except.ok.inj (hrespelt.symm.trans hok)
      refine ⟨hdeep, fun key hkey => ?_⟩
      have hkept := respell_eq_self_iff.mp hsame key hkey
      exact hkept ▸ (hspell key hkey).1
    · obtain ⟨e, he⟩ := decode_encodeText_toJson_error h hread
      rw [he] at hok
      cases hok
  · rintro ⟨hdeep, hops⟩
    have hself := decode_encodeText_toJson h (fun key => key) hdeep
      fun key hkey => names_self_iff.mpr (hops key hkey)
    rwa [respell_eq_self_iff.mpr fun _ _ => rfl] at hself

/-- Encoding fails exactly on a double that is not finite. A filter without doubles is
decoded, if it is not nested too deeply and all its operators are known, as itself in the
spelling of transport; it is itself if that is how its operators were spelt; and
otherwise it is refused. -/
theorem decode_encode (f : Filter) :
    ((∃ e, encode f = .error e) ↔ ∃ x ∈ f.floats, x.isFinite = false)
      ∧ (∀ e, encode f = .error e → e.kind = .transport)
      ∧ (f.floats = [] → ∃ text, encode f = .ok text
          ∧ (∀ spell : String → String, f.nesting ≤ 127 →
              (∀ key ∈ f.operatorTexts, Names key (spell key)) →
              decode text = .ok (f.respell spell))
          ∧ (decode text = .ok f ↔
              f.nesting ≤ 127 ∧ ∀ key ∈ f.operatorTexts, key ∈ operators)
          ∧ (¬ (f.nesting ≤ 127 ∧ ∀ key ∈ f.operatorTexts, ∃ op, Names key op) →
              ∃ e, decode text = .error e ∧ e.kind = .transport)) := by
  refine ⟨encode_eq_error_iff, fun e => kind_of_encode, fun h => ?_⟩
  refine ⟨_, encode_of_floats_eq_nil h, decode_encodeText_toJson h,
    decode_encodeText_toJson_eq_self_iff h, fun hno => ?_⟩
  obtain ⟨e, he⟩ := decode_encodeText_toJson_error h hno
  exact ⟨e, he, kind_of_decode he⟩

/-- An operator is taken in any spelling, and a comparison by the name of a group is not. -/
theorem decode_encode_odd_operators :
    (∃ text, encode ⟨some (.comparison "name" " like" (some (.list [.text "x"])))⟩ = .ok text
        ∧ decode text = .ok ⟨some (.comparison "name" "LIKE" (some (.list [.text "x"])))⟩)
      ∧ ∃ text, encode ⟨some (.comparison "name" "AND" none)⟩ = .ok text
          ∧ ∃ e, decode text = .error e ∧ e.kind = .transport := by
  constructor
  · obtain ⟨-, -, hread⟩ :=
      decode_encode ⟨some (.comparison "name" " like" (some (.list [.text "x"])))⟩
    obtain ⟨text, hencode, hdecode, -⟩ := hread rfl
    have hname : Names " like" "LIKE" := by
      rw [Names]
      decide +kernel
    refine ⟨text, hencode, hdecode (fun _ => "LIKE") (by decide) fun key hkey => ?_⟩
    exact List.mem_singleton.mp hkey ▸ hname
  · obtain ⟨-, -, hread⟩ := decode_encode ⟨some (.comparison "name" "AND" none)⟩
    obtain ⟨text, hencode, -, -, herror⟩ := hread rfl
    refine ⟨text, hencode, herror fun h => ?_⟩
    obtain ⟨op, hop⟩ := h.2 "AND" (List.mem_singleton.mpr rfl)
    exact not_names_keyword .and op hop

end RecordMapper.Filter
