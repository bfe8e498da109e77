import RecordMapper.Proofs.Pagination.Naming
import RecordMapper.Proofs.Text.Split

/-!
# Pairs of each kind

Reading the pairs of a request as they come gives what the kinds of pairs give by themselves, each
in its order (`readInTurn_eq_ofPairs`): what was read of some pairs is at any time what their kinds
give (`intakeOf`). So how the kinds are mixed does not matter, and a misspelt direction is reported
whatever else is wrong (`kinds_decide`).
-/

namespace RecordMapper

open Query

namespace Pagination

variable {config : PaginationConfig}

/-! ## One more pair -/

section Snoc

variable {pairs : List (String × String)} {key value : String} {names : List String}

theorem kind_cases (key : String) : key = "page" ∨ key = "size" ∨ key = "order"
    ∨ key = "order[]" ∨ key = "filter" ∨ key ∉ reserved := by
  by_cases h : key ∈ reserved
  · simpa only [reserved, List.mem_cons, List.not_mem_nil, or_false, not_or, ← or_assoc]
      using Or.inl h
  · exact .inr (.inr (.inr (.inr (.inr h))))

theorem valuesOf_snoc_of_mem (h : key ∈ names) :
    valuesOf names (pairs ++ [(key, value)]) = valuesOf names pairs ++ [value] := by
  simp [valuesOf, h]

theorem valuesOf_snoc_of_not_mem (h : key ∉ names) :
    valuesOf names (pairs ++ [(key, value)]) = valuesOf names pairs := by
  simp [valuesOf, h]

theorem numberOf?_snoc (pairs : List (String × String)) (name value : String) :
    numberOf? name (pairs ++ [(name, value)]) = Decimal.readWord? (Text.trim value) := by
  rw [numberOf?, valuesOf_snoc_of_mem (List.mem_singleton_self name), List.getLast?_concat,
    Option.bind_some]

theorem numberOf?_snoc_of_ne {name : String} (h : key ≠ name) :
    numberOf? name (pairs ++ [(key, value)]) = numberOf? name pairs := by
  rw [numberOf?, valuesOf_snoc_of_not_mem (by simpa using h), numberOf?]

theorem orderTokens_snoc_of_mem (h : key ∈ ["order", "order[]"]) :
    orderTokens (pairs ++ [(key, value)])
      = if value.isEmpty then orderTokens pairs else orderTokens pairs ++ [value] := by
  rw [orderTokens, valuesOf_snoc_of_mem h, List.filter_append, ← orderTokens]
  cases hempty : value.isEmpty <;> simp [hempty]

theorem orderTokens_snoc_of_not_mem (h : key ∉ ["order", "order[]"]) :
    orderTokens (pairs ++ [(key, value)]) = orderTokens pairs := by
  rw [orderTokens, valuesOf_snoc_of_not_mem h, orderTokens]

/-- The encoded filter that counts. -/
def sentText? (pairs : List (String × String)) : Option String :=
  ((valuesOf ["filter"] pairs).filter fun text => !text.isEmpty).getLast?

theorem sentText?_snoc (pairs : List (String × String)) (value : String) :
    sentText? (pairs ++ [("filter", value)])
      = if value.isEmpty then sentText? pairs else some value := by
  rw [sentText?, valuesOf_snoc_of_mem (List.mem_singleton_self _), List.filter_append]
  cases hempty : value.isEmpty <;> simp [hempty, sentText?]

theorem sentText?_snoc_of_ne (h : key ≠ "filter") :
    sentText? (pairs ++ [(key, value)]) = sentText? pairs := by
  rw [sentText?, valuesOf_snoc_of_not_mem (by simpa using h), sentText?]

theorem fieldPairs_snoc_of_mem (h : key ∈ reserved) :
    fieldPairs (pairs ++ [(key, value)]) = fieldPairs pairs := by
  simp [fieldPairs, h]

theorem fieldPairs_snoc_of_not_mem (h : key ∉ reserved) :
    fieldPairs (pairs ++ [(key, value)]) = fieldPairs pairs ++ [(key, value)] := by
  simp [fieldPairs, h]

end Snoc

/-! ## Kind by kind -/

/-- What these pairs give, once their sort keys are read. -/
def gathered (config : PaginationConfig) (pairs : List (String × String))
    (keys : List (String × Direction)) : Intake :=
  ⟨{ ofConfig config with orders := .ofList keys }, numberOf? "page" pairs,
    numberOf? "size" pairs, sentText? pairs, fieldPairs pairs⟩

/-- What has been read after these pairs. -/
def intakeOf (config : PaginationConfig) (pairs : List (String × String)) : Except Error Intake :=
  ((orderTokens pairs).mapM readOrder).map (gathered config pairs)

section Take

variable {pairs : List (String × String)} {keys : List (String × Direction)}
  {key value : String}

theorem ne_of_mem_order (h : key ∈ ["order", "order[]"]) :
    key ≠ "page" ∧ key ≠ "size" ∧ key ≠ "filter" ∧ key ∈ reserved := by
  simp only [List.mem_cons, List.not_mem_nil, or_false] at h
  rcases h with rfl | rfl <;> decide

theorem take_of_order (h : key ∈ ["order", "order[]"]) (s : Intake) (value : String) :
    s.take (key, value) = if value.isEmpty then .ok s
      else (s.pagination.addOrderToken value).map fun p => { s with pagination := p } := by
  simp only [List.mem_cons, List.not_mem_nil, or_false] at h
  rcases h with rfl | rfl <;> rfl

theorem take_of_not_reserved (h : key ∉ reserved) (s : Intake) (value : String) :
    s.take (key, value) = .ok { s with tests := s.tests ++ [(key, value)] } := by
  simp only [reserved, List.mem_cons, List.not_mem_nil, or_false, not_or] at h
  simp [Intake.take, h]

/-- A sort key is read when its pair comes, and nothing else of what was read changes. -/
theorem take_gathered_of_order (h : key ∈ ["order", "order[]"]) :
    (gathered config pairs keys).take (key, value)
      = if value.isEmpty then .ok (gathered config (pairs ++ [(key, value)]) keys)
        else (readOrder value).map fun order =>
          gathered config (pairs ++ [(key, value)]) (keys ++ [order]) := by
  obtain ⟨hpage, hsize, hfilter, hreserved⟩ := ne_of_mem_order h
  have hmore : ∀ keys', gathered config (pairs ++ [(key, value)]) keys'
      = gathered config pairs keys' := by
    intro keys'
    rw [gathered, numberOf?_snoc_of_ne hpage, numberOf?_snoc_of_ne hsize,
      sentText?_snoc_of_ne hfilter, fieldPairs_snoc_of_mem hreserved, gathered]
  simp only [take_of_order h, hmore]
  simp only [gathered, addOrderToken, OrderedMap.ofList_concat]
  cases readOrder value <;> rfl

/-- Any other pair changes what its kind gives. -/
theorem take_gathered (h : key ∉ ["order", "order[]"]) :
    (gathered config pairs keys).take (key, value)
      = .ok (gathered config (pairs ++ [(key, value)]) keys) := by
  rcases kind_cases key with rfl | rfl | rfl | rfl | rfl | hfield
  · rw [gathered, gathered, numberOf?_snoc, numberOf?_snoc_of_ne (by decide),
      sentText?_snoc_of_ne (by decide), fieldPairs_snoc_of_mem (by decide)]
    rfl
  · rw [gathered, gathered, numberOf?_snoc, numberOf?_snoc_of_ne (by decide),
      sentText?_snoc_of_ne (by decide), fieldPairs_snoc_of_mem (by decide)]
    rfl
  · exact absurd (by decide) h
  · exact absurd (by decide) h
  · rw [gathered, gathered, numberOf?_snoc_of_ne (by decide), numberOf?_snoc_of_ne (by decide),
      sentText?_snoc, fieldPairs_snoc_of_mem (by decide)]
    show Except.ok (if value.isEmpty then _ else _) = _
    cases value.isEmpty <;> rfl
  · have hne : ∀ name ∈ reserved, key ≠ name := fun name hname he => hfield (he ▸ hname)
    rw [take_of_not_reserved hfield, gathered, gathered,
      numberOf?_snoc_of_ne (hne _ (by decide)), numberOf?_snoc_of_ne (hne _ (by decide)),
      sentText?_snoc_of_ne (hne _ (by decide)), fieldPairs_snoc_of_not_mem hfield]

end Take

theorem intakeOf_snoc (config : PaginationConfig) (pairs : List (String × String))
    (e : String × String) :
    intakeOf config (pairs ++ [e]) = intakeOf config pairs >>= fun s => s.take e := by
  obtain ⟨key, value⟩ := e
  by_cases h : key ∈ ["order", "order[]"]
  · rw [intakeOf, intakeOf, orderTokens_snoc_of_mem h]
    cases hempty : value.isEmpty with
    | true =>
        simp only [if_true]
        cases (orderTokens pairs).mapM readOrder with
        | error e => rfl
        | ok keys => exact ((take_gathered_of_order h).trans (if_pos hempty)).symm
    | false =>
        simp only [Bool.false_eq_true, if_false]
        rw [List.mapM_append]
        cases (orderTokens pairs).mapM readOrder with
        | error e => rfl
        | ok keys =>
            show _ = (gathered config pairs keys).take (key, value)
            rw [take_gathered_of_order h, if_neg (by simp [hempty])]
            cases hread : readOrder value with
            | error e =>
                rw [mapM_cons_of_error hread]
                rfl
            | ok order =>
                rw [mapM_cons_of_ok hread]
                rfl
  · rw [intakeOf, intakeOf, orderTokens_snoc_of_not_mem h]
    cases (orderTokens pairs).mapM readOrder with
    | error e => rfl
    | ok keys => exact (take_gathered h).symm

/-- What is read of the pairs in front decides how the others are read, and nothing else. -/
theorem foldlM_take_eq (config : PaginationConfig) : ∀ rest done : List (String × String),
    (intakeOf config done >>= fun s => rest.foldlM Intake.take s) = intakeOf config (done ++ rest)
  | [], done => by
      rw [List.append_nil]
      cases intakeOf config done <;> rfl
  | e :: rest, done => by
      -- the next pair goes over to those that were read, and `intakeOf` follows it there
      rw [← List.singleton_append, ← List.append_assoc, ← foldlM_take_eq config rest,
        intakeOf_snoc]
      cases intakeOf config done <;> rfl

theorem requestedFilter_eq (pairs : List (String × String)) :
    requestedFilter pairs = (sentText? pairs).elim (.ok ∅) Filter.decode := by
  rw [requestedFilter, ← sentText?]
  cases sentText? pairs with
  | none => simp only [Option.elim_none]
  | some text => simp only [Option.elim_some]

theorem readInTurn_eq_ofPairs (config : PaginationConfig) (pairs : List (String × String)) :
    readInTurn config pairs = ofPairs config pairs := by
  have hread : readInTurn config pairs = intakeOf config pairs >>= Intake.finish config :=
    congrArg (· >>= Intake.finish config) (foldlM_take_eq config pairs [])
  rw [hread, intakeOf, ofPairs, ← orderTokens, addOrderTokens_eq, requestedFilter_eq]
  cases (orderTokens pairs).mapM readOrder <;> rfl

/-- The same pairs of each kind, in the same order; the kinds may be mixed in other ways. -/
structure SameKinds (pairs pairs' : List (String × String)) : Prop where
  page : pairs.filter (·.1 == "page") = pairs'.filter (·.1 == "page")
  size : pairs.filter (·.1 == "size") = pairs'.filter (·.1 == "size")
  order : pairs.filter (["order", "order[]"].contains ·.1)
    = pairs'.filter (["order", "order[]"].contains ·.1)
  filter : pairs.filter (·.1 == "filter") = pairs'.filter (·.1 == "filter")
  field : pairs.filter (!reserved.contains ·.1) = pairs'.filter (!reserved.contains ·.1)

theorem ofPairs_of_sameKinds {pairs pairs' : List (String × String)} (h : SameKinds pairs pairs') :
    ofPairs config pairs' = ofPairs config pairs := by
  have hname : ∀ name, pairs.filter (·.1 == name) = pairs'.filter (·.1 == name) →
      valuesOf [name] pairs = valuesOf [name] pairs' := by
    intro name hpairs
    simp only [valuesOf, List.contains_cons, List.contains_nil, Bool.or_false, hpairs]
  have horder : orderTokens pairs = orderTokens pairs' := by
    rw [orderTokens, valuesOf, h.order, orderTokens, valuesOf]
  have hbounds : requestedBounds? config pairs = requestedBounds? config pairs' := by
    simp only [requestedBounds?, numberOf?, hname _ h.page, hname _ h.size]
  have hfilter : requestedFilter pairs = requestedFilter pairs' := by
    rw [requestedFilter, hname _ h.filter, requestedFilter]
  have hfields : fieldTests pairs = fieldTests pairs' := by
    rw [fieldTests, fieldPairs, h.field, fieldTests, fieldPairs]
  rw [ofPairs_eq, ofPairs_eq, horder, hfilter]
  simp only [ofParts, hbounds, hfields]

end Pagination

/-! ## Sort keys -/

namespace Query.Direction

theorem parse_eq_ok_iff {text : String} {d : Direction} :
    parse text = .ok d ↔ Text.sameWord (Text.trim text) d.keyword = true := by
  have hfold : Text.foldCase "ASC" = Text.foldCase "asc"
      ∧ Text.foldCase "DESC" = Text.foldCase "desc"
      ∧ Text.foldCase "asc" ≠ Text.foldCase "desc" := by decide
  obtain ⟨hasc, hdesc, hne⟩ := hfold
  unfold parse Text.sameWord
  by_cases h : Text.foldCase (Text.trim text) = Text.foldCase "asc"
  · cases d <;> simp [keyword, h, hasc, hdesc, hne]
  · by_cases h' : Text.foldCase (Text.trim text) = Text.foldCase "desc"
    · cases d <;> simp [keyword, h', hasc, hdesc, hne.symm]
    · cases d <;> simp [keyword, h, h', hasc, hdesc]

theorem eq_badDirection_of_parse {text : String} {e : Error} (h : parse text = .error e) :
    e = .badDirection (Text.trim text) := by
  unfold parse at h
  dsimp only at h
  split at h
  · cases h
  · split at h
    · cases h
    · exact (Except.error.inj h).symm

theorem parse_eq_error_iff {text : String} {e : Error} :
    parse text = .error e ↔ e = .badDirection (Text.trim text)
      ∧ ∀ d : Direction, ¬ Text.sameWord (Text.trim text) d.keyword = true := by
  constructor
  · intro h
    refine ⟨eq_badDirection_of_parse h, fun d hd => ?_⟩
    rw [parse_eq_ok_iff.mpr hd] at h
    cases h
  · rintro ⟨rfl, hno⟩
    cases hparse : parse text with
    | ok d => exact absurd (parse_eq_ok_iff.mp hparse) (hno d)
    | error e => rw [eq_badDirection_of_parse hparse]

end Query.Direction

namespace Pagination

/-- The text of a token behind its first comma. -/
def Continues (token text : String) : Prop :=
  ∃ field, ',' ∉ field ∧ token.toList = field ++ ',' :: text.toList

/-- The direction of a token is the word, which is none of the two; case and blanks do not
matter. -/
def Misdirected (token word : String) : Prop :=
  ∃ text, Continues token text ∧ word = Text.trim text
    ∧ ∀ d : Direction, ¬ Text.sameWord word d.keyword = true

/-- The direction of a token; without a comma it is ascending. -/
def Directs (token : String) (d : Direction) : Prop :=
  (',' ∉ token.toList ∧ d = .ascending)
    ∨ ∃ text, Continues token text ∧ Text.sameWord (Text.trim text) d.keyword = true

theorem readOrder_of_not_mem {token : String} (h : ',' ∉ token.toList) :
    readOrder token = .ok (orderField token, .ascending) := by
  rw [readOrder, Text.dropWhile_ne_of_not_mem h]
  rfl

theorem readOrder_of_continues {token text : String} (h : Continues token text) :
    readOrder token = (Direction.parse text).map fun d => (orderField token, d) := by
  obtain ⟨field, hfield, htoken⟩ := h
  have hdrop : token.toList.dropWhile (· != ',') = ',' :: text.toList := by
    rw [htoken, Text.dropWhile_ne_of_split hfield]
  rw [readOrder, hdrop]
  show (Direction.parse (String.ofList text.toList)).map _ = _
  rw [String.ofList_toList]
  rfl

theorem continues_unique {token text text' : String} (h : Continues token text)
    (h' : Continues token text') : text = text' := by
  obtain ⟨field, hfield, htoken⟩ := h
  obtain ⟨field', hfield', htoken'⟩ := h'
  have hdrop : token.toList.dropWhile (· != ',') = ',' :: text'.toList := by
    rw [htoken', Text.dropWhile_ne_of_split hfield']
  rw [htoken, Text.dropWhile_ne_of_split hfield] at hdrop
  exact String.toList_inj.mp (List.cons.inj hdrop).2

/-- A token has a comma or none. -/
theorem continues_or_not_mem (token : String) :
    ',' ∉ token.toList ∨ ∃ text, Continues token text := by
  cases hdrop : token.toList.dropWhile (· != ',') with
  | nil =>
      have hmem := Text.not_mem_takeWhile_ne ',' token.toList
      rw [Text.takeWhile_ne_of_dropWhile_eq_nil hdrop] at hmem
      exact .inl hmem
  | cons c rest =>
      refine .inr ⟨String.ofList rest, _, Text.not_mem_takeWhile_ne ',' token.toList, ?_⟩
      rw [String.toList_ofList]
      exact Text.eq_of_dropWhile_ne hdrop

theorem not_continues_of_not_mem {token text : String} (h : ',' ∉ token.toList) :
    ¬ Continues token text := by
  rintro ⟨field, -, htoken⟩
  rw [htoken] at h
  exact h (List.mem_append_right _ List.mem_cons_self)

theorem readOrder_eq_error_iff {token : String} {e : Error} :
    readOrder token = .error e ↔ ∃ word, Misdirected token word ∧ e = .badDirection word := by
  rcases continues_or_not_mem token with hnone | ⟨text, htext⟩
  · rw [readOrder_of_not_mem hnone]
    constructor
    · intro h
      cases h
    · rintro ⟨word, ⟨text, htext, -⟩, -⟩
      exact absurd htext (not_continues_of_not_mem hnone)
  · rw [readOrder_of_continues htext]
    constructor
    · intro h
      cases hparse : Direction.parse text with
      | ok d =>
          rw [hparse] at h
          cases h
      | error e' =>
          rw [hparse] at h
          obtain rfl : e' = e := Except.error.inj h
          obtain ⟨he, hno⟩ := Direction.parse_eq_error_iff.mp hparse
          exact ⟨_, ⟨text, htext, rfl, hno⟩, he⟩
    · rintro ⟨word, ⟨text', htext', rfl, hno⟩, rfl⟩
      obtain rfl := continues_unique htext htext'
      rw [Direction.parse_eq_error_iff.mpr ⟨rfl, hno⟩]
      rfl

theorem readOrder_eq_ok_iff {token field : String} {d : Direction} :
    readOrder token = .ok (field, d) ↔ field = orderField token ∧ Directs token d := by
  rcases continues_or_not_mem token with hnone | ⟨text, htext⟩
  · rw [readOrder_of_not_mem hnone]
    constructor
    · intro h
      obtain ⟨rfl, rfl⟩ := Prod.mk.inj (Except.ok.inj h)
      exact ⟨rfl, .inl ⟨hnone, rfl⟩⟩
    · rintro ⟨rfl, ⟨-, rfl⟩ | ⟨text, htext, -⟩⟩
      · rfl
      · exact absurd htext (not_continues_of_not_mem hnone)
  · rw [readOrder_of_continues htext]
    constructor
    · intro h
      cases hparse : Direction.parse text with
      | error e =>
          rw [hparse] at h
          cases h
      | ok d' =>
          rw [hparse] at h
          obtain ⟨rfl, rfl⟩ := Prod.mk.inj (Except.ok.inj h)
          exact ⟨rfl, .inr ⟨text, htext, Direction.parse_eq_ok_iff.mp hparse⟩⟩
    · rintro ⟨rfl, ⟨hnone, -⟩ | ⟨text', htext', hword⟩⟩
      · exact absurd htext (not_continues_of_not_mem hnone)
      · obtain rfl := continues_unique htext htext'
        rw [Direction.parse_eq_ok_iff.mpr hword]
        rfl

theorem directs_iff_of_readOrder {token : String} {key : String × Direction} {d : Direction}
    (h : readOrder token = .ok key) : Directs token d ↔ key.2 = d := by
  constructor
  · intro hd
    have hread : readOrder token = .ok (orderField token, d) := readOrder_eq_ok_iff.mpr ⟨rfl, hd⟩
    rw [h] at hread
    exact congrArg Prod.snd (Except.ok.inj hread)
  · rintro rfl
    exact (readOrder_eq_ok_iff.mp h).2

/-- A sort key is read, or its direction is no word for one. -/
theorem exists_readOrder_iff {token : String} :
    (∃ key, readOrder token = .ok key) ↔ ∀ word, ¬ Misdirected token word := by
  constructor
  · rintro ⟨key, hkey⟩ word hword
    rw [readOrder_eq_error_iff.mpr ⟨word, hword, rfl⟩] at hkey
    cases hkey
  · intro h
    cases hread : readOrder token with
    | ok key => exact ⟨key, rfl⟩
    | error e =>
        obtain ⟨word, hword, -⟩ := readOrder_eq_error_iff.mp hread
        exact absurd hword (h word)

/-- The first sort key whose direction is no word for one has this word. -/
def FirstMisdirected (pairs : List (String × String)) (word : String) : Prop :=
  ∃ before token after, orderTokens pairs = before ++ token :: after ∧ Misdirected token word
    ∧ ∀ earlier ∈ before, ∀ other, ¬ Misdirected earlier other

theorem mapM_readOrder_eq_error_iff {pairs : List (String × String)} {e : Error} :
    (orderTokens pairs).mapM readOrder = .error e
      ↔ ∃ word, FirstMisdirected pairs word ∧ e = .badDirection word := by
  rw [mapM_eq_error_iff]
  simp only [readOrder_eq_error_iff, exists_readOrder_iff]
  constructor
  · rintro ⟨before, token, after, htokens, ⟨word, hword, rfl⟩, hbefore⟩
    exact ⟨word, ⟨before, token, after, htokens, hword, hbefore⟩, rfl⟩
  · rintro ⟨word, ⟨before, token, after, htokens, hword, hbefore⟩, rfl⟩
    exact ⟨before, token, after, htokens, ⟨word, hword, rfl⟩, hbefore⟩

theorem exists_mapM_readOrder_iff {pairs : List (String × String)} :
    (∃ keys, (orderTokens pairs).mapM readOrder = .ok keys)
      ↔ ∀ token ∈ orderTokens pairs, ∀ word, ¬ Misdirected token word := by
  simp only [exists_mapM_eq_ok_iff, exists_readOrder_iff]

theorem filter_map_readOrder : ∀ {tokens : List String} {keys : List (String × Direction)},
    tokens.map readOrder = keys.map .ok → ∀ field,
      (tokens.filter (orderField · == field)).map readOrder
        = (keys.filter (·.1 == field)).map .ok
  | [], [], _, _ => rfl
  | token :: rest, (name, d) :: more, h, field => by
      obtain ⟨hfirst, hrest⟩ := List.cons.inj h
      have hname : name = orderField token := fst_of_readOrder hfirst
      have ih := filter_map_readOrder hrest field
      by_cases hfield : orderField token = field
      · rw [List.filter_cons_of_pos (by simpa using hfield),
          List.filter_cons_of_pos (by simpa [hname] using hfield), List.map_cons, List.map_cons, ih,
          hfirst]
      · rw [List.filter_cons_of_neg (by simpa using hfield),
          List.filter_cons_of_neg (by simpa [hname] using hfield), ih]

/-- A field is sorted as the last sort key on it says. -/
theorem get?_ofList_eq_some_iff {tokens : List String} {keys : List (String × Direction)}
    (h : tokens.map readOrder = keys.map .ok) {field : String} {d : Direction} :
    (OrderedMap.ofList keys).get? field = some d ↔ ∃ before token after,
      tokens = before ++ token :: after ∧ orderField token = field ∧ Directs token d
        ∧ ∀ later ∈ after, orderField later ≠ field := by
  have hlast : (tokens.filter (orderField · == field)).getLast?.map readOrder
      = (keys.filter (·.1 == field)).getLast?.map .ok := by
    rw [← List.getLast?_map, ← List.getLast?_map, filter_map_readOrder h]
  have hdirects : (OrderedMap.ofList keys).get? field = some d ↔ ∃ token,
      (tokens.filter (orderField · == field)).getLast? = some token ∧ Directs token d := by
    rw [OrderedMap.get?_ofList]
    cases htoken : (tokens.filter (orderField · == field)).getLast? with
    | none =>
        rw [htoken] at hlast
        rw [Option.map_eq_none_iff.mp hlast.symm]
        simp
    | some token =>
        rw [htoken] at hlast
        obtain ⟨key, hkey, hread⟩ := Option.map_eq_some_iff.mp hlast.symm
        rw [hkey, Option.map_some, Option.some.injEq, ← directs_iff_of_readOrder hread.symm]
        simp
  rw [hdirects]
  simp only [getLast?_filter_eq_some_iff, beq_iff_eq, beq_eq_false_iff_ne]
  constructor
  · rintro ⟨token, ⟨before, after, htokens, hfield, hafter⟩, hd⟩
    exact ⟨before, token, after, htokens, hfield, hd, hafter⟩
  · rintro ⟨before, token, after, htokens, hfield, hd, hafter⟩
    exact ⟨token, ⟨before, after, htokens, hfield, hafter⟩, hd⟩

/-! ## The encoded filter -/

/-- The last of the filter pairs that are not empty carries the text. -/
def Carries (pairs : List (String × String)) (text : String) : Prop :=
  text ≠ "" ∧ ∃ before after, pairs = before ++ ("filter", text) :: after
    ∧ ∀ e ∈ after, e.1 = "filter" → e.2 = ""

theorem sentText?_eq_some_iff {pairs : List (String × String)} {text : String} :
    sentText? pairs = some text ↔ Carries pairs text := by
  have hsent : sentText? pairs
      = (pairs.filter fun e => e.1 == "filter" && !e.2.isEmpty).getLast?.map Prod.snd := by
    have hkind : ∀ e : String × String, (!e.2.isEmpty && ["filter"].contains e.1)
        = (e.1 == "filter" && !e.2.isEmpty) := fun e => by
      rw [Bool.and_comm, List.contains_cons, List.contains_nil, Bool.or_false]
    rw [sentText?, valuesOf, List.filter_map, List.filter_filter, List.getLast?_map]
    exact congrArg (fun kept => kept.getLast?.map Prod.snd)
      (List.filter_congr fun e _ => hkind e)
  rw [hsent, Option.map_eq_some_iff]
  simp only [getLast?_filter_eq_some_iff, Bool.and_eq_true, beq_iff_eq, Bool.not_eq_true',
    ← Bool.not_eq_true, String.isEmpty_iff, not_and, not_not]
  constructor
  · rintro ⟨⟨key, text'⟩, ⟨before, after, hpairs, ⟨rfl, hne⟩, hafter⟩, rfl⟩
    exact ⟨hne, before, after, hpairs, hafter⟩
  · rintro ⟨hne, before, after, hpairs, hafter⟩
    exact ⟨("filter", text), ⟨before, after, hpairs, ⟨rfl, hne⟩, hafter⟩, rfl⟩

theorem requestedFilter_eq_error_iff {pairs : List (String × String)} {e : Error} :
    requestedFilter pairs = .error e
      ↔ ∃ text, Carries pairs text ∧ Filter.decode text = .error e ∧ e.kind = .transport := by
  have hkind : ∀ text, Filter.decode text = .error e ∧ e.kind = .transport
      ↔ Filter.decode text = .error e := fun text => and_iff_left_of_imp Filter.kind_of_decode
  simp only [← sentText?_eq_some_iff, hkind]
  rw [requestedFilter_eq]
  cases sentText? pairs <;> simp

theorem requestedFilter_eq_ok_iff {pairs : List (String × String)} {sent : Filter} :
    requestedFilter pairs = .ok sent
      ↔ (∃ text, Carries pairs text ∧ Filter.decode text = .ok sent)
        ∨ (∀ text, ¬ Carries pairs text) ∧ sent = ∅ := by
  simp only [← sentText?_eq_some_iff]
  rw [requestedFilter_eq]
  cases sentText? pairs <;> simp [eq_comm]

end Pagination

/-! ## What the kinds give -/

/-- The nodes one after the other, each joined to all of those in front of it. -/
def Filter.Node.leftNested : List Filter.Node → Option Filter.Node
  | [] => none
  | node :: rest => some (rest.foldl (.logical .and) node)

theorem Filter.root_conjunction (nodes : List Node) :
    (conjunction nodes).root = Node.leftNested nodes := by
  cases nodes with
  | nil => rfl
  | cons node rest => exact root_foldl_push .and rest node

open Pagination

/-- What becomes of the pairs of a request. They may be read in turn or kind by kind, and however
the kinds are mixed the result is the same. The first sort key with a misspelt direction is
reported, also when a filter in front of it cannot be decoded; then comes the error of
the filter that counts, the last one that is not empty. Without either there is a page. Its filter
is the decoded one with the comparisons of the field pairs behind it, one after the other
under AND. It sorts by each field where the field was first mentioned, in the direction that
was mentioned last. -/
theorem kinds_decide (config : PaginationConfig) (pairs : List (String × String)) :
    readInTurn config pairs = ofPairs config pairs
      ∧ (∀ pairs', SameKinds pairs pairs' → readInTurn config pairs' = readInTurn config pairs)
      ∧ (∀ e, ofPairs config pairs = .error e ↔
          (∃ word, FirstMisdirected pairs word ∧ e = .badDirection word)
            ∨ (∀ token ∈ orderTokens pairs, ∀ word, ¬ Misdirected token word)
              ∧ ∃ text, Carries pairs text ∧ Filter.decode text = .error e ∧ e.kind = .transport)
      ∧ ∀ p, ofPairs config pairs = .ok p → ∃ sent orders,
          ((∃ text, Carries pairs text ∧ Filter.decode text = .ok sent)
            ∨ (∀ text, ¬ Carries pairs text) ∧ sent = ∅)
          ∧ p = withBounds
              ⟨⟨Filter.Node.leftNested (sent.root.toList ++ fieldTests pairs)⟩, orders, 0,
                some config.defaultLimit⟩
              (requestedBounds? config pairs)
          ∧ orders.keys = ((orderTokens pairs).map orderField).eraseDups
          ∧ ∀ field d, orders.get? field = some d ↔ ∃ before token after,
              orderTokens pairs = before ++ token :: after ∧ orderField token = field
                ∧ Directs token d ∧ ∀ later ∈ after, orderField later ≠ field := by
  refine ⟨readInTurn_eq_ofPairs config pairs, fun pairs' h => ?_, fun e => ?_, fun p hp => ?_⟩
  · rw [readInTurn_eq_ofPairs, readInTurn_eq_ofPairs, ofPairs_of_sameKinds h]
  · rw [← mapM_readOrder_eq_error_iff, ← exists_mapM_readOrder_iff,
      ← requestedFilter_eq_error_iff, ofPairs_eq]
    cases (orderTokens pairs).mapM readOrder with
    | error e' =>
        show Except.error e' = .error e ↔ _
        simp
    | ok keys =>
        show (requestedFilter pairs).map _ = .error e ↔ _
        cases requestedFilter pairs <;> simp [Except.map]
  · have hkeys := keys_orders_of_ofPairs hp
    obtain ⟨keys, sent, hread, hsent, rfl⟩ := exists_parts_of_ofPairs hp
    rw [ofParts, orders_withBounds] at hkeys
    refine ⟨sent, .ofList keys, requestedFilter_eq_ok_iff.mp hsent, ?_, hkeys, fun field d =>
      get?_ofList_eq_some_iff (map_eq_of_mapM hread)⟩
    rw [ofParts, ← Filter.root_conjunction]

/-- The same pairs mixed in two ways, with a filter that is none before a direction that is none;
and a request that is read, in which one field is sorted by twice. -/
theorem kinds_decide_of_mixed_pairs :
    let pairs := [("filter", "?"), ("a", "1"), ("order", "a, up "), ("page", "2")]
    let mixed := [("order", "a, up "), ("page", "2"), ("filter", "?"), ("a", "1")]
    let sound := [("a", "1"), ("order", "x,desc"), ("b", "NULL"), ("order[]", "y"), ("order", " x ")]
    readInTurn default mixed = readInTurn default pairs
      ∧ ofPairs default pairs = .error (.badDirection "up")
      ∧ ∃ p, ofPairs default sound = .ok p ∧ p.orders.keys = ["x", "y"]
        ∧ p.orders.get? "x" = some .ascending
        ∧ p.filter.root = some (.logical .and (.binary "a" "=" (.text "1")) (.unary "b" "IS NULL")) := by
  intro pairs mixed sound
  have hsame : SameKinds pairs mixed :=
    ⟨by decide, by decide, by decide, by decide, by decide⟩
  have hfirst : FirstMisdirected pairs "up" := by
    refine ⟨[], "a, up ", [], by decide, ⟨" up ", ⟨['a'], by decide, by decide⟩, by decide, ?_⟩,
      by simp⟩
    intro d
    cases d <;> decide
  obtain ⟨-, hmixed, herror, -⟩ := kinds_decide default pairs
  refine ⟨hmixed mixed hsame, (herror _).mpr (.inl ⟨"up", hfirst, rfl⟩), ?_⟩
  obtain ⟨p, hp⟩ : ∃ p, ofPairs default sound = .ok p := ⟨_, rfl⟩
  obtain ⟨-, -, -, hread⟩ := kinds_decide default sound
  obtain ⟨sent, orders, hsent, rfl, hkeys, hget⟩ := hread p hp
  have hlast : orders.get? "x" = some .ascending :=
    (hget "x" .ascending).mpr ⟨["x,desc", "y"], " x ", [], by decide, by decide,
      .inl ⟨by decide, rfl⟩, by simp⟩
  have hnone : ∀ text, ¬ Carries sound text := fun text h => by
    cases sentText?_eq_some_iff.mpr h
  refine ⟨_, hp, ?_, ?_, ?_⟩
  · rw [orders_withBounds, hkeys]
    decide
  · rw [orders_withBounds, hlast]
  · rcases hsent with ⟨text, htext, -⟩ | ⟨-, rfl⟩
    · exact absurd htext (hnone text)
    · rw [filter_withBounds]
      rfl

end RecordMapper
