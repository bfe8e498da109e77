import Mathlib
import RecordMapper.Proofs.Filter.Grammar
import RecordMapper.Proofs.Ordered
import RecordMapper.Proofs.Pagination.Request
import RecordMapper.Query.Statement

/-!
# The names in a request

The fields that the filter of a pagination compares, and the names that it sorts by, are
the ones that the pairs spell: the keys of the field pairs, the fields of the encoded
filter at any depth, and the parts of the sort keys before their first comma. None of
them is looked at. A tuple on an empty field stands for no condition, but a pair
under an empty key, a comparison sent on an empty field and a sort key without a
field are all taken, and the statement then shows an empty name
(`unnamed_iff`).
-/

namespace RecordMapper

open Query

namespace Filter

open Text

/-! ## What a text carries -/

/-- The JSON that a text carries in base64. -/
def carried? (text : String) : Option Json :=
  ((Base64.decode? (trim text).toList).bind Base64.textOf?).bind fun s => Json.parse? s.toList

theorem decode_eq_ok_iff {text : String} {f : Filter} :
    decode text = .ok f ↔ ∃ j, carried? text = some j ∧ ofJson j = .ok f := by
  rw [decode, carried?]
  cases Base64.decode? (trim text).toList with
  | none => simp
  | some bytes =>
      rw [Option.bind_some]
      cases hjson : (Base64.textOf? bytes).bind fun s => Json.parse? s.toList with
      | none => simp [hjson]
      | some j => simp [hjson]

/-- The fields of a filter are those that were sent. -/
theorem mem_fields_iff {j : Json} {f : Filter} (h : ofJson j = .ok f) {field : String} :
    field ∈ f.fields ↔ ∃ key operands, Node.Sends j key (.str field) operands := by
  have hempty : ∀ {j : Json}, (∀ key operands, ¬ Node.Sends j key (.str field) operands) →
      (field ∈ (∅ : Filter).fields ↔ ∃ key operands, Node.Sends j key (.str field) operands) := by
    intro j hnone
    constructor
    · intro hmem
      cases hmem
    · rintro ⟨key, operands, hsends⟩
      exact absurd hsends (hnone key operands)
  unfold ofJson at h
  split at h
  · cases h
    exact hempty fun key operands hsends => by cases hsends
  · cases h
    exact hempty fun key operands hsends => by cases hsends
  · cases h
    exact hempty fun key operands hsends => by cases hsends
  · cases hnode : Node.ofJson j with
    | error e =>
        rw [hnode] at h
        cases h
    | ok node =>
        rw [hnode] at h
        cases h
        exact (Node.lax_of_ofJson j node hnode).mem_fields_iff

end Filter

namespace Pagination

variable {config : PaginationConfig} {pairs : List (String × String)} {p : Pagination}

/-! ## Fields -/

/-- The JSON of the filter that the pairs carry. -/
def sentJson? (pairs : List (String × String)) : Option Json :=
  ((valuesOf ["filter"] pairs).filter fun text => !text.isEmpty).getLast?.bind Filter.carried?

theorem mem_fields_requestedFilter {sent : Filter} (h : requestedFilter pairs = .ok sent)
    {field : String} : field ∈ sent.fields ↔ ∃ j, sentJson? pairs = some j
      ∧ ∃ key operands, Filter.Node.Sends j key (.str field) operands := by
  rw [requestedFilter] at h
  rw [sentJson?]
  cases htext : ((valuesOf ["filter"] pairs).filter fun text => !text.isEmpty).getLast? with
  | none =>
      simp only [htext] at h
      cases h
      simp [show (∅ : Filter).fields = [] from rfl]
  | some text =>
      simp only [htext] at h
      obtain ⟨j, hj, hread⟩ := Filter.decode_eq_ok_iff.mp h
      simp [hj, Filter.mem_fields_iff hread]

theorem fields_comparison (field operator value : String) :
    (comparison field operator value).fields = [field] := by
  rw [comparison]
  split <;> rfl

/-- The fields of a request are those of the encoded filter, and those of the field pairs. -/
theorem fields_of_ofPairs (h : ofPairs config pairs = .ok p) :
    ∃ sent, requestedFilter pairs = .ok sent
      ∧ p.filter.fields = sent.fields ++ (fieldPairs pairs).map Prod.fst := by
  obtain ⟨sent, hsent, hfilter⟩ := filter_of_ofPairs h
  refine ⟨sent, hsent, ?_⟩
  have hroot : sent.root.toList.flatMap Filter.Node.fields = sent.fields := by
    rw [Filter.fields]
    cases sent.root <;> simp
  have htests : (fieldTests pairs).flatMap Filter.Node.fields
      = (fieldPairs pairs).map Prod.fst := by
    rw [fieldTests, List.flatMap_map]
    simp only [fields_comparison]
    exact List.flatMap_pure_eq_map _ _
  rw [hfilter, Filter.conjunction, Filter.fields,
    Filter.elim_root_foldl_push (fun _ _ _ => rfl), List.flatMap_append, hroot, htests]
  rfl

theorem mem_keys_fieldPairs {field : String} (h : field ∉ reserved) :
    field ∈ (fieldPairs pairs).map Prod.fst ↔ ∃ value, (field, value) ∈ pairs := by
  simp [fieldPairs, h]

/-! ## Sort keys -/

/-- The text of a sort key before its first comma, blanks around it aside. -/
def orderField (token : String) : String :=
  Text.trim (String.ofList (token.toList.takeWhile (· != ',')))

theorem fst_of_readOrder {token : String} {order : String × Direction}
    (h : readOrder token = .ok order) : order.1 = orderField token := by
  rw [readOrder] at h
  cases hdirection : token.toList.dropWhile (· != ',') with
  | nil =>
      simp only [hdirection] at h
      rw [← Except.ok.inj h, orderField]
  | cons comma direction =>
      simp only [hdirection] at h
      cases hparse : Direction.parse (String.ofList direction) with
      | error e =>
          rw [hparse] at h
          cases h
      | ok d =>
          rw [hparse] at h
          rw [← Except.ok.inj h, orderField]

theorem map_fst_of_map_readOrder : ∀ {tokens : List String} {keys : List (String × Direction)},
    tokens.map readOrder = keys.map .ok → keys.map Prod.fst = tokens.map orderField
  | [], [], _ => rfl
  | token :: rest, key :: more, h => by
      obtain ⟨hfirst, hrest⟩ := List.cons.inj h
      rw [List.map_cons, List.map_cons, fst_of_readOrder hfirst, map_fst_of_map_readOrder hrest]

/-- Each field of the sort keys stands where it was first mentioned. -/
theorem keys_orders_of_ofPairs (h : ofPairs config pairs = .ok p) :
    p.orders.keys = ((orderTokens pairs).map orderField).eraseDups := by
  obtain ⟨keys, sent, hkeys, -, rfl⟩ := exists_parts_of_ofPairs h
  rw [ofParts, orders_withBounds, OrderedMap.ofList, OrderedMap.keys_insertAll,
    map_fst_of_map_readOrder (map_eq_of_mapM hkeys)]
  rfl

theorem mem_keys_orders_of_ofPairs (h : ofPairs config pairs = .ok p) {name : String} :
    name ∈ p.orders.keys ↔ ∃ token ∈ orderTokens pairs, orderField token = name := by
  rw [keys_orders_of_ofPairs h, List.mem_eraseDups, List.mem_map]

end Pagination

/-! ## Statements -/

theorem Select.fields_paginate (q : Select) (p : Pagination) :
    (q.paginate p).filter.fields
      = q.filter.fields ++ p.filter.fields.map (Filter.qualifyName q.table) := by
  show (q.filter.append .and (p.filter.root.map (Filter.Node.qualify q.table))).fields = _
  rw [Filter.fields_append, Filter.fields, Filter.fields]
  cases p.filter.root with
  | none => rfl
  | some node =>
      rw [Option.map_some, Option.elim_some, Filter.Node.fields_qualify, Option.elim_some]

open Pagination

/-- What a request that is read makes a statement compare and sort by. Every name is spelt by
the pairs: a field by the encoded filter or as the key of a field pair, and belonging to
the query's table if it is bare; a sort key by its token. So none is empty if and only if no
pair has the empty key, no comparison is sent on the empty field, and no sort key
begins with its comma, blanks aside. -/
theorem unnamed_iff {config : PaginationConfig} {pairs : List (String × String)} {p : Pagination}
    (hp : ofPairs config pairs = .ok p) :
    (∃ sent, requestedFilter pairs = .ok sent
        ∧ p.filter.fields = sent.fields ++ (fieldPairs pairs).map Prod.fst)
      ∧ (∀ name, name ∈ p.orders.keys ↔ ∃ token ∈ orderTokens pairs, orderField token = name)
      ∧ ((∀ name, name ∈ p.filter.fields ∨ name ∈ p.orders.keys → name ≠ "")
        ↔ (∀ value, ("", value) ∉ pairs)
          ∧ (∀ j, sentJson? pairs = some j →
              ∀ key operands, ¬ Filter.Node.Sends j key (.str "") operands)
          ∧ ∀ token ∈ orderTokens pairs, orderField token ≠ "")
      ∧ ∀ q : Select, (q.paginate p).filter.fields
          = q.filter.fields ++ p.filter.fields.map (Filter.qualifyName q.table)
        ∧ ∀ name, name ∈ (q.paginate p).orders.keys
          ↔ name ∈ q.orders.keys ∨ name ∈ p.orders.keys := by
  obtain ⟨sent, hsent, hfields⟩ := fields_of_ofPairs hp
  have horders : ∀ name, name ∈ p.orders.keys
      ↔ ∃ token ∈ orderTokens pairs, orderField token = name :=
    fun name => mem_keys_orders_of_ofPairs hp
  have hkey : "" ∈ (fieldPairs pairs).map Prod.fst ↔ ∃ value, ("", value) ∈ pairs :=
    mem_keys_fieldPairs (by decide)
  refine ⟨⟨sent, hsent, hfields⟩, horders, ?_, fun q => ⟨q.fields_paginate p, fun name =>
    OrderedMap.mem_keys_insertAll⟩⟩
  rw [hfields]
  constructor
  · intro hnamed
    refine ⟨fun value hmem => ?_, fun j hj key operands hsends => ?_, fun token htoken hempty => ?_⟩
    · exact hnamed "" (.inl (List.mem_append_right _ (hkey.mpr ⟨value, hmem⟩))) rfl
    · have hfield := (mem_fields_requestedFilter hsent).mpr ⟨j, hj, key, operands, hsends⟩
      exact hnamed "" (.inl (List.mem_append_left _ hfield)) rfl
    · exact hnamed "" (.inr ((horders "").mpr ⟨token, htoken, hempty⟩)) rfl
  · rintro ⟨hpairs, hsends, htokens⟩ name hname rfl
    rcases hname with hname | hname
    · rcases List.mem_append.mp hname with hname | hname
      · obtain ⟨j, hj, key, operands, hfield⟩ := (mem_fields_requestedFilter hsent).mp hname
        exact hsends j hj key operands hfield
      · obtain ⟨value, hvalue⟩ := hkey.mp hname
        exact hpairs value hvalue
    · obtain ⟨token, htoken, hempty⟩ := (horders "").mp hname
      exact htokens token htoken hempty

theorem unnamed_iff_of_named_pairs :
    ∃ p, ofPairs default [("state", "NULL"), ("order", " name ,desc")] = .ok p
      ∧ ∀ name, name ∈ p.filter.fields ∨ name ∈ p.orders.keys → name ≠ "" := by
  obtain ⟨p, hp⟩ : ∃ p, ofPairs default [("state", "NULL"), ("order", " name ,desc")] = .ok p :=
    ⟨_, rfl⟩
  have hsent : sentJson? [("state", "NULL"), ("order", " name ,desc")] = none := rfl
  obtain ⟨-, -, hnamed, -⟩ := unnamed_iff hp
  refine ⟨p, hp, hnamed.mpr ⟨fun value => by simp, fun j hj => ?_, by decide⟩⟩
  rw [hsent] at hj
  cases hj

/-- A pair under the empty key, an encoded comparison on the empty field and a sort key
without a field are read, and the statement shows an empty name. -/
theorem unnamed_requests :
    (∃ p, ofPairs default [("", "v")] = .ok p ∧ p.filter.fields = [""]
        ∧ ((Select.ofTable "t").paginate p).build.sql
          = "SELECT SQL_CALC_FOUND_ROWS `t`.* FROM `t` WHERE `t`.`` = :value1 LIMIT 0, 1000")
      ∧ (∃ p, ofPairs default [("filter", "eyI9IjpbIiIsMV19")] = .ok p ∧ p.filter.fields = [""])
      ∧ ∃ p, ofPairs default [("order", ",asc")] = .ok p ∧ p.orders.keys = [""]
        ∧ ((Select.ofTable "t").paginate p).build.sql
          = "SELECT SQL_CALC_FOUND_ROWS `t`.* FROM `t` ORDER BY `` ASC LIMIT 0, 1000" := by
  refine ⟨⟨_, rfl, rfl, by decide⟩, ?_, ⟨_, rfl, rfl, by decide⟩⟩
  have hsent : requestedFilter [("filter", "eyI9IjpbIiIsMV19")]
      = .ok ⟨some (.binary "" "=" (.int 1))⟩ := by
    cbv
  exact ⟨_, ofPairs_eq_ok_iff.mpr ⟨_, _, rfl, hsent, rfl⟩, rfl⟩

end RecordMapper
