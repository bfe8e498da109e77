import RecordMapper.Pagination
import RecordMapper.Proofs.Filter.Transport
import RecordMapper.Proofs.Items
import RecordMapper.Proofs.Mentions

/-!
# What is read from a request

The filter of a pagination that was read from pairs: the tree that came encoded,
with a comparison for each field pair joined to it, one after the other
(`filter_of_ofPairs`). Nothing else of a request reaches the filter.
-/

namespace RecordMapper

/-- The trees joined by AND, one after the other. -/
def Filter.conjunction (nodes : List Filter.Node) : Filter :=
  nodes.foldl (fun f node => f.push .and node) ∅

theorem Filter.conjunction_toList (node : Option Filter.Node) :
    conjunction node.toList = (∅ : Filter).append .and node := by
  cases node <;> rfl

theorem Filter.elim_root_foldl_push {α : Type} {shown : Node → List α}
    (h : ∀ op left right, shown (.logical op left right) = shown left ++ shown right) :
    ∀ (nodes : List Node) (f : Filter),
      (nodes.foldl (fun f node => f.push .and node) f).root.elim [] shown
        = f.root.elim [] shown ++ nodes.flatMap shown
  | [], f => by simp
  | node :: rest, f => by
      rw [List.foldl_cons, Filter.elim_root_foldl_push h rest, elim_root_push h,
        List.flatMap_cons, List.append_assoc]

namespace Pagination

/-- The sort keys among the pairs. -/
def orderTokens (pairs : List (String × String)) : List String :=
  (valuesOf ["order", "order[]"] pairs).filter fun token => !token.isEmpty

/-- The comparisons that the field pairs ask for. -/
def fieldTests (pairs : List (String × String)) : List Filter.Node :=
  (fieldPairs pairs).map fun e => comparison e.1 "=" e.2

/-- Sort keys are read one by one and then take their places in turn. -/
theorem addOrderTokens_eq : ∀ (tokens : List String) (p : Pagination),
    p.addOrderTokens tokens = (tokens.mapM readOrder).map fun keys =>
      { p with orders := p.orders.insertAll keys }
  | [], _ => rfl
  | token :: rest, p => by
      rw [addOrderTokens, addOrderToken, List.mapM_cons]
      cases readOrder token with
      | error e => rfl
      | ok key =>
          show (p.addOrder key.1 key.2).addOrderTokens rest = _
          rw [addOrderTokens_eq rest]
          cases rest.mapM readOrder <;> rfl

theorem foldl_addFilter_eq : ∀ (pairs : List (String × String)) (p : Pagination),
    pairs.foldl (fun p e => p.addFilter e.1 "=" e.2) p
      = { p with
          filter := (pairs.map fun e => comparison e.1 "=" e.2).foldl
            (fun f node => f.push .and node) p.filter }
  | [], _ => rfl
  | e :: rest, p => foldl_addFilter_eq rest (p.addFilter e.1 "=" e.2)

@[simp] theorem filter_withBounds (p : Pagination) (bounds : Option (Nat × Nat)) :
    (p.withBounds bounds).filter = p.filter := by
  cases bounds <;> rfl

@[simp] theorem orders_withBounds (p : Pagination) (bounds : Option (Nat × Nat)) :
    (p.withBounds bounds).orders = p.orders := by
  cases bounds <;> rfl

/-- What a request asks for, once its sort keys and its filter are read. -/
def ofParts (config : PaginationConfig) (pairs : List (String × String))
    (keys : List (String × Query.Direction)) (sent : Filter) : Pagination :=
  withBounds
    ⟨.conjunction (sent.root.toList ++ fieldTests pairs), .ofList keys, 0, some config.defaultLimit⟩
    (requestedBounds? config pairs)

/-- A request is read in three parts: its sort keys, its filter, and all that cannot fail. -/
theorem ofPairs_eq (config : PaginationConfig) (pairs : List (String × String)) :
    ofPairs config pairs = (orderTokens pairs).mapM readOrder >>= fun keys =>
      (requestedFilter pairs).map fun sent => ofParts config pairs keys sent := by
  rw [ofPairs, ← orderTokens, addOrderTokens_eq]
  cases (orderTokens pairs).mapM readOrder with
  | error e => rfl
  | ok keys =>
      cases requestedFilter pairs with
      | error e => rfl
      | ok sent =>
          have hfilter : (fieldTests pairs).foldl (fun f node => f.push .and node)
              ((∅ : Filter).append .and sent.root)
              = .conjunction (sent.root.toList ++ fieldTests pairs) := by
            rw [← Filter.conjunction_toList, Filter.conjunction, Filter.conjunction,
              List.foldl_append]
          refine congrArg Except.ok ?_
          show _ = ofParts config pairs keys sent
          rw [foldl_addFilter_eq, ofParts, ← hfilter]
          cases requestedBounds? config pairs <;> rfl

/-- A request is read if and only if its sort keys and its filter are. -/
theorem ofPairs_eq_ok_iff {config : PaginationConfig} {pairs : List (String × String)}
    {p : Pagination} :
    ofPairs config pairs = .ok p ↔ ∃ ordered sent,
      (ofConfig config).addOrderTokens
          ((valuesOf ["order", "order[]"] pairs).filter fun token => !token.isEmpty) = .ok ordered
        ∧ requestedFilter pairs = .ok sent
        ∧ (fieldPairs pairs).foldl (fun p e => p.addFilter e.1 "=" e.2)
            ((ordered.withBounds (requestedBounds? config pairs)).andWhere sent.root) = p := by
  unfold ofPairs
  constructor
  · intro h
    cases horders : (ofConfig config).addOrderTokens
        ((valuesOf ["order", "order[]"] pairs).filter fun token => !token.isEmpty) with
    | error e =>
        simp only [horders] at h
        cases h
    | ok ordered =>
        cases hsent : requestedFilter pairs with
        | error e =>
            simp only [horders, hsent] at h
            cases h
        | ok sent =>
            simp only [horders, hsent] at h
            exact ⟨ordered, sent, rfl, rfl, Except.ok.inj h⟩
  · rintro ⟨ordered, sent, horders, hsent, rfl⟩
    simp only [horders, hsent]
    rfl

theorem exists_parts_of_ofPairs {config : PaginationConfig} {pairs : List (String × String)}
    {p : Pagination} (h : ofPairs config pairs = .ok p) :
    ∃ keys sent, (orderTokens pairs).mapM readOrder = .ok keys ∧ requestedFilter pairs = .ok sent
      ∧ p = ofParts config pairs keys sent := by
  rw [ofPairs_eq] at h
  cases hkeys : (orderTokens pairs).mapM readOrder with
  | error e =>
      rw [hkeys] at h
      cases h
  | ok keys =>
      cases hsent : requestedFilter pairs with
      | error e =>
          rw [hkeys, hsent] at h
          cases h
      | ok sent =>
          rw [hkeys, hsent] at h
          exact ⟨keys, sent, rfl, rfl, (Except.ok.inj h).symm⟩

/-- A request's filter is the decoded one and the field pairs, under AND. -/
theorem filter_of_ofPairs {config : PaginationConfig} {pairs : List (String × String)}
    {p : Pagination} (h : ofPairs config pairs = .ok p) :
    ∃ sent, requestedFilter pairs = .ok sent
      ∧ p.filter = Filter.conjunction (sent.root.toList ++ fieldTests pairs) := by
  obtain ⟨keys, sent, -, hsent, rfl⟩ := exists_parts_of_ofPairs h
  exact ⟨sent, hsent, filter_withBounds _ _⟩

end Pagination

end RecordMapper
