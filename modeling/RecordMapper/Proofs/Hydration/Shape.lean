import Mathlib.Data.List.Induction
import Mathlib.Data.String.Basic
import RecordMapper.Proofs.Hydration.Agreement
import RecordMapper.Proofs.Hydration.Counter
import RecordMapper.Proofs.Hydration.Once
import RecordMapper.Proofs.Ordered

/-!
# The shape of a hydrated record

What keys the object of a record has, and which of its values are the stored ones, depends on the
record and on the lists of the pass alone (`composed_walk`). How the relations are got
does not come into it, whether by accessors or out of a memo and whatever that holds.

A pass goes through many records, and what becomes of those further in is not in the answers of
its calls as it is: a relation may lead to a query, and the memo shows what was made before. So
there is a walk that writes down every record with its JSON as soon as it is complete, and does
what the library does besides (`erases_walkRequest_showing`). All that it
writes down has the shape that the lists of the pass say (`orderly_showAll`), at whatever depth.
-/

namespace RecordMapper

/-! ## Members -/

namespace Json

/-- Keys in order, so none of them twice. -/
def Ascending (members : List (String × Json)) : Prop :=
  (members.map Prod.fst).Pairwise (· < ·)

theorem mem_keys_insertMember {name key : String} {j : Json} {members : List (String × Json)} :
    name ∈ (insertMember key j members).map Prod.fst
      ↔ name = key ∨ name ∈ members.map Prod.fst := by
  induction members with
  | nil => simp [insertMember]
  | cons m rest ih =>
      rw [insertMember]
      split
      · simp
      · split
        · next hkey => simp [hkey]
        · rw [List.map_cons, List.mem_cons, ih, List.map_cons, List.mem_cons]
          exact or_left_comm

theorem Ascending.insertMember {key : String} {j : Json} :
    ∀ {members : List (String × Json)}, Ascending members →
      Ascending (insertMember key j members)
  | [], _ => List.pairwise_singleton _ _
  | m :: rest, h => by
      obtain ⟨hfirst, hrest⟩ := List.pairwise_cons.mp h
      rw [Json.insertMember]
      split
      · next hbefore =>
          refine List.pairwise_cons.mpr ⟨fun name hname => ?_, h⟩
          rcases List.mem_cons.mp hname with rfl | hname
          · exact hbefore
          · exact lt_trans hbefore (hfirst name hname)
      · next hbefore =>
          split
          · next hkey => exact List.pairwise_cons.mpr ⟨hkey ▸ hfirst, hrest⟩
          · next hkey =>
              have hafter : m.1 < key := lt_of_le_of_ne (not_lt.mp hbefore) (Ne.symm hkey)
              refine List.pairwise_cons.mpr ⟨fun name hname => ?_, Ascending.insertMember hrest⟩
              rcases mem_keys_insertMember.mp hname with rfl | hname
              · exact hafter
              · exact hfirst name hname

theorem sortMembers_concat (pairs : List (String × Json)) (e : String × Json) :
    sortMembers (pairs ++ [e]) = insertMember e.1 e.2 (sortMembers pairs) := by
  rw [sortMembers, List.foldl_append]
  rfl

theorem ascending_sortMembers (pairs : List (String × Json)) : Ascending (sortMembers pairs) := by
  induction pairs using List.reverseRecOn with
  | nil => exact .nil
  | append_singleton pairs e ih =>
      rw [sortMembers_concat]
      exact ih.insertMember

theorem mem_keys_sortMembers {name : String} {pairs : List (String × Json)} :
    name ∈ (sortMembers pairs).map Prod.fst ↔ name ∈ pairs.map Prod.fst := by
  induction pairs using List.reverseRecOn with
  | nil => rfl
  | append_singleton pairs e ih =>
      rw [sortMembers_concat, mem_keys_insertMember, ih, List.map_append, List.mem_append, or_comm]
      simp

end Json

namespace Hydration

open Session

variable {σ τ ρ α β : Type} [Entity ρ]

/-! ## Objects out of stored fields and relations -/

/-- The members of a record with relations of these names put in: the keys are those of the stored
fields and these, and the fields that have not given way to a relation are shown as
they are stored. -/
structure Composed (r : ρ) (names : List String) (members : List (String × Json)) : Prop where
  ascending : Json.Ascending members
  keys : ∀ name, name ∈ members.map Prod.fst ↔ name ∈ (Entity.fields r).keys ∨ name ∈ names
  stored : ∀ name v, Entity.get? r name = some v → name ∉ names →
    member? name members = some v.toJson

theorem Composed.insertMember {r : ρ} {names : List String} {members : List (String × Json)}
    (h : Composed r names members) (name : String) (j : Json) :
    Composed r (names ++ [name]) (Json.insertMember name j members) where
  ascending := h.ascending.insertMember
  keys other := by
    rw [Json.mem_keys_insertMember, h.keys, List.mem_append, List.mem_singleton]
    tauto
  stored other v hv hother := by
    rw [List.mem_append, List.mem_singleton, not_or] at hother
    rw [member?_insertMember, if_neg (Ne.symm hother.2)]
    exact h.stored other v hv hother.1

/-- Of pairs with distinct names each is a member. -/
theorem member?_sortMembers {name : String} {j : Json} {pairs : List (String × Json)}
    (hnodup : (pairs.map Prod.fst).Nodup) (hmem : (name, j) ∈ pairs) :
    member? name (Json.sortMembers pairs) = some j := by
  induction pairs using List.reverseRecOn with
  | nil => cases hmem
  | append_singleton pairs e ih =>
      rw [List.map_append, List.nodup_append] at hnodup
      rw [Json.sortMembers_concat, member?_insertMember]
      rcases List.mem_append.mp hmem with hmem | hmem
      · have hne : e.1 ≠ name :=
          (hnodup.2.2 name (List.mem_map_of_mem hmem) e.1 (by simp)).symm
        rw [if_neg hne]
        exact ih hnodup.1 hmem
      · rw [← List.mem_singleton.mp hmem, if_pos rfl]

theorem composed_storedMembers (r : ρ) : Composed r [] (storedMembers r) := by
  have hpairs : ((Entity.fields r).entries.map fun e => (e.1, e.2.toJson)).map Prod.fst
      = (Entity.fields r).keys := by
    rw [List.map_map]
    rfl
  refine ⟨Json.ascending_sortMembers _, fun name => ?_, fun name v hv _ => ?_⟩
  · rw [storedMembers, Json.mem_keys_sortMembers, hpairs]
    simp
  · refine member?_sortMembers (hpairs ▸ (Entity.fields r).nodup) ?_
    exact List.mem_map.mpr ⟨(name, v), OrderedMap.get?_eq_some_iff.mp hv, rfl⟩

theorem composed_addRelations {r : ρ} {act : String → Expansion σ Json} :
    ∀ {names done : List String} {members members' : List (String × Json)} {x x' : Pass × σ},
      Composed r done members → (addRelations act names members).outcome x = (.ok members', x') →
      Composed r (done ++ names) members'
  | [], done, members, members', x, x', h, hrun => by
      cases hrun
      rw [List.append_nil]
      exact h
  | name :: rest, done, members, members', x, x', h, hrun => by
      obtain ⟨j, x₁, -, hrest⟩ := outcome_bind_eq_ok_iff.mp hrun
      have hall := composed_addRelations (h.insertMember name j) hrest
      rwa [List.append_assoc, List.singleton_append] at hall

/-- However relations are got, the relations of the pass are put in before the last level, and
none at it. -/
theorem composed_walk {step : Step σ ρ} {r : ρ} {j : Json} {x x' : Pass × σ} :
    ∀ {levels : Nat}, (walk step levels r).outcome x = (.ok j, x') →
      ∃ members, j = .obj members
        ∧ Composed r (if levels = 0 then [] else relationNames x.1 r) members
  | 0, hrun => by
      cases hrun
      exact ⟨_, rfl, composed_storedMembers r⟩
  | levels + 1, hrun => by
      obtain ⟨pass, x₁, hown, hrun⟩ := outcome_bind_eq_ok_iff.mp hrun
      cases hown
      obtain ⟨members, x₂, hmembers, hpure⟩ := outcome_bind_eq_ok_iff.mp hrun
      cases hpure
      exact ⟨members, rfl, composed_addRelations (composed_storedMembers r) hmembers⟩

/-! ## What the lists of a pass say -/

/-- The pass expands a relation of this name: one that the record declares, or one that is listed
as extra and that the record neither declares nor stores; none that is skipped. -/
structure Expands (p : Pass) (r : ρ) (name : String) : Prop where
  notSkipped : name ∉ p.skipped
  named : name ∈ Entity.relations r
    ∨ name ∈ p.extra ∧ name ∉ Entity.relations r ∧ name ∉ (Entity.fields r).keys

omit [Entity ρ] in
theorem contains_eq_true_iff {m : OrderedMap α} {name : String} :
    m.contains name = true ↔ name ∈ m.keys := by
  simp [OrderedMap.contains, OrderedMap.keys]

theorem mem_relationNames_iff {p : Pass} {r : ρ} {name : String} :
    name ∈ relationNames p r ↔ Expands p r name := by
  have hstored : ((Entity.fields r).contains name = false) ↔ name ∉ (Entity.fields r).keys := by
    rw [← contains_eq_true_iff, Bool.not_eq_true]
  constructor
  · intro h
    simp only [relationNames, List.mem_filter, List.mem_append, Bool.and_eq_true,
      Bool.not_eq_true', List.contains_eq_mem, decide_eq_false_iff_not, hstored] at h
    exact ⟨h.2, h.1⟩
  · intro h
    simp only [relationNames, List.mem_filter, List.mem_append, Bool.and_eq_true,
      Bool.not_eq_true', List.contains_eq_mem, decide_eq_false_iff_not, hstored]
    exact ⟨h.named, h.notSkipped⟩

/-- The members that a record has at this depth of a pass with these lists. -/
structure Shaped (p : Pass) (depth : Nat) (r : ρ) (members : List (String × Json)) : Prop where
  ascending : Json.Ascending members
  keys : ∀ name, name ∈ members.map Prod.fst
    ↔ name ∈ (Entity.fields r).keys ∨ depth + 1 < p.maxDepth ∧ Expands p r name
  stored : ∀ name v, Entity.get? r name = some v →
    (depth + 1 < p.maxDepth → name ∈ Entity.relations r → name ∈ p.skipped) →
      member? name members = some v.toJson

/-- A stored field gives way to a declared relation only. -/
theorem shaped_of_composed {p : Pass} {depth : Nat} {r : ρ} {names : List String}
    {members : List (String × Json)} (h : Composed r names members)
    (hnames : ∀ name, name ∈ names ↔ depth + 1 < p.maxDepth ∧ Expands p r name) :
    Shaped p depth r members where
  ascending := h.ascending
  keys name := by rw [h.keys, hnames]
  stored name v hv hshown := by
    refine h.stored name v hv fun hname => ?_
    obtain ⟨hdepth, hexpands⟩ := (hnames name).mp hname
    rcases hexpands.named with hdeclared | ⟨-, -, hnew⟩
    · exact hexpands.notSkipped (hshown hdepth hdeclared)
    · exact hnew (List.mem_map_of_mem (OrderedMap.get?_eq_some_iff.mp hv))

/-- What a walk makes of a record has the shape that the lists say, if it goes down to the last
level. -/
theorem shaped_walk {step : Step σ ρ} {p : Pass} {depth levels : Nat} {r : ρ} {j : Json}
    {x x' : Pass × σ} (hnames : p.SameNames x.1) (hlevels : p.maxDepth - (depth + 1) = levels)
    (hrun : (walk step levels r).outcome x = (.ok j, x')) :
    ∃ members, j = .obj members ∧ Shaped p depth r members := by
  obtain ⟨members, hj, hmembers⟩ := composed_walk hrun
  refine ⟨members, hj, shaped_of_composed hmembers fun name => ?_⟩
  rw [relationNames_congr hnames.symm]
  by_cases hlast : levels = 0
  · have hdepth : ¬ depth + 1 < p.maxDepth := by omega
    simp [hlast, hdepth]
  · have hdepth : depth + 1 < p.maxDepth := by omega
    rw [if_neg hlast, mem_relationNames_iff]
    exact ⟨fun h => ⟨hdepth, h⟩, fun h => h.2⟩

/-! ## Showings -/

/-- A record that was made into JSON. -/
structure Showing (ρ : Type) where
  record : ρ
  /-- How many records enclosed it. -/
  depth : Nat
  json : Json

/-- Hydration beside a list of showings, the latest last. -/
abbrev Listing (σ ρ : Type) := Expansion (List (Showing ρ) × σ)

def Showing.Shaped (p : Pass) (shown : Showing ρ) : Prop :=
  ∃ members, shown.json = .obj members ∧ Hydration.Shaped p shown.depth shown.record members

/-- Writes a record down with its JSON as soon as that is complete. -/
def showing (act : ρ → Listing σ ρ Json) (r : ρ) : Listing σ ρ Json := do
  let pass ← Session.own
  let j ← act r
  (Session.modifyOwn fun log => log ++ [⟨r, pass.depth, j⟩]).beside
  pure j

/-- Gets a relation as the library does, and writes down the records that it leads to. -/
def relationShowing (db : Engine σ) (schema : Schema σ ρ) : Step (List (Showing ρ) × σ) ρ :=
  fun _ expand r relation =>
    relationJson (db.beside (List (Showing ρ))) (schema.beside (List (Showing ρ)))
      (showing expand) r relation

def recordShowing (db : Engine σ) (schema : Schema σ ρ) (r : ρ) : Listing σ ρ Json :=
  showing (Request.walkRecord (relationShowing db schema)) r

def Request.showing (db : Engine σ) (schema : Schema σ ρ) : Request ρ → Listing σ ρ Json
  | .one r => recordShowing db schema r
  | .all s => do
      let js ← arrayOf (recordShowing db schema) s.items
      pure (.arr js)

/-- The answers to calls in turn on one pass, with all records written down on the way. -/
def showAll (db : Engine σ) (schema : Schema σ ρ) : List (Request ρ) →
    Pass × (List (Showing ρ) × σ) → List (Except Error Json) × (Pass × (List (Showing ρ) × σ))
  | [], x => ([], x)
  | request :: rest, x =>
      let first := (request.showing db schema).outcome x
      let later := showAll db schema rest first.2
      (first.1 :: later.1, later.2)

omit [Entity ρ] in
theorem outcome_showing (act : ρ → Listing σ ρ Json) (r : ρ) (x : Pass × (List (Showing ρ) × σ)) :
    (showing act r).outcome x = match (act r).outcome x with
      | (.ok j, x') => (.ok j, (x'.1, (x'.2.1 ++ [⟨r, x.1.depth, j⟩], x'.2.2)))
      | (.error e, x') => (.error e, x') := by
  rw [showing, outcome_bind, outcome_own]
  obtain ⟨result, x', hact⟩ := (act r).exists_outcome x
  dsimp only
  rw [outcome_bind, hact]
  cases result <;> rfl

/-! ## Forgetting the showings -/

omit [Entity ρ] in
theorem erases_showing {act : ρ → Expansion σ Json} {act' : ρ → Listing σ ρ Json}
    (h : ∀ r, Erases (act r) (act' r)) (r : ρ) : Erases (act r) (showing act' r) := by
  intro x
  rw [outcome_showing, h r x]
  obtain ⟨result, x', hact⟩ := (act' r).exists_outcome x
  rw [hact]
  cases result <;> rfl

theorem erases_relationShowing {db : Engine σ} {schema : Schema σ ρ} (levels : Nat)
    {expand : ρ → Expansion σ Json} {expand' : ρ → Listing σ ρ Json}
    (h : ∀ r, Erases (expand r) (expand' r)) (r : ρ) (relation : String) :
    Erases (relationJson db schema expand r relation)
      (relationShowing db schema levels expand' r relation) :=
  erases_relationJson rfl (fun r relation => erases_beside (schema.resolve r relation))
    (erases_showing h) r relation

theorem erases_walkRequest_showing (db : Engine σ) (schema : Schema σ ρ) (request : Request ρ) :
    Erases (request.run db schema) (request.showing db schema) := by
  rw [Request.run_eq_walk]
  have hrecord : ∀ r, Erases (Request.walkRecord (fun _ => relationJson db schema) r)
      (recordShowing db schema r) :=
    erases_showing fun r => compositional_erases.walkRequest erases_own
      (compositional_erases.walk erases_own fun levels _ _ h => erases_relationShowing levels h)
      (.one r)
  cases request with
  | one r => exact hrecord r
  | all s =>
      exact compositional_erases.bind (compositional_erases.arrayOf hrecord s.items) fun js =>
        compositional_erases.pure (Json.arr js)

theorem showAll_erases (db : Engine σ) (schema : Schema σ ρ) : ∀ (requests : List (Request ρ))
    (x : Pass × (List (Showing ρ) × σ)),
    runAll db schema requests (x.1, x.2.2)
      = ((showAll db schema requests x).1,
          ((showAll db schema requests x).2.1, (showAll db schema requests x).2.2.2))
  | [], _ => rfl
  | request :: rest, x => by
      have hfirst := erases_walkRequest_showing db schema request x
      have hrest := showAll_erases db schema rest ((request.showing db schema).outcome x).2
      rw [runAll, showAll, hfirst]
      simp only [hrest]

/-! ## Everything shown and called is in order -/

/-- A state within calls that began on the pass `p`: the lists are those of `p`, all records that
were written down have their shape, and only relations that `p` expands were resolved. -/
structure Orderly (p : Pass) (depth : Nat)
    (x : Pass × (List (Showing ρ) × (List (Visit ρ) × σ))) : Prop where
  sameNames : p.SameNames x.1
  place : x.1.At p.maxDepth depth
  showings : ∀ shown ∈ x.2.1, shown.Shaped p
  visits : ∀ v ∈ x.2.2.1, Expands p v.record v.relation

variable {p : Pass} {depth : Nat}

theorem orderly_beside (act : Session σ α) :
    Keeps (Orderly p depth)
      (act.beside.beside.beside : Listing (List (Visit ρ) × σ) ρ α) :=
  fun _ hx => ⟨hx.sameNames, hx.place, hx.showings, hx.visits⟩

theorem orderly_remember (key : MemoKey) (j : Json) :
    Keeps (Orderly p depth) (modifyOwn fun q => q.remember key j :
      Listing (List (Visit ρ) × σ) ρ Unit) :=
  fun _ hx => ⟨hx.sameNames, ⟨hx.place.maxDepth, hx.place.depth⟩, hx.showings, hx.visits⟩

theorem orderly_within {act : Listing (List (Visit ρ) × σ) ρ α}
    (h : Keeps (Orderly p (depth + 1)) act) :
    Keeps (Orderly p depth) (within Pass.deeper Pass.shallower act) := by
  intro x hx
  have hinner := h (x.1.deeper, x.2) ⟨hx.sameNames, hx.place.deeper, hx.showings, hx.visits⟩
  exact ⟨hinner.sameNames, hinner.place.shallower, hinner.showings, hinner.visits⟩

theorem orderly_resolve {r : ρ} {relation : String} (h : Expands p r relation)
    (schema : Schema σ ρ) :
    Keeps (Orderly p depth)
      ((((schema.traced id).beside (List (Showing ρ))).resolve r relation).beside :
        Listing (List (Visit ρ) × σ) ρ (Relation ρ)) := by
  intro x hx
  refine ⟨hx.sameNames, hx.place, hx.showings, fun v hv => ?_⟩
  rcases List.mem_append.mp hv with hv | hv
  · exact hx.visits v hv
  · rw [List.mem_singleton.mp hv]
    exact h

variable (db : Engine σ) (schema : Schema σ ρ)

/-- A relation that the pass expands may be resolved; what it leads to is one level further down. -/
theorem orderly_relationShowing {r : ρ} {relation : String} (hexpands : Expands p r relation)
    (levels : Nat) {expand : ρ → Listing (List (Visit ρ) × σ) ρ Json}
    (h : ∀ r', Keeps (Orderly p (depth + 1)) (showing expand r')) :
    Keeps (Orderly p depth) (relationShowing (db.beside (List (Visit ρ))) (schema.traced id) levels
      expand r relation) := by
  have hquery : ∀ q : Select, Keeps (Orderly p (depth + 1))
      (q.getDynamic ((db.beside (List (Visit ρ))).beside (List (Showing ρ)))
        ((schema.traced id).beside (List (Showing ρ)))).beside := by
    intro q
    rw [q.getDynamic_beside, getDynamic_traced]
    exact orderly_beside (q.getDynamic db schema)
  refine keeps_own.bind fun pass => ?_
  cases (memoKey? r relation).bind pass.lookup? with
  | some j => exact keeps_pure j
  | none =>
      refine (orderly_resolve hexpands schema).bind fun resolved => ?_
      have hvalue := (compositional_keeps (Orderly p (depth + 1))).normalize
        (fun q => ⟨rfl, hquery q⟩) (fun r' => ⟨rfl, h r'⟩) resolved
      refine (orderly_within hvalue.2).bind fun j => ?_
      cases memoKey? r relation with
      | none => exact keeps_pure j
      | some key => exact (orderly_remember key j).bind fun _ => keeps_pure j

/-- If the walk goes down to the last level, a record is written down in the shape that it has. -/
theorem orderly_showing {step : Step (List (Showing ρ) × (List (Visit ρ) × σ)) ρ} {levels : Nat}
    (hlevels : p.maxDepth - (depth + 1) = levels) {r : ρ}
    (h : Keeps (Orderly p depth) (walk step levels r)) :
    Keeps (Orderly p depth) (showing (walk step levels) r) := by
  intro x hx
  have hx' := h x hx
  obtain ⟨result, x', hwalk⟩ := (walk step levels r).exists_outcome x
  rw [hwalk] at hx'
  rw [outcome_showing, hwalk]
  cases result with
  | error e => exact hx'
  | ok j =>
      refine ⟨hx'.sameNames, hx'.place, fun shown hshown => ?_, hx'.visits⟩
      rcases List.mem_append.mp hshown with hshown | hshown
      · exact hx'.showings shown hshown
      · rw [List.mem_singleton.mp hshown]
        obtain ⟨members, hj, hmembers⟩ := shaped_walk hx.sameNames hlevels hwalk
        exact ⟨members, hj, hx.place.depth ▸ hmembers⟩

/-- The induction is on the levels. The relations of a record are those that its own pass names,
and these are the ones that `p` expands, as the lists never change. -/
theorem orderly_walk : ∀ (levels depth : Nat) (r : ρ), p.maxDepth - (depth + 1) = levels →
    Keeps (Orderly p depth)
      (walk (relationShowing (db.beside (List (Visit ρ))) (schema.traced id)) levels r)
  | 0, _, _, _ => keeps_pure _
  | levels + 1, depth, r, hlevels => by
      have hinner : ∀ r', Keeps (Orderly p (depth + 1)) (showing
          (walk (relationShowing (db.beside (List (Visit ρ))) (schema.traced id)) levels) r') := by
        intro r'
        have hbelow : p.maxDepth - (depth + 1 + 1) = levels := by omega
        exact orderly_showing hbelow (orderly_walk levels (depth + 1) r' hbelow)
      intro x hx
      have hnames : ∀ name ∈ relationNames x.1 r, Expands p r name := by
        intro name hname
        rw [relationNames_congr hx.sameNames.symm] at hname
        exact mem_relationNames_iff.mp hname
      have hmembers := (compositional_keeps (Orderly p depth)).addRelations_of_mem
        (relationNames x.1 r) (fun name hname => ⟨rfl,
          orderly_relationShowing db schema (hnames name hname) levels hinner⟩)
        (storedMembers r)
      exact hmembers.2.bind (fun members => keeps_pure (Json.obj members)) x hx

theorem orderly_walkRequest (request : Request ρ) : Keeps (Orderly p depth)
    (request.showing (db.beside (List (Visit ρ))) (schema.traced id)) := by
  have hrecord : ∀ r, Keeps (Orderly p depth)
      (recordShowing (db.beside (List (Visit ρ))) (schema.traced id) r) := by
    intro r x hx
    have hlevels : p.maxDepth - (depth + 1) = x.1.levels := hx.place.levels_eq.symm
    exact orderly_showing hlevels (orderly_walk db schema _ depth r hlevels) x hx
  cases request with
  | one r => exact hrecord r
  | all s =>
      have hitems := (compositional_keeps (Orderly p depth)).arrayOf
        (fun r => ⟨rfl, hrecord r⟩) s.items
      exact hitems.2.bind fun js => keeps_pure _

theorem orderly_showAll : ∀ (requests : List (Request ρ))
    (x : Pass × (List (Showing ρ) × (List (Visit ρ) × σ))), Orderly p depth x →
    Orderly p depth (showAll (db.beside (List (Visit ρ))) (schema.traced id) requests x).2
  | [], _, hx => hx
  | request :: rest, x, hx =>
      orderly_showAll rest _ (orderly_walkRequest db schema request x hx)

/-! ## Calls -/

/-- On any pass, whatever its lists and whatever it remembers, and for any calls on it:

* writing records down changes nothing of what calls do, and the accessors called are those that
  a traced schema sees;
* every record that is completed, at whatever depth, has the keys of its stored fields and of the
  relations that the lists say, these before the last level only; a stored field that is no
  relation expanded in its place is shown as it is stored;
* accessors are called for relations that the lists say, and for no others;
* so it is for a record hydrated in any state of any pass. -/
theorem shape_of_showings (db : Engine σ) (schema : Schema σ ρ) (p : Pass)
    (requests : List (Request ρ)) (s : σ) :
    let showed := showAll (db.beside (List (Visit ρ))) (schema.traced id) requests
      (p, ([], ([], s)))
    (runAll (db.beside (List (Visit ρ))) (schema.traced id) requests (p, ([], s))
          = (showed.1, (showed.2.1, showed.2.2.2))
        ∧ showed.1 = (runAll db schema requests (p, s)).1)
      ∧ (∀ shown ∈ showed.2.2.1, shown.Shaped p)
      ∧ (∀ v ∈ showed.2.2.2.1, Expands p v.record v.relation)
      ∧ ∀ (r : ρ) (x x' : Pass × σ) (j : Json), (serialize db schema r).outcome x = (.ok j, x') →
        ∃ members, j = .obj members ∧ Shaped x.1 x.1.depth r members := by
  intro showed
  have hruns := showAll_erases (db.beside (List (Visit ρ))) (schema.traced id) requests
    (p, ([], ([], s)))
  have horderly : Orderly p p.depth showed.2 := by
    refine orderly_showAll db schema requests _ ⟨⟨rfl, rfl⟩, ⟨rfl, rfl⟩, ?_, ?_⟩
    · exact fun shown hshown => absurd hshown List.not_mem_nil
    · exact fun v hv => absurd hv List.not_mem_nil
  refine ⟨⟨hruns, ?_⟩, horderly.showings, horderly.visits, fun r x x' j hrun => ?_⟩
  · rw [← runAll_traced db schema requests p [] s, hruns]
  · have hwalk : (walk (fun _ => relationJson db schema) x.1.levels r).outcome x = (.ok j, x') := by
      rw [← expandRecord_eq_walk]
      exact hrun
    exact shaped_walk ⟨rfl, rfl⟩ rfl hwalk

/-- A name that is stored and listed as extra, one that is stored and declared, one that is
declared, listed as extra and skipped, and one that is only listed as extra. -/
example (db : Engine Unit) (load : Model → Fields → Except Error Blog.GraphRecord) :
    let r : Blog.GraphRecord := .described ⟨"r", ⟨"node", "node", ["id"], []⟩,
      .ofList [("id", .int 1), ("kept", .int 2), ("both", .int 3)], ["both", "left"], [], none⟩
    let showed := showAll (db.beside (List (Visit Blog.GraphRecord)))
      (Schema.traced ⟨fun _ _ => pure .absent, load⟩ id) [.one r]
      (⟨2, ["kept", "left", "more"], ["left"], 0, []⟩, ([], ([], ())))
    showed.2.2.1 = [⟨r, 0, .obj [("both", .null), ("id", (Value.int 1).toJson),
        ("kept", (Value.int 2).toJson), ("more", .null)]⟩]
      ∧ showed.2.2.2.1 = [⟨r, "both"⟩, ⟨r, "more"⟩] :=
  ⟨rfl, rfl⟩

end Hydration

end RecordMapper
