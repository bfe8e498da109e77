import RecordMapper.Blog.Graph
import RecordMapper.Proofs.Hydration.Levels

/-!
# When the memo shows

A relation is remembered under the type and identifier of its record, whatever
the level at which it was expanded. What a hit serves may therefore be cut off
earlier, or reach further down, than an expansion at the level of the hit. A call
that returns JSON returns that of the walk without a memo if and only if each of
its hits serves what an expansion without a memo would give at the same place.
-/

namespace RecordMapper.Hydration

open Session

variable {σ ρ : Type} [Entity ρ] {db : Engine σ} {schema : Schema σ ρ} (hdb : db.Steady)
  (hschema : schema.Steady)
include hdb hschema

/-! ## Calls -/

theorem agrees_walkRecord (p : Pass) (r : ρ) :
    Agrees p.SamePlace (Hit.Faithful db schema p)
      (Request.walkRecord (relationNoted db schema) r)
      (Request.walkRecord (expandFresh db schema) r) where
  stays x hx := Pass.order_samePlace.trans hx
    ((lasting_walk_noted hdb hschema x.1.levels r).keeps x).toSamePlace
  stays_plain y hy := Pass.order_samePlace.trans hy
    ((lasting_walk_fresh Pass.order_samePlace hdb hschema y.1.levels r).keeps y)
  hits x y hx hy := by
    have hx' : (Request.walkRecord (relationNoted db schema) r).outcome x
        = (walk (relationNoted db schema) p.levels r).outcome x := by
      rw [hx.levels_eq]
      rfl
    have hy' : (Request.walkRecord (expandFresh db schema) r).outcome y
        = (walk (expandFresh db schema) p.levels r).outcome y := by
      rw [hy.levels_eq]
      rfl
    rw [hx', hy']
    exact (agrees_walk hdb hschema p p.levels r).hits x y hx.sameNames hy.sameNames

theorem agrees_walkRequest (p : Pass) : ∀ request : Request ρ,
    Agrees p.SamePlace (Hit.Faithful db schema p) (request.walk (relationNoted db schema))
      (request.walk (expandFresh db schema))
  | .one r => agrees_walkRecord hdb hschema p r
  | .all s => agrees_map (agrees_arrayOf (agrees_walkRecord hdb hschema p) s.items) Json.arr.inj

theorem samePlace_runAll (p : Pass) : ∀ (requests : List (Request ρ)) (x : Pass × σ),
    p.SamePlace x.1 → p.SamePlace (runAll db schema requests x).2.1
  | [], _, hx => hx
  | request :: rest, x, hx => by
      have hnoted := (agrees_walkRequest hdb hschema p request).stays (x.1, ([], x.2)) hx
      have hrun := erases_walkRequest db schema request (x.1, ([], x.2))
      have hx' : p.SamePlace ((request.run db schema).outcome x).2.1 := by
        rw [show x = (x.1, x.2) from rfl, hrun]
        exact hnoted
      exact samePlace_runAll p rest _ hx'

theorem lasting_walkRecord_fresh (r : ρ) :
    Lasting Pass.SamePlace (Request.walkRecord (expandFresh db schema) r) where
  keeps x := (lasting_walk_fresh Pass.order_samePlace hdb hschema x.1.levels r).keeps x
  repeats {x j x'} hx y hy := by
    have hwalk := lasting_walk_fresh Pass.order_samePlace hdb hschema x.1.levels r
    have hx' : (walk (expandFresh db schema) x.1.levels r).outcome x = (.ok j, x') := hx
    have hlevels := (Pass.order_samePlace.trans (hwalk.after hx') hy).levels_eq
    have hrepeat := hwalk.repeats hx' hy
    rw [hlevels] at hrepeat
    exact hrepeat

omit [Entity ρ] hdb hschema in
/-- Items that last are collected as each of them is found from `z`. -/
theorem outcome_arrayOf_eq_ok_iff {act : ρ → Expansion σ Json}
    (h : ∀ r, Lasting Pass.SamePlace (act r)) (z : Pass × σ) :
    ∀ (rs : List ρ) (x : Pass × σ) (js : List Json), z.1.SamePlace x.1 →
      (((arrayOf act rs).outcome x).1 = .ok js
        ↔ (rs.map fun r => ((act r).outcome z).1) = js.map .ok)
  | [], x, js, _ => by
      cases js <;> simp [arrayOf]
  | r :: rest, x, js, hx => by
      have hsame : ∀ j, ((act r).outcome x).1 = .ok j ↔ ((act r).outcome z).1 = .ok j := by
        intro j
        constructor
        · intro hj
          have hact : (act r).outcome x = (.ok j, ((act r).outcome x).2) := Prod.ext hj rfl
          have hkept := Pass.order_samePlace.trans hx ((h r).after hact)
          exact (h r).repeats hact hkept.symm
        · intro hj
          have hact : (act r).outcome z = (.ok j, ((act r).outcome z).2) := Prod.ext hj rfl
          exact (h r).repeats hact
            (Pass.order_samePlace.trans ((h r).after hact).symm hx)
      rw [arrayOf, outcome_bind]
      obtain ⟨result, x', hact⟩ := (act r).exists_outcome x
      rw [hact] at hsame ⊢
      cases result with
      | error e =>
          constructor
          · intro hjs
            cases hjs
          · intro hjs
            cases js with
            | nil => cases hjs
            | cons j js => cases (hsame j).mpr (List.cons.inj hjs).1
      | ok j =>
          have hz := (hsame j).mp rfl
          have hrest := Pass.order_samePlace.trans hx ((h r).after hact)
          show ((arrayOf act rest >>= fun js => pure (j :: js)).outcome x').1 = .ok js ↔ _
          rw [outcome_bind_pure_eq_ok_iff, List.map_cons, hz]
          constructor
          · rintro ⟨js', hjs', rfl⟩
            rw [(outcome_arrayOf_eq_ok_iff h z rest x' js' hrest).mp hjs']
            rfl
          · intro hjs
            cases js with
            | nil => cases hjs
            | cons j' js' =>
                obtain ⟨hj, htail⟩ := List.cons.inj hjs
                cases hj
                exact ⟨js', (outcome_arrayOf_eq_ok_iff h z rest x' js' hrest).mpr htail, rfl⟩

/-- Without the memo, the answer for a set is the array of the answers for its records. -/
theorem walk_fresh_all_eq_iff (s : ResultSet ρ) (x : Pass × σ) (js : List Json) :
    (((Request.all s).walk (expandFresh db schema)).outcome x).1 = .ok (.arr js)
      ↔ (s.items.map fun r => (((Request.one r).walk (expandFresh db schema)).outcome x).1)
        = js.map .ok := by
  have harray := outcome_arrayOf_eq_ok_iff (lasting_walkRecord_fresh hdb hschema) x s.items x js
    (Pass.order_samePlace.refl x.1)
  refine Iff.trans ?_ harray
  show ((arrayOf (Request.walkRecord (expandFresh db schema)) s.items >>= fun js =>
    pure (Json.arr js)).outcome x).1 = .ok (.arr js) ↔ _
  rw [outcome_bind_pure_eq_ok_iff]
  constructor
  · rintro ⟨js', hjs', hsame⟩
    cases hsame
    exact hjs'
  · intro hjs
    exact ⟨js, hjs, rfl⟩

/-- On a new pass, after any calls: a call whose hits are all faithful does what the walk
without a memo does, and if it returns JSON, then this is the JSON of that walk only if
its hits are faithful. With two levels at most they are, if the relations under one key
lead to the same. The walk without a memo answers for a set with the array of what it
answers for the records of the set. -/
theorem run_eq_fresh_iff_faithful (maxDepth : Nat) (extra skipped : List String)
    (earlier : List (Request ρ)) (request : Request ρ) (s : σ) :
    let start : Pass := ⟨maxDepth, extra, skipped, 0, []⟩
    let now := (runAll db schema earlier (start, s)).2
    let fresh := fun request : Request ρ =>
      ((request.walk (expandFresh db schema)).outcome (start, s)).1
    ((∀ h ∈ request.hits db schema now, h.Faithful db schema start) →
        ((request.run db schema).outcome now).1 = fresh request)
      ∧ (∀ j, ((request.run db schema).outcome now).1 = .ok j →
          (fresh request = .ok j ↔ ∀ h ∈ request.hits db schema now, h.Faithful db schema start))
      ∧ (Keyed schema → maxDepth ≤ 2 →
          ((request.run db schema).outcome now).1 = fresh request)
      ∧ ∀ set js, fresh (.all set) = .ok (.arr js)
          ↔ (set.items.map fun r => fresh (.one r)) = js.map .ok := by
  intro start now fresh
  have hstart : start.SamePlace start := Pass.order_samePlace.refl start
  have hnow : start.SamePlace now.1 := samePlace_runAll hdb hschema start earlier (start, s) hstart
  obtain ⟨hits, hlog, hsound, hexact⟩ := (agrees_walkRequest hdb hschema start request).hits
    (now.1, ([], now.2)) (start, s) hnow hstart
  have hhits : request.hits db schema now = hits := by
    rw [Request.hits, hlog, List.nil_append]
  have hrun : ((request.run db schema).outcome now).1
      = ((request.walk (relationNoted db schema)).outcome (now.1, ([], now.2))).1 :=
    congrArg Prod.fst (erases_walkRequest db schema request (now.1, ([], now.2)))
  rw [hhits, hrun]
  refine ⟨hsound, fun j hj => ⟨hexact j hj, fun hgood => ?_⟩, fun hkeyed hdepth => ?_,
    fun set js => ?_⟩
  · exact (hsound hgood).symm.trans hj
  · rw [← hrun]
    exact run_eq_fresh_of_levelFree hdb hschema
      (levelFree_of_keyed hdb hschema hkeyed hdepth) earlier request s
  · exact walk_fresh_all_eq_iff hdb hschema set (start, s) js

end RecordMapper.Hydration

namespace RecordMapper

/-! ## Steady graphs -/

section Steady

variable {σ ρ : Type} [Entity ρ] {db : Engine σ} (hdb : db.Steady)
include hdb

theorem Select.steady_get (loader : Loader ρ) (q : Select) : (q.get db loader).Steady := by
  refine (Session.steady_settle _).bind fun bound => ?_
  split
  · exact (hdb q).bind fun _ => Session.steady_settle _
  · exact Session.steady_settle (.error _)

theorem Select.steady_first (loader : Loader ρ) (q : Select) : (q.first db loader).Steady :=
  (Select.steady_get hdb loader _).bind fun found => Session.steady_pure found.first?

theorem RecordType.steady_findFirst (t : RecordType ρ) (node : Option Filter.Node) :
    (t.findFirst db node).Steady :=
  (Session.steady_settle _).bind fun q => Select.steady_first hdb t.toLoader (q.andWhere node)

theorem RecordType.steady_findAll (t : RecordType ρ) (node : Option Filter.Node) :
    (t.findAll db node).Steady :=
  (Session.steady_settle _).bind fun q => Select.steady_get hdb t.toLoader (q.andWhere node)

namespace Blog

theorem Record.steady_resolve (r : Record) (relation : String) :
    (r.resolve db relation).Steady := by
  unfold resolve
  split
  · exact (RecordType.steady_findAll hdb _ _).bind fun _ => Session.steady_pure _
  · exact (RecordType.steady_findFirst hdb _ _).bind fun _ => Session.steady_pure _
  · exact (RecordType.steady_findFirst hdb _ _).bind fun _ => Session.steady_pure _
  · exact (RecordType.steady_findFirst hdb _ _).bind fun _ => Session.steady_pure _
  · exact Session.steady_settle _
  · exact Session.steady_pure _
  · exact Session.steady_pure _
  · exact Session.steady_pure _

/-- The relations of a graph lead to the same records at any time. -/
theorem Graph.steady_schema (g : Graph) : (g.schema db).Steady := by
  intro r relation
  cases r with
  | described d =>
      unfold Graph.schema
      dsimp only
      split
      · exact Session.steady_settle _
      · exact Session.steady_pure _
  | stored r => exact (r.steady_resolve hdb relation).bind fun _ => Session.steady_pure _

end Blog

end Steady

end RecordMapper

namespace RecordMapper.Hydration

/-! ## A chain of records -/

open Blog

/-- An engine that finds nothing. -/
def silent : Engine Unit where
  escape _ := ""
  query _ := pure []
  insert _ _ := pure .null
  update _ _ _ := pure 0
  delete _ _ _ := pure 0

theorem steady_silent : silent.Steady :=
  Engine.steady_of_query (fun _ => Session.steady_pure []) rfl

/-- A record with one relation. -/
def chained (name : String) (id : Int64) (next : Link) : Described where
  id := name
  descriptor := ⟨"node", "node", ["id"], []⟩
  fields := OrderedMap.ofList [("id", .int id)]
  declared := ["next"]
  links := [("next", next)]
  reference := none

/-- Three records, each leading to the one after it. -/
def chain : Graph :=
  [chained "a" 1 (.one "b"), chained "b" 2 (.one "c"), chained "c" 3 .absent]

def chainSchema : Schema Unit GraphRecord := chain.schema silent

def callFor (d : Described) : Request GraphRecord := .one (.described d)

/-- The identifiers of the chain tell its records apart, and yet the memo shows: the last
record stands at the last level, where none of its relations is expanded, unless it was
expanded before as the second record below another. -/
theorem chain_shows_memo :
    let first := callFor (chained "a" 1 (.one "b"))
    let second := callFor (chained "b" 2 (.one "c"))
    let start : Pass × Unit := (.new 3, ())
    let now := (runAll silent chainSchema [second] start).2
    silent.Steady ∧ chainSchema.Steady
      ∧ (chain.map fun d => (Entity.id? (GraphRecord.described d)).map Value.key)
        = [some "1", some "2", some "3"]
      ∧ (((first.run silent chainSchema).outcome now).1.toOption.map Json.render)
        = some "\x7b\"id\":1,\"next\":\x7b\"id\":2,\"next\":\x7b\"id\":3,\"next\":null\x7d\x7d\x7d"
      ∧ (((first.walk (expandFresh silent chainSchema)).outcome start).1.toOption.map Json.render)
        = some "\x7b\"id\":1,\"next\":\x7b\"id\":2,\"next\":\x7b\"id\":3\x7d\x7d\x7d" := by
  refine ⟨steady_silent, chain.steady_schema steady_silent, ?_⟩
  decide +kernel

/-- A schema by which a record with the key 1 leads to one with the key 2, whatever else they
are. -/
def leading : Schema Unit GraphRecord where
  resolve r relation := .settle <| .ok <|
    if memoKey? r relation = some ⟨"node", "next", "1"⟩ then
      .one (.described (chained "b" 2 .absent))
    else .absent
  load := chainSchema.load

theorem keyed_leading : Keyed leading := by
  intro r r' relation key hkey hkey' s s'
  unfold leading
  dsimp only
  rw [hkey, hkey']

/-- A record without further levels below it is served as it would be expanded again. With two
levels in all, so is any record, if the identifier decides where its relations lead. -/
theorem run_eq_fresh_of_last_record :
    let last := callFor (chained "c" 3 .absent)
    let start : Pass × Unit := (⟨3, [], [], 0, []⟩, ())
    let now := (runAll silent chainSchema [last] start).2
    let first := callFor (chained "a" 1 .absent)
    let start' : Pass × Unit := (⟨2, [], [], 0, []⟩, ())
    let now' := (runAll silent leading [first] start').2
    last.hits silent chainSchema now ≠ []
      ∧ ((last.run silent chainSchema).outcome now).1
        = ((last.walk (expandFresh silent chainSchema)).outcome start).1
      ∧ leading.Steady ∧ Keyed leading ∧ first.hits silent leading now' ≠ []
      ∧ ((first.run silent leading).outcome now').1
        = ((first.walk (expandFresh silent leading)).outcome start').1 := by
  intro last start now first start' now'
  have hhits : last.hits silent chainSchema now
      = [⟨.described (chained "c" 3 .absent), "next", 1, .null⟩] := rfl
  have hiff := run_eq_fresh_iff_faithful steady_silent (chain.steady_schema steady_silent) 3 [] []
    [last] last ()
  rw [hhits]
  refine ⟨List.cons_ne_nil _ _, hiff.1 fun h hmem => ?_, ?_⟩
  · obtain rfl := List.mem_singleton.mp (hhits ▸ hmem)
    rintro ⟨⟨maxDepth, extra, skipped, depth, memo⟩, s⟩ ⟨rfl, rfl⟩
    rfl
  · have hsteady : leading.Steady := fun r relation => Session.steady_settle _
    have hserved : first.hits silent leading now' = [⟨.described (chained "a" 1 .absent), "next", 0,
        .obj [("id", .int 2)]⟩] := rfl
    obtain ⟨-, -, hlimit, -⟩ :=
      run_eq_fresh_iff_faithful steady_silent hsteady 2 [] [] [first] first ()
    rw [hserved]
    exact ⟨hsteady, keyed_leading, List.cons_ne_nil _ _, hlimit keyed_leading (Nat.le_refl 2)⟩

end RecordMapper.Hydration
