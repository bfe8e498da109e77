import RecordMapper.Record.Retrieval

/-!
# What a session does, step by step

The outcome of a session put together from smaller ones, as an equation for each
way of putting them together. A session is steady if its answer does not depend
on the state it starts from; queries are steady on a steady engine. Beside some
other state, a query does what it does alone.
-/

namespace RecordMapper

namespace Session

variable {σ τ α β : Type}

/-! ## Outcomes -/

@[simp] theorem outcome_pure (a : α) (s : σ) :
    (pure a : Session σ α).outcome s = (.ok a, s) := rfl

@[simp] theorem outcome_settle (x : Except Error α) (s : σ) :
    (settle x).outcome s = (x, s) := by
  cases x <;> rfl

@[simp] theorem outcome_get (s : σ) : (get : Session σ σ).outcome s = (.ok s, s) := rfl

@[simp] theorem outcome_beside (act : Session σ α) (s : τ × σ) :
    act.beside.outcome s = ((act.outcome s.2).1, (s.1, (act.outcome s.2).2)) := rfl

@[simp] theorem outcome_own (s : τ × σ) : (own : Session (τ × σ) τ).outcome s = (.ok s.1, s) :=
  rfl

@[simp] theorem outcome_within (enter leave : τ → τ) (act : Session (τ × σ) α) (s : τ × σ) :
    (within enter leave act).outcome s
      = ((act.outcome (enter s.1, s.2)).1,
          (leave (act.outcome (enter s.1, s.2)).2.1, (act.outcome (enter s.1, s.2)).2.2)) := rfl

theorem exists_outcome (act : Session σ α) (s : σ) : ∃ result s', act.outcome s = (result, s') :=
  ⟨_, _, rfl⟩

theorem ext_outcome {act act' : Session σ α} (h : ∀ s, act.outcome s = act'.outcome s) :
    act = act' :=
  funext h

theorem outcome_bind (act : Session σ α) (f : α → Session σ β) (s : σ) :
    (act >>= f).outcome s = match act.outcome s with
      | (.ok a, s') => (f a).outcome s'
      | (.error e, s') => (.error e, s') := by
  obtain ⟨result, s', h⟩ := act.exists_outcome s
  have hact : act s = (result, s') := h
  rw [h]
  cases result with
  | ok a =>
      show (act >>= f) s = (f a) s'
      simp only [bind, ExceptT.bind, ExceptT.mk, StateT.bind, hact]
      rfl
  | error e =>
      show (act >>= f) s = (.error e, s')
      simp only [bind, ExceptT.bind, ExceptT.mk, StateT.bind, hact]
      rfl

theorem outcome_bind_of_ok {act : Session σ α} {a : α} {s s' : σ}
    (h : act.outcome s = (.ok a, s')) (f : α → Session σ β) :
    (act >>= f).outcome s = (f a).outcome s' := by
  rw [outcome_bind, h]

theorem outcome_bind_of_error {act : Session σ α} {e : Error} {s s' : σ}
    (h : act.outcome s = (.error e, s')) (f : α → Session σ β) :
    (act >>= f).outcome s = (.error e, s') := by
  rw [outcome_bind, h]

/-- A step that succeeds is made of steps that succeed. -/
theorem outcome_bind_eq_ok_iff {act : Session σ α} {f : α → Session σ β} {b : β} {s s'' : σ} :
    (act >>= f).outcome s = (.ok b, s'')
      ↔ ∃ a s', act.outcome s = (.ok a, s') ∧ (f a).outcome s' = (.ok b, s'') := by
  rw [outcome_bind]
  constructor
  · intro h
    split at h
    · next a s' hact => exact ⟨a, s', hact, h⟩
    · cases h
  · rintro ⟨a, s', hact, hf⟩
    rw [hact]
    exact hf

theorem outcome_settle_bind_eq_ok_iff {x : Except Error α} {f : α → Session σ β} {b : β}
    {s s' : σ} : (settle x >>= f).outcome s = (.ok b, s')
      ↔ ∃ a, x = .ok a ∧ (f a).outcome s = (.ok b, s') := by
  rw [outcome_bind, outcome_settle]
  cases x with
  | ok a => simp
  | error e => simp

theorem outcome_bind_pure_eq_ok_iff {act : Session σ α} {g : α → β} {s : σ} {b : β} :
    ((act >>= fun a => pure (g a)).outcome s).1 = .ok b
      ↔ ∃ a, (act.outcome s).1 = .ok a ∧ g a = b := by
  obtain ⟨result, s', h⟩ := act.exists_outcome s
  rw [outcome_bind, h]
  cases result with
  | ok a =>
      constructor
      · intro hb
        exact ⟨a, rfl, Except.ok.inj hb⟩
      · rintro ⟨a', ha', hb⟩
        cases ha'
        exact congrArg Except.ok hb
  | error e =>
      constructor
      · intro hb
        cases hb
      · rintro ⟨a', ha', -⟩
        cases ha'

/-- Whatever only answers differently leaves the state of the step before. -/
theorem state_bind {act : Session σ α} {f : α → Session σ β}
    (h : ∀ a y, ((f a).outcome y).2 = y) (s : σ) :
    ((act >>= f).outcome s).2 = (act.outcome s).2 := by
  obtain ⟨result, s', hact⟩ := act.exists_outcome s
  rw [outcome_bind, hact]
  cases result with
  | ok a => exact h a s'
  | error e => rfl

/-! ## Steadiness -/

/-- What a session answers does not depend on the state. -/
def Steady (act : Session σ α) : Prop :=
  ∀ s s', (act.outcome s).1 = (act.outcome s').1

theorem steady_pure (a : α) : (pure a : Session σ α).Steady := fun _ _ => rfl

theorem steady_settle (x : Except Error α) : (settle x : Session σ α).Steady := by
  intro s s'
  simp

theorem Steady.bind {act : Session σ α} {f : α → Session σ β} (hact : act.Steady)
    (hf : ∀ a, (f a).Steady) : (act >>= f).Steady := by
  intro s s'
  have h := hact s s'
  rw [outcome_bind, outcome_bind]
  obtain ⟨result, t, hs⟩ := act.exists_outcome s
  obtain ⟨result', t', hs'⟩ := act.exists_outcome s'
  rw [hs, hs'] at h
  cases h
  rw [hs, hs']
  cases result with
  | ok a => exact hf a t t'
  | error e => rfl

/-! ## Beside other state -/

theorem Steady.beside {act : Session σ α} (h : act.Steady) :
    (act.beside : Session (τ × σ) α).Steady :=
  fun s s' => h s.2 s'.2

theorem beside_bind (act : Session σ α) (f : α → Session σ β) :
    ((act >>= f).beside : Session (τ × σ) β) = act.beside >>= fun a => (f a).beside := by
  apply ext_outcome
  intro s
  rw [outcome_beside, outcome_bind, outcome_bind, outcome_beside]
  obtain ⟨result, s', h⟩ := act.exists_outcome s.2
  rw [h]
  cases result <;> rfl

theorem beside_settle (x : Except Error α) :
    ((settle x : Session σ α).beside : Session (τ × σ) α) = settle x := by
  apply ext_outcome
  intro s
  simp

end Session

variable {σ ρ : Type}

/-! ## Bound queries -/

/-- A query that is bound to the requested type is run. -/
theorem Select.get_eq_fetch [Entity ρ] {q : Select} {loader : Loader ρ}
    (hbound : q.model = some loader.model) (db : Engine σ) :
    q.get db loader = q.fetch db loader := by
  have hmodel : q.boundModel = .ok loader.model := by rw [boundModel, hbound]
  apply Session.ext_outcome
  intro s
  rw [get, hmodel, Session.outcome_bind, Session.outcome_settle]
  simp only [if_true]

/-! ## Steady engines and accessors -/

/-- What the engine answers to a query, with the row count asked for right behind it,
depends on the query alone. -/
def Engine.Steady (db : Engine σ) : Prop :=
  ∀ q : Select, (q.execute db).Steady

/-- What a relation of a record leads to does not depend on the state of the database. -/
def Schema.Steady (schema : Schema σ ρ) : Prop :=
  ∀ r relation, (schema.resolve r relation).Steady

/-- An engine whose answers depend on the SQL text alone, and that counts rows by a
statement. -/
theorem Engine.steady_of_query {db : Engine σ} (hquery : ∀ sql, (db.query sql).Steady)
    (hcounter : db.counter = none) : db.Steady := by
  intro q
  have hcount : db.foundRows.Steady := by
    rw [foundRows, hcounter]
    refine (hquery foundRowsSql).bind fun rows => ?_
    split
    · exact Session.steady_pure _
    · exact Session.steady_settle (.error .noTotal)
  exact (hquery _).bind fun rows => hcount.bind fun total => Session.steady_pure _

theorem Select.steady_getDynamic [Entity ρ] {db : Engine σ} (hdb : db.Steady)
    (schema : Schema σ ρ) (q : Select) : (q.getDynamic db schema).Steady :=
  (Session.steady_settle _).bind fun _ => (hdb q).bind fun _ => Session.steady_settle _

/-! ## Engines and accessors beside other state -/

/-- The same schema for a database beside some other state. -/
def Schema.beside (τ : Type) (schema : Schema σ ρ) : Schema (τ × σ) ρ where
  resolve r relation := (schema.resolve r relation).beside
  load := schema.load

theorem Engine.foundRows_beside (τ : Type) (db : Engine σ) :
    (db.beside τ).foundRows = db.foundRows.beside := by
  rw [foundRows, foundRows, beside]
  cases db.counter with
  | some count => rfl
  | none =>
      rw [Session.beside_bind]
      refine congrArg (fun f => (db.query foundRowsSql).beside >>= f) (funext fun rows => ?_)
      cases total? rows <;> rfl

theorem Select.execute_beside (τ : Type) (db : Engine σ) (q : Select) :
    q.execute (db.beside τ) = (q.execute db).beside := by
  rw [execute, execute, Session.beside_bind]
  simp only [Session.beside_bind, Engine.foundRows_beside]
  rfl

theorem Select.getDynamic_beside [Entity ρ] (τ : Type) (db : Engine σ) (schema : Schema σ ρ)
    (q : Select) :
    q.getDynamic (db.beside τ) (schema.beside τ) = (q.getDynamic db schema).beside := by
  rw [getDynamic, getDynamic, Session.beside_bind, Session.beside_settle]
  congr 1
  funext bound
  rw [fetch, fetch, q.execute_beside, Session.beside_bind]
  congr 1
  funext found
  exact (Session.beside_settle _).symm

theorem Engine.Steady.beside {db : Engine σ} (h : db.Steady) (τ : Type) :
    (db.beside τ).Steady := by
  intro q
  rw [q.execute_beside]
  exact (h q).beside

theorem Schema.Steady.beside {schema : Schema σ ρ} (h : schema.Steady) (τ : Type) :
    (schema.beside τ).Steady :=
  fun r relation => (h r relation).beside

end RecordMapper
