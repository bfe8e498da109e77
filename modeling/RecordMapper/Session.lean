import RecordMapper.Error

/-!
# Sessions

A session computes with a state that outlives failure: when a step fails, the
effects of the steps before it remain. The state is the database together with
whatever else the computation owns, a record being saved or a hydration pass.
-/

namespace RecordMapper

/-- A computation on a state of type `σ` that answers with a value or an error, and in
either case leaves a state behind. -/
abbrev Session (σ : Type) := ExceptT Error (StateM σ)

namespace Session

variable {σ τ α : Type}

/-- Runs from a state to the outcome and the state left behind. -/
def outcome (act : Session σ α) (s : σ) : Except Error α × σ := act s

def ofOutcome (f : σ → Except Error α × σ) : Session σ α := f

/-- A result that is known already. -/
def settle : Except Error α → Session σ α
  | .ok a => pure a
  | .error e => throw e

/-- Runs on the second part of a paired state and keeps the first. -/
def beside (act : Session σ α) : Session (τ × σ) α :=
  ofOutcome fun s =>
    let (result, below) := act.outcome s.2
    (result, (s.1, below))

/-- The first part of a paired state. -/
def own : Session (τ × σ) τ :=
  ofOutcome fun s => (.ok s.1, s)

/-- Changes the first part of a paired state. -/
def modifyOwn (f : τ → τ) : Session (τ × σ) Unit :=
  ofOutcome fun s => (.ok (), (f s.1, s.2))

/-- Runs between two changes of the first part; the second is made on failure too. -/
def within (enter leave : τ → τ) (act : Session (τ × σ) α) : Session (τ × σ) α :=
  ofOutcome fun s =>
    let (result, s) := act.outcome (enter s.1, s.2)
    (result, (leave s.1, s.2))

end Session

end RecordMapper
