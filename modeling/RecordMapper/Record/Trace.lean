import RecordMapper.Record.Entity

/-!
# Tracing relations

A traced schema keeps a list of the relations that were resolved, each with a
label of its record, and otherwise does what the schema does.
-/

namespace RecordMapper

/-- A relation that was resolved. -/
structure Visit (τ : Type) where
  record : τ
  relation : String
deriving DecidableEq, Repr

/-- Writes down each relation before it is resolved, the latest last. -/
def Schema.traced {σ ρ τ : Type} (schema : Schema σ ρ) (label : ρ → τ) :
    Schema (List (Visit τ) × σ) ρ where
  resolve r relation := do
    Session.modifyOwn fun visits => visits ++ [⟨label r, relation⟩]
    (schema.resolve r relation).beside
  load := schema.load

end RecordMapper
