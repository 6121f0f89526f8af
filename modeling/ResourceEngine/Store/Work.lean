import ResourceEngine.Problem

/-!
# Work

A piece of work runs on the state of a store. It ends with a value, stops with an error, or panics.
A panic goes past everything that only looks at errors; `Work.attempt` makes either ending a value
again, and `Work.resume` undoes that.
-/

namespace ResourceEngine

/-- Why a piece of work stopped. -/
inductive Stop where
  | error (e : Error)
  | panic (message : String)
  deriving DecidableEq

/-- Work on a state. -/
abbrev Work (σ : Type) := ExceptT Stop (StateM σ)

namespace Work

variable {σ α : Type}

/-- Stops with an error. -/
def fail (e : Error) : Work σ α := throw (.error e)

/-- Runs work that may stop, and gives the way it ended. -/
def attempt (w : Work σ α) : Work σ (Except Stop α) := ExceptT.mk (Except.ok <$> w.run)

/-- Ends as a finished piece of work did. -/
def resume (ending : Except Stop α) : Work σ α := ExceptT.mk (pure ending)

/-- An answer of the store: a value, or an error to stop with. -/
def answer (a : StateM σ (Except Error α)) : Work σ α := do
  match ← a with
  | .ok v => return v
  | .error e => fail e

/-- A result, or a problem to stop with. -/
def ofExcept : Except Problem α → Work σ α
  | .ok a => pure a
  | .error p => fail p.error

end Work

end ResourceEngine
