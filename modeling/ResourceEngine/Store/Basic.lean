import ResourceEngine.Context
import ResourceEngine.Sql.Basic
import ResourceEngine.Store.Work

/-!
# Stores

What the engine asks of a database: connections, and statements on them. Each transaction runs on a
connection of its own. A store is a structure of functions on a state, so a database in memory and a
recorded script are stores alike.
-/

namespace ResourceEngine

/-- A connection, known by its number. -/
structure Connection where
  id : Nat
  deriving DecidableEq, Inhabited

/-- A savepoint, known by its number. -/
structure Savepoint where
  number : Nat
  deriving DecidableEq, Inhabited

/-- A statement that controls a transaction. -/
inductive Control where
  | begin
  | commit
  | rollback
  | savepoint (p : Savepoint)
  | release (p : Savepoint)
  | rollbackTo (p : Savepoint)
  deriving DecidableEq

/-- The text of a control statement, given the names of savepoints. -/
def Control.text (name : Savepoint → String) : Control → String
  | .begin => "BEGIN"
  | .commit => "COMMIT"
  | .rollback => "ROLLBACK"
  | .savepoint p => "SAVEPOINT " ++ name p
  | .release p => "RELEASE SAVEPOINT " ++ name p
  | .rollbackTo p => "ROLLBACK TO SAVEPOINT " ++ name p

/-- A row, with a value for each selected column. -/
abbrev Row := List Value

/-- A database, whose state is of type `σ`. -/
structure Store (σ : Type) where
  dialect : Dialect
  /-- What contexts are judged by in a state. -/
  moment : σ → Moment
  /-- Opens a connection whose statements are watched by a context. -/
  connect : Context → StateM σ (Except Error Connection)
  /-- Runs a control statement, which no context interrupts. -/
  control : Connection → Control → StateM σ (Except Error Unit)
  /-- Runs a statement for its rows. -/
  query : Connection → Sql → Work σ (List Row)
  /-- Runs a statement for the number of rows that it affects. -/
  execute : Connection → Sql → Work σ Nat
  /-- Replaces the context that watches a connection, and gives the previous one. -/
  bindContext : Connection → Option Context → StateM σ (Option Context)
  /-- A savepoint that has not been used yet. -/
  freshSavepoint : StateM σ Savepoint

namespace Store

variable {σ : Type} (s : Store σ)

/-- Stops if a context is done. -/
def check (c : Context) : Work σ Unit := do
  match c.problem? (s.moment (← get)) with
  | some p => Work.fail p.error
  | none => return ()

end Store

end ResourceEngine
