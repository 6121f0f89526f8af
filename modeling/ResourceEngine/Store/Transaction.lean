import ResourceEngine.Store.Basic

/-!
# Transactions

Who opens, joins, isolates and finishes the transaction that a piece of work runs in. A transaction
is known by its connection; the ambient one is handed on explicitly. The call that opens a
transaction or a savepoint is the only one that finishes it, whichever way the work ends.
-/

namespace ResourceEngine

/-- How a call relates to the ambient transaction. -/
inductive Propagation where
  /-- Join it, or open and finish a new one. -/
  | current
  /-- Join it; without one the call fails. -/
  | mandatory
  /-- Open and finish a new one in any case. -/
  | requiredNew
  /-- Like `current`, behind a savepoint to which a failure is rolled back. -/
  | savepoint
  deriving DecidableEq, Inhabited

/-- What a call gives back that has not failed: the value of the work, or the error that a savepoint
kept from the enclosing transaction. -/
inductive Outcome (α : Type) where
  | done (a : α)
  | absorbed (e : Error)

/-- The value, with an absorbed error as an error again. -/
def Outcome.toWork {σ α : Type} : Outcome α → Work σ α
  | .done a => pure a
  | .absorbed e => Work.fail e

namespace Store

variable {σ α : Type} (s : Store σ)

/-- Opens a transaction. -/
def begin (c : Context) : Work σ Connection := do
  s.check c
  let k ← Work.answer (s.connect c)
  Work.answer (s.control k .begin)
  return k

/-- Runs a control statement and passes over its error. -/
def quietly (k : Connection) (control : Control) : StateM σ Unit := do
  let _ ← s.control k control

/-- Rolls back to a savepoint and then releases it. A rejected statement ends this silently. -/
def rollbackTo (k : Connection) (p : Savepoint) : StateM σ Unit := do
  match ← s.control k (.rollbackTo p) with
  | .ok () => s.quietly k (.release p)
  | .error _ => return ()

/-- Commits, or rolls back if the context is done by now. -/
def finish (c : Context) (k : Connection) : Work σ Unit := do
  match ← Work.attempt (s.check c) with
  | .ok () => Work.answer (s.control k .commit)
  | .error stop =>
    s.quietly k .rollback
    Work.resume (.error stop)

/-- Runs work on a transaction of its own: a value is committed, everything else rolled back. -/
def runOwned (c : Context) (f : Connection → Work σ α) : Work σ α := do
  let k ← s.begin c
  match ← Work.attempt (f k) with
  | .ok a =>
    s.finish c k
    return a
  | .error stop =>
    s.quietly k .rollback
    Work.resume (.error stop)

/-- Runs work on a transaction of someone else, with a context watching it meanwhile. -/
def join (c : Context) (k : Connection) (f : Connection → Work σ α) : Work σ α := do
  s.check c
  let previous ← s.bindContext k (some c)
  let ending ← Work.attempt (f k)
  let _ ← s.bindContext k previous
  Work.resume ending

/-- Runs work behind a savepoint. An error of the work, of setting the savepoint or of releasing it
is absorbed, and the work undone. -/
def savepointOn (k : Connection) (f : Connection → Work σ α) : Work σ (Outcome α) := do
  let p ← s.freshSavepoint
  match ← s.control k (.savepoint p) with
  | .error e => return .absorbed e
  | .ok () =>
    match ← Work.attempt (f k) with
    | .ok a =>
      match ← s.control k (.release p) with
      | .ok () => return .done a
      | .error e =>
        s.rollbackTo k p
        return .absorbed e
    | .error (.error e) =>
      s.rollbackTo k p
      return .absorbed e
    | .error (.panic message) =>
      s.rollbackTo k p
      Work.resume (.error (.panic message))

/-- Runs work in the ambient transaction, or in one of its own if there is none. -/
def current (c : Context) (ambient : Option Connection) (f : Connection → Work σ α) : Work σ α :=
  match ambient with
  | some k => s.join c k f
  | none => s.runOwned c f

/-- Runs work in the ambient transaction, which there has to be. -/
def mandatory (c : Context) (ambient : Option Connection) (f : Connection → Work σ α) : Work σ α :=
  match ambient with
  | some k => s.join c k f
  | none => Work.fail Problem.ambientRequired.error

/-- Runs work behind a savepoint on the ambient transaction, or on one opened and committed here. -/
def savepoint (c : Context) (ambient : Option Connection) (f : Connection → Work σ α) :
    Work σ (Outcome α) :=
  match ambient with
  | some k => s.join c k fun k => s.savepointOn k f
  | none => do
    let k ← s.begin c
    match ← Work.attempt (s.savepointOn k f) with
    | .ok outcome =>
      s.finish c k
      return outcome
    | .error stop =>
      s.quietly k .rollback
      Work.resume (.error stop)

/-- Runs work under a propagation. Only a savepoint absorbs errors. -/
def propagate (c : Context) (ambient : Option Connection) (mode : Propagation)
    (f : Connection → Work σ α) : Work σ (Outcome α) :=
  match mode with
  | .current => Outcome.done <$> s.current c ambient f
  | .mandatory => Outcome.done <$> s.mandatory c ambient f
  | .requiredNew => Outcome.done <$> s.runOwned c f
  | .savepoint => s.savepoint c ambient f

end Store

end ResourceEngine
