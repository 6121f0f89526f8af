import ResourceEngine.Proofs.Store.Scope

/-!
# Procedures

A procedure is a finite tree of nested calls. It runs statements on the transactions around it,
calls other procedures under a propagation, with one of these transactions or none as the ambient
one, and goes on as it likes with what it gets back, be it a value, an error or a panic.
`Procedure.run` runs a procedure on a store.
-/

namespace ResourceEngine

/-- What a closure does that has `n` transactions around it, the innermost first. -/
inductive Procedure (α : Type) : Nat → Type where
  | give {n : Nat} (a : α) : Procedure α n
  | fail {n : Nat} (e : Error) : Procedure α n
  | panic {n : Nat} (message : String) : Procedure α n
  | execute {n : Nat} (i : Fin n) (sql : Sql) (next : Except Stop Nat → Procedure α n) :
    Procedure α n
  | query {n : Nat} (i : Fin n) (sql : Sql) (next : Except Stop (List Row) → Procedure α n) :
    Procedure α n
  /-- Lets time pass and looks at the moment. -/
  | wait {n : Nat} (next : Moment → Procedure α n) : Procedure α n
  | call {n : Nat} (c : Context) (mode : Propagation) (ambient : Option (Fin n))
    (body : Procedure α (n + 1)) (next : Except Stop (Outcome α) → Procedure α n) : Procedure α n

/-- The connections of the transactions around a procedure. -/
abbrev Surrounding (n : Nat) := Fin n → Connection

namespace Surrounding

/-- The transactions around a procedure inside another transaction. -/
def push {n : Nat} (u : Surrounding n) (k : Connection) : Surrounding (n + 1) :=
  Fin.cases k u

@[simp] theorem push_zero {n : Nat} (u : Surrounding n) (k : Connection) : u.push k 0 = k := rfl

/-- No transaction is around a whole program. -/
def none : Surrounding 0 := Fin.elim0

end Surrounding

namespace Procedure

variable {σ α : Type}

/-- Runs a procedure, given how time passes. -/
def run (s : Store σ) (pass : StateM σ Unit) : {n : Nat} → Procedure α n → Surrounding n → Work σ α
  | _, .give a, _ => pure a
  | _, .fail e, _ => Work.fail e
  | _, .panic message, _ => throw (.panic message)
  | _, .execute i sql next, u => do
    let answer ← (s.execute (u i) sql).attempt
    (next answer).run s pass u
  | _, .query i sql next, u => do
    let answer ← (s.query (u i) sql).attempt
    (next answer).run s pass u
  | _, .wait next, u => do
    let _ ← pass
    (next (s.moment (← get))).run s pass u
  | _, .call c mode ambient body next, u => do
    let answer ← (s.propagate c (ambient.map u) mode fun k => body.run s pass (u.push k)).attempt
    (next answer).run s pass u

/-- A procedure that waits goes on from the state that the pause has left, at its moment. -/
theorem run_wait_on (s : Store σ) (pass : StateM σ Unit) {n : Nat} (u : Surrounding n)
    (next : Moment → Procedure α n) (t : σ) :
    ((wait next).run s pass u).on t =
      ((next (s.moment (pass.run t).2)).run s pass u).on (pass.run t).2 := by
  rw [run, Work.on_bind, Work.on_lift]
  simp only [Work.on_bind, Work.on_get]

end Procedure

end ResourceEngine
