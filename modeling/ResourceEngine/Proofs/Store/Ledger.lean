import Mathlib.Logic.Function.Basic
import ResourceEngine.Proofs.Store.Procedure

/-!
# Ledgers

A ledger keeps for each connection the writes made on it. A statement that is accepted counts as a
write, whether it was executed or queried for its rows, as a statement that writes may return the
rows. A savepoint marks a position among the writes, a rollback to it takes back what comes after, a
commit appends them to the durable writes. The store on a ledger fails no control statement; what it
answers to the others is a parameter.

`Procedure.course` says without a ledger which writes a procedure makes, and which calls are in
progress at each of them.
-/

namespace ResourceEngine

/-- A write, with its number among all statements. -/
structure Write where
  number : Nat
  sql : Sql

/-- The writes on connections, and those that are durable. -/
structure Ledger where
  connections : Nat
  savepoints : Nat
  statements : Nat
  pending : Connection → List Write
  /-- The open savepoints of a connection with their positions, the innermost first. -/
  marks : Connection → List (Savepoint × Nat)
  durable : List Write

/-- What a store on a ledger answers: to a statement by its number and its text. -/
structure Replies where
  dialect : Dialect
  moment : Moment
  affected : Nat → Sql → Except Stop Nat
  rows : Nat → Sql → Except Stop (List Row)

namespace Ledger

def empty : Ledger := ⟨0, 0, 0, fun _ => [], fun _ => [], []⟩

/-- The ledger with a new connection. -/
def connect (l : Ledger) : Ledger :=
  { l with
    connections := l.connections + 1
    pending := Function.update l.pending ⟨l.connections + 1⟩ []
    marks := Function.update l.marks ⟨l.connections + 1⟩ [] }

/-- The ledger without the writes and the savepoints of a connection. -/
def clear (l : Ledger) (k : Connection) : Ledger :=
  { l with
    pending := Function.update l.pending k []
    marks := Function.update l.marks k [] }

/-- The ledger after a control statement. A savepoint stands for its innermost mark, and what is
done with it drops the marks inside. -/
def control (l : Ledger) (k : Connection) : Control → Ledger
  | .begin => l
  | .commit => { l.clear k with durable := l.durable ++ l.pending k }
  | .rollback => l.clear k
  | .savepoint p =>
    { l with marks := Function.update l.marks k ((p, (l.pending k).length) :: l.marks k) }
  | .release p =>
    match (l.marks k).dropWhile (·.1 != p) with
    -- A savepoint that is not open changes nothing.
    | [] => l
    | _ :: outer => { l with marks := Function.update l.marks k outer }
  | .rollbackTo p =>
    match (l.marks k).dropWhile (·.1 != p) with
    | [] => l
    | mark :: outer =>
      { l with
        pending := Function.update l.pending k ((l.pending k).take mark.2)
        marks := Function.update l.marks k (mark :: outer) }

/-- The ledger after the next statement, which may be a write. -/
def step (l : Ledger) : Ledger := { l with statements := l.statements + 1 }

/-- The ledger after a write on a connection. -/
def write (l : Ledger) (k : Connection) (sql : Sql) : Ledger :=
  { l.step with pending := Function.update l.pending k (l.pending k ++ [⟨l.statements, sql⟩]) }

/-- The ledger after a statement to which there is an answer, a number or rows. Only an accepted one
is a write. -/
def answered {α : Type} (l : Ledger) (k : Connection) (sql : Sql) : Except Stop α → Ledger
  | .ok _ => l.write k sql
  | .error _ => l.step

/-- The store on a ledger. -/
def store (r : Replies) : Store Ledger where
  dialect := r.dialect
  moment _ := r.moment
  connect _ := modifyGet fun l => (.ok ⟨l.connections + 1⟩, l.connect)
  control k c := modifyGet fun l => (.ok (), l.control k c)
  query k sql := ExceptT.mk (modifyGet fun l =>
    (r.rows l.statements sql, l.answered k sql (r.rows l.statements sql)))
  execute k sql := ExceptT.mk (modifyGet fun l =>
    (r.affected l.statements sql, l.answered k sql (r.affected l.statements sql)))
  bindContext _ _ := return none
  freshSavepoint := modifyGet fun l => (⟨l.savepoints⟩, { l with savepoints := l.savepoints + 1 })

end Ledger

/-! ### Courses -/

/-- A call in progress: its mode, the connection it runs on, whether it has opened a transaction
there, and how its closure ends. -/
structure Frame where
  mode : Propagation
  on : Connection
  opens : Bool
  ended : Ending

/-- The call commits the transaction that it has opened. -/
def Frame.commits (f : Frame) : Bool := f.mode.commitsOn f.ended

/-- A write on a connection, and the calls in progress, the innermost first. -/
structure Entry where
  on : Connection
  write : Write
  around : List Frame

namespace Entry

/-- The entry inside another call. -/
def within (f : Frame) (e : Entry) : Entry := { e with around := e.around ++ [f] }

/-- The call that has opened the transaction commits it. -/
def Committed (e : Entry) : Prop := ∃ f ∈ e.around, f.on = e.on ∧ f.opens ∧ f.commits

/-- Every savepoint call around the write on its transaction has a closure that ends with a value.
-/
def Upheld (e : Entry) : Prop :=
  ∀ f ∈ e.around, f.on = e.on → f.mode = .savepoint → f.ended = .value

instance : DecidablePred Committed := fun e =>
  inferInstanceAs (Decidable (∃ f ∈ e.around, f.on = e.on ∧ f.opens ∧ f.commits))

instance : DecidablePred Upheld := fun e =>
  inferInstanceAs (Decidable (∀ f ∈ e.around, f.on = e.on → f.mode = .savepoint → f.ended = .value))

end Entry

/-- What a ledger counts and an answer depends on. -/
structure Clock where
  connections : Nat
  statements : Nat

/-- How a procedure ends, the writes it makes, and what has been counted after it. -/
structure Course (α : Type) where
  ending : Except Stop α
  entries : List Entry
  clock : Clock

/-- The connection that a call gets, whether it opens it, and the clock from then on. -/
def Replies.enter (r : Replies) (c : Context) (t : Clock) :
    Scope → Except Problem (Connection × Bool × Clock)
  | .refused => .error .ambientRequired
  | .joined k =>
    match c.problem? r.moment with
    | some p => .error p
    | none => .ok (k, false, t)
  | .owned =>
    match c.problem? r.moment with
    | some p => .error p
    | none => .ok (⟨t.connections + 1⟩, true, { t with connections := t.connections + 1 })

/-- The entry of an accepted statement. -/
def Entry.ofAnswer {α : Type} (k : Connection) (t : Clock) (sql : Sql) : Except Stop α → List Entry
  | .ok _ => [⟨k, ⟨t.statements, sql⟩, []⟩]
  | .error _ => []

/-- The clock after a statement. -/
def Clock.step (t : Clock) : Clock := { t with statements := t.statements + 1 }

namespace Procedure

variable {α : Type}

/-- The course of a procedure. -/
def course (r : Replies) : {n : Nat} → Procedure α n → Surrounding n → Clock → Course α
  | _, .give a, _, t => ⟨.ok a, [], t⟩
  | _, .fail e, _, t => ⟨.error (.error e), [], t⟩
  | _, .panic message, _, t => ⟨.error (.panic message), [], t⟩
  | _, .execute i sql next, u, t =>
    let answer := r.affected t.statements sql
    let rest := (next answer).course r u t.step
    { rest with entries := Entry.ofAnswer (u i) t sql answer ++ rest.entries }
  | _, .query i sql next, u, t =>
    let answer := r.rows t.statements sql
    let rest := (next answer).course r u t.step
    { rest with entries := Entry.ofAnswer (u i) t sql answer ++ rest.entries }
  | _, .wait next, u, t => (next r.moment).course r u t
  | _, .call c mode ambient body next, u, t =>
    match r.enter c t (mode.scope (ambient.map u)) with
    | .error p => (next (.error (.error p.error))).course r u t
    | .ok (k, opens, inside) =>
      let inner := body.course r (u.push k) inside
      let f : Frame := ⟨mode, k, opens, .of inner.ending⟩
      let rest := (next (mode.settle inner.ending)).course r u inner.clock
      { rest with entries := inner.entries.map (·.within f) ++ rest.entries }

end Procedure

end ResourceEngine
