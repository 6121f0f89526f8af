import ResourceEngine.Sql.Text
import ResourceEngine.Store.Transaction

/-!
# Scripted stores

A scripted store answers statements from a list of replies, lets some control statements and
connections fail, and records every call. Its state is what is left of the script and what has been
recorded.
-/

namespace ResourceEngine.Rehearsal

/-- The answer to one statement. Before it is given, a context may be cancelled. -/
structure Reply where
  cancel : Option Context
  failure : Option Stop
  rows : List Row
  affected : Nat

/-- The answer to a statement once the script is used up. -/
def Reply.none : Reply := ⟨Option.none, Option.none, [], 0⟩

/-- Lets control statements fail whose text has a given start, a number of times or always, with an
error given here or one that names the statement. -/
structure Rejection where
  start : String
  times : Option Nat
  error : Option Error

/-- What watches a connection: nothing, a context that is done, or one that is not. -/
inductive Watch where
  | none
  | done
  | live
  deriving DecidableEq

/-- How a statement is run. -/
inductive Access where
  | query
  | execute
  deriving DecidableEq

/-- A call of the store. -/
inductive Call where
  | connect (k : Connection) (watch : Watch)
  | control (k : Connection) (text : String)
  | statement (k : Connection) (access : Access) (s : Sql.Statement)
  | bind (k : Connection) (watch : Watch)

/-- The state of a scripted store that records events of some type, last first. -/
structure Script (ε : Type) where
  moment : Moment
  replies : List Reply
  rejections : List Rejection
  /-- The connections that fail to open. -/
  refused : List Connection
  connections : Nat
  savepoints : Nat
  /-- The contexts that watch connections. -/
  watching : List (Connection × Context)
  recorded : List ε

namespace Script

variable {ε : Type}

/-- Records an event. -/
def record (e : ε) : StateM (Script ε) Unit :=
  modify fun s => { s with recorded := e :: s.recorded }

/-- The context that watches a connection. -/
def watcher? (s : Script ε) (k : Connection) : Option Context :=
  (s.watching.find? (·.1 == k)).map (·.2)

/-- The state in which a context watches a connection, or nothing does. -/
def watch (s : Script ε) (k : Connection) (c : Option Context) : Script ε :=
  let others := s.watching.filter (·.1 != k)
  { s with watching := match c with
      | some c => (k, c) :: others
      | none => others }

/-- The part that a context plays as a watcher. -/
def watchOf (m : Moment) : Option Context → Watch
  | none => .none
  | some c => if c.isDone m then .done else .live

/-- Uses up the first rejection that a control statement meets. -/
def reject? (text : String) : List Rejection → Option (Rejection × List Rejection)
  | [] => none
  | r :: rs =>
    if r.start.toList.isPrefixOf text.toList && r.times != some 0 then
      some (r, { r with times := r.times.map (· - 1) } :: rs)
    else
      (reject? text rs).map fun (found, rest) => (found, r :: rest)

/-- The name of a savepoint in a record. -/
def savepointName (p : Savepoint) : String := "#" ++ toString p.number

/-- Opens the next connection. -/
def connect (event : Call → ε) (c : Context) : StateM (Script ε) (Except Error Connection) := do
  modify fun s => { s with connections := s.connections + 1 }
  let s ← get
  let k : Connection := ⟨s.connections⟩
  record (event (.connect k (watchOf s.moment (some c))))
  if s.refused.contains k then
    return .error (Error.internal ("connection " ++ toString k.id ++ " refused"))
  modify (·.watch k (some c))
  return .ok k

/-- Runs a control statement. -/
def control (event : Call → ε) (k : Connection) (c : Control) :
    StateM (Script ε) (Except Error Unit) := do
  let text := c.text savepointName
  record (event (.control k text))
  match reject? text (← get).rejections with
  | none => return .ok ()
  | some (r, rest) =>
    modify ({ · with rejections := rest })
    return .error (r.error.getD (Error.internal (text ++ " rejected")))

/-- Takes the next reply for a statement. A connection whose context is done takes none. -/
def reply (d : Dialect) (event : Call → ε) (k : Connection) (access : Access) (sql : Sql) :
    Work (Script ε) Reply := do
  record (event (.statement k access (sql.build d)))
  let s ← get
  if watchOf s.moment (s.watcher? k) = .done then
    Work.fail DriverFailure.interrupted.error
  let r := s.replies.headD .none
  let moment := match r.cancel with
    | some c => s.moment.cancel c
    | none => s.moment
  set { s with replies := s.replies.drop 1, moment }
  match r.failure with
  | some stop => throw stop
  | none => return r

/-- Puts a context in the place of the one that watches a connection. -/
def bindContext (event : Call → ε) (k : Connection) (c : Option Context) :
    StateM (Script ε) (Option Context) := do
  let s ← get
  record (event (.bind k (watchOf s.moment c)))
  modify (·.watch k c)
  return s.watcher? k

/-- A savepoint with the next number. -/
def freshSavepoint : StateM (Script ε) Savepoint :=
  modifyGet fun s => (⟨s.savepoints + 1⟩, { s with savepoints := s.savepoints + 1 })

/-- The store that a script answers for, given how its calls are recorded. -/
def store (d : Dialect) (event : Call → ε) : Store (Script ε) where
  dialect := d
  moment := (·.moment)
  connect := connect event
  control := control event
  query k sql := (·.rows) <$> reply d event k .query sql
  execute k sql := (·.affected) <$> reply d event k .execute sql
  bindContext := bindContext event
  freshSavepoint := freshSavepoint

end Script

end ResourceEngine.Rehearsal
