import ResourceEngine.Engine.Basic
import ResourceEngine.Rehearsal.Script

/-!
# Programs

A program is a list of steps that an engine takes over a scripted store. What a step yields, or its
error, is recorded among the calls of the store. Steps nest: the body of a nested step runs in a
transaction, which its own steps may join. Values that bodies give are of any type.
-/

namespace ResourceEngine.Rehearsal

/-- The transaction that a step takes for the ambient one. -/
inductive Ambient where
  | none
  /-- The one of the innermost nested step around it. -/
  | enclosing
  | named (name : String)
  deriving DecidableEq

/-- A step. `ν` is the type of the values that nested steps give; each step of a body comes with
whether its error is caught, so that the body goes on. A strict step fails with an error that has
been absorbed. -/
inductive Step (ν : Type) where
  | respond (q : Query)
  | execute (q : Query)
  | executeIn (q : Query) (ambient : Ambient) (mode : Propagation) (strict : Bool)
  | raw (ambient : Ambient) (access : Access) (sql : String)
  | createTables
  | cancel (c : Context)
  | fail (e : Error)
  | panic (message : String)
  | nest (c : Context) (ambient : Ambient) (mode : Propagation) (strict : Bool) (value : ν)
      (body : List (Bool × Step ν))

/-- A step outside all others. -/
inductive TopStep (ν : Type) where
  | begin (name : String) (c : Context)
  | commit (name : String)
  | rollback (name : String)
  | step (s : Step ν)

/-- What a step yields. -/
inductive Yield (ν : Type) where
  | begun
  | finished
  | created
  | cancelled
  | response (r : Response)
  | output (o : Output)
  | outcome (o : Outcome Output)
  | value (v : ν)
  | valueOutcome (o : Outcome ν)
  | affected (n : Nat)
  | rows (rows : List Row)

/-- What is recorded. A step goes by the name of what it does. -/
inductive Event (ν : Type) where
  | call (c : Call)
  | entered (mode : Propagation)
  | done (step : String) (result : Except Error (Yield ν))
  /-- The transaction that the step names does not exist. -/
  | skipped (step : String)
  | panicked (message : String)

/-- What surrounds a step. -/
structure Surroundings where
  engine : Engine
  dialect : Dialect
  enclosing : Option Connection
  named : List (String × Connection)

namespace Surroundings

variable (u : Surroundings)

/-- The scripted store. -/
def store (ν : Type) : Store (Script (Event ν)) := Script.store u.dialect Event.call

/-- The transaction that a name stands for. -/
def named? (name : String) : Option Connection := (u.named.find? (·.1 == name)).map (·.2)

/-- The transaction that is meant, if there is one; `none` where it is named and does not exist. -/
def find? : Ambient → Option (Option Connection)
  | .none => some none
  | .enclosing => some u.enclosing
  | .named name => (u.named? name).map some

end Surroundings

/-- Work of a program. -/
abbrev Play (ν : Type) := Work (Script (Event ν))

variable {ν : Type}

/-- Records an event. -/
def note (e : Event ν) : Play ν Unit := liftM (Script.record e : StateM (Script (Event ν)) Unit)

/-- Runs the work of a step and records how it ends. Its error is passed on unless it is caught. -/
def conclude (name : String) (caught : Bool) (w : Play ν (Yield ν)) : Play ν Unit := do
  match ← w.attempt with
  | .ok y => note (.done name (.ok y))
  | .error (.error e) =>
    note (.done name (.error e))
    if !caught then Work.fail e
  | .error (.panic message) => Work.resume (.error (.panic message))

/-- What a call yields that may absorb an error. -/
def yieldOutcome {α : Type} (strict : Bool) (value : α → Yield ν) (outcome : Outcome α → Yield ν)
    (o : Outcome α) : Play ν (Yield ν) :=
  if strict then value <$> o.toWork else pure (outcome o)

/-- The work of a step that runs a statement. -/
def rawWork (u : Surroundings) (k : Connection) (access : Access) (sql : String) :
    Play ν (Yield ν) :=
  match access with
  | .query => .rows <$> (u.store ν).query k [.raw sql]
  | .execute => .affected <$> (u.store ν).execute k [.raw sql]

mutual

/-- Runs a step. -/
def Step.run (u : Surroundings) (caught : Bool) : Step ν → Play ν Unit
  | .respond q => conclude "respond" caught (.response <$> u.engine.respond (u.store ν) q)
  | .execute q => conclude "execute" caught (.output <$> u.engine.execute (u.store ν) q)
  | .executeIn q ambient mode strict =>
    match u.find? ambient with
    | none => note (.skipped "execute_in")
    | some k => conclude "execute_in" caught do
      yieldOutcome strict .output .outcome (← u.engine.executeIn (u.store ν) q k mode)
  | .raw ambient access sql =>
    match u.find? ambient with
    | some (some k) => conclude "raw" caught (rawWork u k access sql)
    | _ => note (.skipped "raw")
  | .createTables => conclude "create_tables" caught do
    u.engine.createTables (u.store ν)
    return .created
  | .cancel c => conclude "cancel" caught do
    modify fun s => { s with moment := s.moment.cancel c }
    return .cancelled
  | .fail e => conclude "fail" caught (Work.fail e)
  | .panic message => throw (.panic message)
  | .nest c ambient mode strict value body =>
    match u.find? ambient with
    | none => note (.skipped "nest")
    | some k => do
      note (.entered mode)
      conclude "nest" caught do
        let outcome ← (u.store ν).propagate c k mode fun k => do
          Step.runAll { u with enclosing := some k } body
          return value
        yieldOutcome strict .value .valueOutcome outcome

/-- Runs the steps of a body up to the first error that is not caught. -/
def Step.runAll (u : Surroundings) : List (Bool × Step ν) → Play ν Unit
  | [] => return ()
  | (caught, s) :: rest => do
    s.run u caught
    Step.runAll u rest

end

/-- The transactions without the one of a name. -/
def Surroundings.without (u : Surroundings) (name : String) : List (String × Connection) :=
  u.named.filter (·.1 != name)

/-- Ends a named transaction by a control statement; its name is free afterwards. -/
def endNamed (u : Surroundings) (step : String) (control : Control) (name : String) :
    Play ν (List (String × Connection)) :=
  match u.named? name with
  | none => do
    note (.skipped step)
    return u.named
  | some k => do
    conclude step true do
      Work.answer ((u.store ν).control k control)
      return .finished
    return u.without name

/-- Runs a step outside all others, and gives the transactions that are open after it. -/
def TopStep.run (u : Surroundings) : TopStep ν → Play ν (List (String × Connection))
  | .begin name c => do
    match ← Work.attempt ((u.store ν).begin c) with
    | .ok k =>
      note (.done "begin" (.ok .begun))
      return (name, k) :: u.without name
    | .error stop =>
      conclude "begin" true (Work.resume (.error stop))
      return u.named
  | .commit name => endNamed u "commit" .commit name
  | .rollback name => endNamed u "rollback" .rollback name
  | .step s => do
    s.run u true
    return u.named

/-- Runs the steps of a program. A panic ends only its own step. -/
def runSteps (u : Surroundings) : List (TopStep ν) → Play ν Unit
  | [] => return ()
  | s :: rest => do
    match ← Work.attempt (s.run u) with
    | .ok named => runSteps { u with named := named } rest
    | .error (.panic message) =>
      note (.panicked message)
      runSteps u rest
    | .error (.error _) => runSteps u rest

/-- A program and the script of its store. -/
structure Program (ν : Type) where
  engine : Engine
  dialect : Dialect
  moment : Moment
  replies : List Reply
  rejections : List Rejection
  refused : List Connection
  steps : List (TopStep ν)

/-- The events of a program, and the number of replies that are left over. -/
def Program.run (p : Program ν) : List (Event ν) × Nat :=
  let u : Surroundings := ⟨p.engine, p.dialect, none, []⟩
  let start : Script (Event ν) := ⟨p.moment, p.replies, p.rejections, p.refused, 0, 0, [], []⟩
  let (_, s) := (runSteps u p.steps).run.run start
  (s.recorded.reverse, s.replies.length)

end ResourceEngine.Rehearsal
