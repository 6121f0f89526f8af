import ResourceEngine.Codec.Answer
import ResourceEngine.Engine.Execution
import ResourceEngine.Engine.Plan
import ResourceEngine.Sql.Text
import ResourceEngine.Store.Transaction

/-!
# The engine

A request is checked, run in a transaction, and answered. `execute` gives its output, `executeIn`
does so within an ambient transaction, and `respond` writes the output or the error as a response.
-/

namespace ResourceEngine

/-- A response to a request. -/
structure Response where
  status : Nat
  contentType : String
  body : List UInt8

/-- The response that reports an error. -/
def Error.response (e : Error) : Response :=
  ⟨e.status, Encoded.jsonType,
    Text.toUtf8 (Json.writeRecord
      [("error", Json.quote e.publicMessage), ("status", toString e.status)])⟩

namespace Engine

variable {σ : Type} (g : Engine) (s : Store σ)

/-- Runs a checked request on an open transaction. -/
def run (plan : Plan) (k : Connection) : Work σ Output := do
  let t := plan.target
  match plan.task with
  | .fetchOne key projection relations =>
    return .entity (← fetchOne s g.registry t k key projection relations)
  | .fetchPage page projection relations =>
    return .page (← fetchPage s g.registry t k page projection relations)
  | .create e => return .entity (← create s t k e)
  | .replace e => return .entity (← replace s t k e)
  | .partialUpdate key body contentType =>
    return .entity (← partialUpdate s g.registry t k key body contentType)
  | .delete key => return .entity (← delete s t k key)

/-- The error of a request. Where a row with a key is missing, the message names the resource and
the key. -/
def finalError (q : Query) (e : Error) : Error :=
  if e.isNotFound && q.keyed then
    e.withMessage s!"resource '{q.resource}' with key '{q.key}' not found"
  else e

/-- Runs a request under a propagation. A request that is refused does not reach the store. -/
def executeIn (q : Query) (ambient : Option Connection) (mode : Propagation) :
    Work σ (Outcome Output) := do
  match g.prepare s.dialect q with
  | .error p => Work.fail (finalError q p.error)
  | .ok plan =>
    match ← Work.attempt (s.propagate q.context ambient mode (g.run s plan)) with
    | .ok (.done output) => return .done output
    | .ok (.absorbed e) => return .absorbed (finalError q e)
    | .error (.error e) => Work.fail (finalError q e)
    | .error (.panic message) => Work.resume (.error (.panic message))

/-- Runs a request in a transaction of its own. -/
def execute (q : Query) : Work σ Output := do
  (← g.executeIn s q none .current).toWork

/-- The response of a request that succeeded. -/
def success (q : Query) (e : Encoded) : Response :=
  if q.action = .delete then ⟨q.action.successStatus, Encoded.jsonType, []⟩
  else ⟨q.action.successStatus, e.contentType, e.body⟩

/-- Runs a request and writes the response. A deletion is answered without a body. -/
def respond (q : Query) : Work σ Response := do
  let encoded : Work σ Encoded := do
    let output ← g.execute s q
    Work.ofExcept (output.encode (g.accept q))
  match ← encoded.attempt with
  | .ok e => return success q e
  | .error (.error e) => return e.response
  | .error (.panic message) => Work.resume (.error (.panic message))

/-- The statements that create the tables of all resources, in order of their texts. -/
def tableStatements : List Sql :=
  let statements := g.registry.resources.map fun r =>
    (Target.make r g.config.defaultNamespace s.dialect).createTable
  statements.mergeSort fun a b => decide (Sql.render s.dialect a ≤ Sql.render s.dialect b)

/-- Creates the tables of all resources in one transaction. -/
def createTables : Work σ Unit :=
  s.current Context.background none fun k => (g.tableStatements s).forM fun sql => do
    let _ ← s.execute k sql

end Engine

end ResourceEngine
