import ResourceEngine.Codec.Body
import ResourceEngine.Config.Basic
import ResourceEngine.Schema.Registry
import ResourceEngine.Statement.Modification
import ResourceEngine.Statement.Selection

/-!
# Plans

A plan is a request that has been checked: the target, and what to do there. Everything that can be
wrong with a request by itself is found here, before the store is asked for anything.
-/

namespace ResourceEngine

/-- What a checked request does once there is a transaction. -/
inductive Task where
  | fetchOne (key : Value) (projection : List Nat) (relations : List Relation)
  | fetchPage (page : PageSelection) (projection : List Nat) (relations : List Relation)
  | create (e : Entity)
  | replace (e : Entity)
  | partialUpdate (key : Value) (body : List UInt8) (contentType : String)
  | delete (key : Value)

/-- A checked request. -/
structure Plan where
  target : Target
  task : Task

/-- Resources, and the defaults for requests. -/
structure Engine where
  registry : Registry
  config : Config

namespace Engine

variable (g : Engine)

/-- The media type of the request's body. -/
def contentType (q : Query) : String :=
  if Config.isBlankText q.contentType then g.config.defaultContentType else q.contentType

/-- The media type that the answer is written for. -/
def accept (q : Query) : String :=
  if Config.isBlankText q.accept then g.config.defaultAccept else q.accept

/-- The namespace of the request. -/
def space (q : Query) : Option String :=
  if q.space = "" then g.config.defaultNamespace else some q.space

/-- A key has to be given for some actions and must not be for others. -/
def checkKey (q : Query) : Except Problem Unit :=
  match q.action with
  | .create => if q.keyed then .error .keyForbidden else .ok ()
  | .replace | .partialUpdate | .delete =>
    if q.keyed then .ok () else .error (.keyRequired q.action)
  | .fetch => .ok ()

/-- The request's body on an entity of zeros. -/
def decodeBody (r : Resource) (q : Query) : Except Problem Entity := do
  let (e, decoded) := (Entity.zeroed r.schema).decode q.body (g.contentType q)
  decoded
  return e

/-- The task of a fetch. -/
def fetchTask (t : Target) (q : Query) : Except Problem Task := do
  let projection ← t.projection q.fields
  let (resolved, projection) := t.relations projection q.relations
  let relations ← resolved
  if q.keyed then
    return .fetchOne (← t.parseKey q.key) projection relations
  let page ← t.page projection q.filter ⟨q.sort, q.offset, g.config.resolveLimit q.limit⟩
  return .fetchPage page projection relations

/-- The task of a request on a resource that permits its action. -/
def task (t : Target) (q : Query) : Except Problem Task := do
  match q.action with
  | .fetch => g.fetchTask t q
  | .create => return .create (← g.decodeBody t.resource q)
  | .replace =>
    let key ← t.parseKey q.key
    let (_, i) ← t.resource.primaryKey
    let e ← g.decodeBody t.resource q
    return .replace (e.setAt i key)
  | .partialUpdate =>
    let _ ← MediaFormat.detect (g.contentType q)
    return .partialUpdate (← t.parseKey q.key) q.body (g.contentType q)
  | .delete => return .delete (← t.parseKey q.key)

/-- Checks a request: its resource, its key, the format of the answer, the permission, and what its
action needs, in this order. -/
def prepare (d : Dialect) (q : Query) : Except Problem Plan := do
  if q.resource = "" then
    throw .resourceRequired
  match g.registry.lookup? q.resource with
  | none => throw (.unknownResource q.resource)
  | some r =>
    checkKey q
    let _ ← MediaFormat.ofAccept (g.accept q)
    if !r.actions.permits q.action then
      throw (.actionNotPermitted q.action r.name)
    let t := Target.make r (g.space q) d
    return ⟨t, ← g.task t q⟩

end Engine

end ResourceEngine
