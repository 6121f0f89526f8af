import ResourceEngine.Action
import ResourceEngine.Error
import ResourceEngine.Filter.Basic

/-!
# Problems

Everything that the engine itself finds wrong with a request, a body, a row or a model. Each problem
has one kind and one wording; `Problem.error` is the error it is reported as.
-/

namespace ResourceEngine

/-- What the engine finds wrong. -/
inductive Problem where
  /-- A filter names an attribute that is no field. -/
  | unknownAttribute (attr resource : String)
  | listRequired (op : Filter.Op) (field : String)
  | scalarRequired (op : Filter.Op) (field : String)
  | invalidOperand (op : Filter.Op) (field : String) (failure : CoercionFailure)
  | textPatternRequired (op : Filter.Op) (field : String) (found : Value)
  | invalidPattern (pattern : String)
  | unknownSort (attr resource : String)
  | unknownField (field resource : String)
  | unknownRelation (relation resource : String)
  | invalidKey (key resource : String) (failure : CoercionFailure)
  | tooManyParams (bound max : Nat)
  | noPrimaryKey (resource : String)
  | compositePrimaryKey (resource : String)
  | resourceRequired
  | unknownResource (resource : String)
  | keyForbidden
  | keyRequired (action : Action)
  | actionNotPermitted (action : Action) (resource : String)
  | unsupportedContentType (mediaType : String)
  | unsupportedAcceptType (mediaType : String)
  /-- A selection by key, or the returned row of a write, came back empty. -/
  | noRows
  | insertReturnedNothing
  | countMissing
  | columnCount (expected : Nat) (table : String) (found : Nat)
  | undecodableColumn (field : String) (failure : CoercionFailure)
  /-- A relation joins on a local field that the schema does not have. -/
  | relationFieldMissing (relation field : String)
  | relationTargetMissing (relation target : String)
  | malformedJson
  | malformedCbor
  | cborTooLarge
  | malformedField (field : String)
  | nullField (field : String)
  | undecodableField (field : String) (failure : CoercionFailure)
  | cancelled
  | deadlineExceeded
  | ambientRequired
  deriving DecidableEq

namespace Problem

/-- The kind of error that the problem is reported as. -/
def kind : Problem → ErrorKind
  | .unknownAttribute .. | .listRequired .. | .scalarRequired .. | .invalidOperand ..
  | .textPatternRequired .. | .invalidPattern .. | .unknownSort .. | .unknownField ..
  | .unknownRelation .. | .invalidKey .. | .tooManyParams .. | .noPrimaryKey ..
  | .compositePrimaryKey .. | .resourceRequired | .unknownResource .. | .keyForbidden
  | .keyRequired .. | .unsupportedContentType .. | .unsupportedAcceptType .. => .badRequest
  | .actionNotPermitted .. => .forbidden
  | .noRows => .notFound
  | .insertReturnedNothing | .countMissing | .columnCount .. | .undecodableColumn ..
  | .relationFieldMissing .. | .relationTargetMissing .. | .malformedJson | .malformedCbor
  | .cborTooLarge | .malformedField .. | .nullField .. | .undecodableField .. | .cancelled
  | .deadlineExceeded | .ambientRequired => .internal

/-- The wording of the problem. -/
def message : Problem → String
  | .unknownAttribute a r => s!"unknown attribute '{a}' for resource '{r}'"
  | .listRequired op f => s!"operator '{op.code}' on '{f}' requires a list value"
  | .scalarRequired op f => s!"operator '{op.code}' on '{f}' requires a scalar value"
  | .invalidOperand op f e => s!"invalid value for operator '{op.code}' on '{f}': {e.message}"
  | .textPatternRequired op f v =>
    s!"operator '{op.code}' on '{f}' requires a text pattern, got {v.typeName}"
  | .invalidPattern p => s!"invalid similar-to pattern '{p}'"
  | .unknownSort a r => s!"unknown sort attribute '{a}' for resource '{r}'"
  | .unknownField f r => s!"unknown field '{f}' for resource '{r}'"
  | .unknownRelation n r => s!"unknown relation '{n}' for resource '{r}'"
  | .invalidKey k r _ => s!"invalid key '{k}' for resource '{r}'"
  | .tooManyParams n m => s!"filter binds {n} values, at most {m} are supported"
  | .noPrimaryKey r => s!"resource '{r}' has no primary key"
  | .compositePrimaryKey r => s!"only single pk is permitted for resource '{r}'"
  | .resourceRequired => "resource name is required"
  | .unknownResource r => s!"unknown resource '{r}'"
  | .keyForbidden => "key must be empty for create"
  | .keyRequired a => s!"key is required for {a.name}"
  | .actionNotPermitted a r => s!"action '{a.name}' is not permitted on resource '{r}'"
  | .unsupportedContentType t => s!"unsupported content type '{t}'"
  | .unsupportedAcceptType t => s!"unsupported accept type '{t}'"
  | .noRows => "no rows in result set"
  | .insertReturnedNothing => "insert returned no row"
  | .countMissing => "count query returned no value"
  | .columnCount n t m => s!"expected {n} columns from '{t}', got {m}"
  | .undecodableColumn f _ => s!"cannot decode column '{f}'"
  | .relationFieldMissing n f => s!"relation '{n}' names unknown field '{f}'"
  | .relationTargetMissing n t => s!"relation '{n}' targets unregistered resource '{t}'"
  | .malformedJson => "malformed json body"
  | .malformedCbor => "malformed cbor body"
  | .cborTooLarge => "cbor body exceeds maximum allowed size"
  | .malformedField f => s!"malformed value for field '{f}'"
  | .nullField f => s!"field '{f}' must not be null"
  | .undecodableField f _ => s!"cannot decode field '{f}'"
  | .cancelled => "execution cancelled"
  | .deadlineExceeded => "execution deadline exceeded"
  | .ambientRequired => "mandatory propagation requires an ambient transaction"

/-- What lies behind the problem, if anything does. -/
def cause? : Problem → Option Cause
  | .invalidOperand _ _ e | .invalidKey _ _ e | .undecodableColumn _ e | .undecodableField _ e =>
    some (.coercion e)
  | .invalidPattern _ | .malformedJson | .malformedCbor | .malformedField _ => some .foreign
  | _ => none

/-- The error that reports the problem. -/
def error (p : Problem) : Error := ⟨p.kind, p.message, p.cause?⟩

end Problem

end ResourceEngine
