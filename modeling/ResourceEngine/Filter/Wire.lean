import ResourceEngine.Filter.Basic
import ResourceEngine.Json.Basic
import ResourceEngine.Json.Writing

/-!
# Filters on the wire

A group is an object with an operator and its children; a predicate is an object with an attribute,
an operator and, unless the operator is unary, a value. `ofRecord?` is the rule that both directions
share: what the members of one object make of it. A filter text is read in order, so the first thing
wrong with it is what is reported.
-/

namespace ResourceEngine.Filter

/-- What is wrong with the members of an object. -/
inductive WireFault where
  | unknownOp (op : String)
  | groupWithOperand (op : String)
  | predicateWithChildren (op : String)
  | missingAttribute (op : String)
  | missingValue (attr op : String)
  deriving DecidableEq

/-- The wording of a fault. -/
def WireFault.message : WireFault → String
  | .unknownOp op => s!"unknown filter operator '{op}'"
  | .groupWithOperand op => s!"filter group '{op}' must not carry an attribute or value"
  | .predicateWithChildren op => s!"filter predicate '{op}' must not carry child filters"
  | .missingAttribute op => s!"filter predicate '{op}' requires an attribute"
  | .missingValue attr op => s!"filter predicate '{op}' on '{attr}' requires a value"

/-- Why a text is no filter: it is not JSON of the right shape, or an object has the wrong members.
-/
inductive WireError where
  | shape
  | fault (f : WireFault)
  deriving DecidableEq

/-- The members of a filter object. An absent value and a null are the same. -/
structure WireRecord where
  op : String
  attr : Option String
  operand : Option Operand
  children : Option (List Filter)

namespace WireRecord

/-- The filter that the members make. -/
def filter (r : WireRecord) : Except WireFault Filter :=
  match Combinator.ofCode? r.op with
  | some c =>
    if r.attr.isSome || r.operand.isSome then .error (.groupWithOperand r.op)
    else .ok (.group c (r.children.getD []))
  | none =>
    match Op.ofCode? r.op with
    | none => .error (.unknownOp r.op)
    | some op =>
      if r.children.isSome then .error (.predicateWithChildren r.op)
      else
        match r.attr.filter (· != "") with
        | none => .error (.missingAttribute r.op)
        | some attr =>
          match r.operand with
          | some v => .ok (.predicate attr op v)
          | none =>
            if op.isUnary then .ok (.predicate attr op (.scalar .null))
            else .error (.missingValue attr r.op)

end WireRecord

/-- The operand that a document stands for: an array is a list of values, not a blob, and a null is
no operand. -/
def Operand.ofJson? : Json → Option (Option Operand)
  | .null => some none
  | .array items => (items.mapM Json.value?).map fun vs => some (.list vs)
  | j => j.value?.map fun v => some (.scalar v)

/-- The members read so far; the outer layer says whether a member has been met. -/
structure WireDraft where
  op : Option String
  attr : Option (Option String)
  operand : Option (Option Operand)
  children : Option (Option (List Filter))

namespace WireDraft

def start : WireDraft := ⟨none, none, none, none⟩

/-- The filter of the members read. -/
def finish (d : WireDraft) : Except WireError Filter :=
  match d.op with
  | none => .error .shape
  | some op =>
    match (⟨op, d.attr.join, d.operand.join, d.children.join⟩ : WireRecord).filter with
    | .ok f => .ok f
    | .error e => .error (.fault e)

end WireDraft

/-- A string, or null for none. -/
def optionalString? : Json.Draft → Option (Option String)
  | .null => some none
  | .string units => (Json.decodeString? units).map some
  | _ => none

/-- The operand of a draft with the given number of levels left. -/
def optionalOperand? (levels : Nat) (d : Json.Draft) : Option (Option Operand) :=
  (Json.ofDraft? levels d).bind Operand.ofJson?

mutual

/-- The filter of a draft with the given number of levels left. Besides an object, a list of the
members in the order operator, attribute, value, children is taken. -/
def ofDraft (levels : Nat) : Json.Draft → Except WireError Filter
  | .object entries =>
    if levels ≤ 1 then .error .shape else ofEntries (levels - 1) .start entries
  | .array (op :: rest) =>
    if levels ≤ 1 then .error .shape
    else
      match optionalString? op with
      | some (some op) => ofMembers (levels - 1) op rest
      | _ => .error .shape
  | _ => .error .shape

/-- The filter of the members after the operator, in their order. -/
def ofMembers (levels : Nat) (op : String) : List Json.Draft → Except WireError Filter
  | [] => (⟨some op, none, none, none⟩ : WireDraft).finish
  | [attr] =>
    match optionalString? attr with
    | some a => (⟨some op, some a, none, none⟩ : WireDraft).finish
    | none => .error .shape
  | [attr, operand] =>
    match optionalString? attr, optionalOperand? levels operand with
    | some a, some v => (⟨some op, some a, some v, none⟩ : WireDraft).finish
    | _, _ => .error .shape
  | attr :: operand :: children :: rest =>
    match optionalString? attr, optionalOperand? levels operand with
    | some a, some v =>
      match ofChildren levels children with
      | .error e => .error e
      | .ok fs =>
        if rest.isEmpty then (⟨some op, some a, some v, some fs⟩ : WireDraft).finish
        else .error .shape
    | _, _ => .error .shape

/-- The filter of the entries of an object, given the members before them. A member stands at most
once, and a name that is none is passed over. -/
def ofEntries (levels : Nat) (d : WireDraft) :
    List (Option (List Json.StringUnit) × Json.Draft) → Except WireError Filter
  | [] => d.finish
  | (key, draft) :: rest =>
    match key.bind Json.decodeString? with
    | none => .error .shape
    | some name =>
      if name = "op" then
        match d.op, optionalString? draft with
        | none, some (some op) => ofEntries levels { d with op := some op } rest
        | _, _ => .error .shape
      else if name = "attr" then
        match d.attr, optionalString? draft with
        | none, some a => ofEntries levels { d with attr := some a } rest
        | _, _ => .error .shape
      else if name = "value" then
        match d.operand, optionalOperand? levels draft with
        | none, some v => ofEntries levels { d with operand := some v } rest
        | _, _ => .error .shape
      else if name = "filters" then
        if d.children.isSome then .error .shape
        else
          match ofChildren levels draft with
          | .error e => .error e
          | .ok fs => ofEntries levels { d with children := some fs } rest
      else if draft.isWhole then ofEntries levels d rest
      else .error .shape

/-- The children of a group: a list of filters, or null for none. -/
def ofChildren (levels : Nat) : Json.Draft → Except WireError (Option (List Filter))
  | .null => .ok none
  | .array items =>
    if levels ≤ 1 then .error .shape
    else
      match ofDrafts (levels - 1) items with
      | .ok fs => .ok (some fs)
      | .error e => .error e
  | _ => .error .shape

def ofDrafts (levels : Nat) : List Json.Draft → Except WireError (List Filter)
  | [] => .ok []
  | d :: ds =>
    match ofDraft levels d with
    | .error e => .error e
    | .ok f =>
      match ofDrafts levels ds with
      | .ok fs => .ok (f :: fs)
      | .error e => .error e

end

/-- The filter of a text. -/
def ofText (cs : List Char) : Except WireError Filter :=
  match Json.Draft.ofText cs with
  | (d, clean) =>
    match ofDraft Json.nestLimit d with
    | .ok f => if clean then .ok f else .error .shape
    | .error e => .error e

/-- The wire text of an operand. -/
def Operand.write : Operand → String
  | .scalar v => Json.writeValue v
  | .list vs => Json.writeList (vs.map Json.writeValue)

mutual

/-- The text of a filter. A unary operator has no value. -/
def write : Filter → String
  | .group c children =>
    Json.writeRecord
      [("op", Json.quote c.code), ("filters", Json.writeList (writeAll children))]
  | .predicate attr op operand =>
    Json.writeRecord
      ([("op", Json.quote op.code), ("attr", Json.quote attr)] ++
        if op.isUnary then [] else [("value", operand.write)])

def writeAll : List Filter → List String
  | [] => []
  | f :: fs => write f :: writeAll fs

end

end ResourceEngine.Filter
