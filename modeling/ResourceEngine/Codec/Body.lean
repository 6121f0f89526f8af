import ResourceEngine.Cbor.Reading
import ResourceEngine.Codec.Form
import ResourceEngine.Codec.Media
import ResourceEngine.Entity
import ResourceEngine.Json.Basic

/-!
# Bodies

A body is a list of names with what stands for their values. In JSON and CBOR the names are taken in
order, each with the last value given for it; in a form every pair is taken, in its order.
`Entity.decode` assigns the pairs one after another: a name that is no field is passed over, and a
pair that cannot be assigned ends the decoding with the pairs before it assigned.
-/

namespace ResourceEngine

/-- A name, and its value unless that could not be read. -/
abbrev BodyPair := String × Option Value

namespace Body

/-- The largest CBOR body, in octets. -/
def cborLimit : Nat := 4 * 1024 * 1024

/-- Drops every entry that a later entry with the same key follows at once. -/
def keepLast {α : Type} : List (String × α) → List (String × α)
  | [] => []
  | [e] => [e]
  | e :: e' :: rest => if e.1 = e'.1 then keepLast (e' :: rest) else e :: keepLast (e' :: rest)

/-- The entries in order of their keys, each key with its last value. -/
def byKey {α : Type} (entries : List (String × α)) : List (String × α) :=
  keepLast (entries.mergeSort fun a b => decide (a.1 ≤ b.1))

/-- The pairs of a JSON object, in order of their names. -/
def jsonPairs (body : List UInt8) : Except Problem (List BodyPair) :=
  match (Text.ofUtf8? body).bind Json.ofText? with
  | some (.object entries) => .ok ((byKey entries).map fun (k, j) => (k, j.value?))
  | _ => .error .malformedJson

/-- The pairs of a form, in its order; their values are texts. -/
def formPairs (body : List UInt8) : List BodyPair :=
  (Form.pairs body).map fun (k, s) => (k, some (.text s))

/-- The pairs of a CBOR map, in order of their names. -/
def cborPairs (body : List UInt8) : Except Problem (List BodyPair) :=
  if cborLimit < body.length then .error .cborTooLarge
  else
    match Cbor.entries? body with
    | some entries => .ok ((byKey entries).map fun (k, c) => (k, c.value?))
    | none => .error .malformedCbor

/-- The pairs of a body in the order in which they are assigned. -/
def pairs (format : MediaFormat) (body : List UInt8) : Except Problem (List BodyPair) :=
  match format with
  | .json => jsonPairs body
  | .form => .ok (formPairs body)
  | .cbor => cborPairs body

end Body

namespace Entity

/-- The value that a field takes from a body. -/
def accept (f : Field) (v : Option Value) : Except Problem Value :=
  match v with
  | none => .error (.malformedField f.name)
  | some .null => if f.nullable then .ok .null else .error (.nullField f.name)
  | some v =>
    match f.kind.coerce v with
    | .ok w => .ok w
    | .error e => .error (.undecodableField f.name e)

/-- Assigns the pairs of a body in order. The entity is given back also where a pair fails. -/
def assign (e : Entity) : List BodyPair → Entity × Except Problem Unit
  | [] => (e, .ok ())
  | (name, v) :: rest =>
    match e.schema.fieldIndex? name, e.schema.field? name with
    | some i, some f =>
      match accept f v with
      | .ok w => assign (e.setAt i w) rest
      | .error p => (e, .error p)
    | _, _ => assign e rest

/-- Decodes a body onto the entity. The entity is given back also where the body fails. -/
def decode (e : Entity) (body : List UInt8) (contentType : String) : Entity × Except Problem Unit :=
  match MediaFormat.detect contentType with
  | .error p => (e, .error p)
  | .ok format =>
    match Body.pairs format body with
    | .error p => (e, .error p)
    | .ok pairs => e.assign pairs

end Entity

end ResourceEngine
