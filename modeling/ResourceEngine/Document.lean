import ResourceEngine.Entity

/-!
# Documents

What an answer holds, whatever format it is written in: values, unsigned numbers, lists, and records
with their entries in order. An entity is a record of its fields and its loaded relations; a page is
a record of its rows and its bounds.
-/

namespace ResourceEngine

/-- A tree of values, lists and records; the entries of a record keep their order. -/
inductive Document where
  | value (v : Value)
  | natural (n : UInt64)
  | list (items : List Document)
  | record (entries : List (String × Document))

namespace Document

/-- The entries of the fields, in schema order. -/
def ofFields (s : Schema) (vs : List Value) : List (String × Document) :=
  (s.fields.zip vs).map fun (f, v) => (f.name, .value v)

mutual

/-- An entity as a record: its fields in schema order, and then its relations. -/
def ofEntity : Entity → Document
  | .mk s vs rs => .record (ofFields s vs ++ ofRelations rs)

def ofRelations : List (String × Related) → List (String × Document)
  | [] => []
  | (name, r) :: rs => (name, ofRelated r) :: ofRelations rs

/-- A missing row is null. -/
def ofRelated : Related → Document
  | .one (some e) => ofEntity e
  | .one none => .value .null
  | .many es => .list (ofEntities es)

def ofEntities : List Entity → List Document
  | [] => []
  | e :: es => ofEntity e :: ofEntities es

end

/-- A page as a record of its rows and the three numbers. -/
def ofPage (p : Page) : Document :=
  .record
    [("slice", .list (ofEntities p.slice)), ("offset", .natural p.offset),
      ("limit", .natural p.limit),
      ("count", .natural p.count)]

def ofOutput : Output → Document
  | .entity e => ofEntity e
  | .page p => ofPage p

end Document

end ResourceEngine
