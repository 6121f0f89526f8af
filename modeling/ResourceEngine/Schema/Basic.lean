import ResourceEngine.Problem

/-!
# Schemas

A schema describes the table of a resource: its fields in order, and its relations to other
resources. `Schema.check` says what is wrong with one.
-/

namespace ResourceEngine

/-- A column of a table. -/
structure Field where
  name : String
  kind : Kind
  nullable : Bool
  primary : Bool
  /-- The store assigns a value where none is given. -/
  generated : Bool
  deriving DecidableEq, Inhabited

/-- The value of the field in an entity that nothing has been assigned to. -/
def Field.zero (f : Field) : Value := if f.nullable then .null else f.kind.zero

/-- How the rows of two resources are related. -/
inductive Link where
  /-- A local field holds the primary key of the related row. -/
  | belongsTo (field : String)
  /-- A field of the related rows holds the primary key of this one. -/
  | hasMany (field : String)
  deriving DecidableEq, Inhabited

/-- A named relation of a schema to a resource. -/
structure Relation where
  name : String
  target : String
  link : Link
  deriving DecidableEq, Inhabited

/-- The shape of a table: its fields in order, and its relations. -/
structure Schema where
  table : String
  fields : List Field
  relations : List Relation
  deriving DecidableEq, Inhabited

namespace Schema

/-- The position of the field with a name. -/
def fieldIndex? (s : Schema) (name : String) : Option Nat := s.fields.findIdx? (·.name == name)

/-- The field with a name. -/
def field? (s : Schema) (name : String) : Option Field := s.fields.find? (·.name == name)

/-- The relation with a name. -/
def relation? (s : Schema) (name : String) : Option Relation := s.relations.find? (·.name == name)

/-- The names of the fields, in order. -/
def columns (s : Schema) : List String := s.fields.map (·.name)

/-- The positions of all fields. -/
def indices (s : Schema) : List Nat := List.range s.fields.length

/-- The names of the fields that make up the primary key. -/
def keyColumns (s : Schema) : List String := (s.fields.filter (·.primary)).map (·.name)

/-- The fields of the primary key with their positions. -/
def keyFields (s : Schema) : List (Field × Nat) := s.fields.zipIdx.filter (·.1.primary)

/-- The one field of the primary key and its position. Other keys are refused in the name of a
resource. -/
def primaryKey (s : Schema) (resource : String) : Except Problem (Field × Nat) :=
  match s.keyFields with
  | [key] => .ok key
  | [] => .error (.noPrimaryKey resource)
  | _ => .error (.compositePrimaryKey resource)

/-- The schema has a primary key of one field. -/
def hasSingleKey (s : Schema) : Bool := s.keyFields.length == 1

/-- What is wrong with a schema. -/
inductive Fault where
  | emptyTable
  | noFields (table : String)
  | emptyFieldName (table : String)
  | duplicateField (table field : String)
  | duplicateRelation (table relation : String)
  | unknownRelationField (relation field : String)
  deriving DecidableEq

/-- The wording of a fault. -/
def Fault.message : Fault → String
  | .emptyTable => "schema table name must not be empty"
  | .noFields t => s!"schema '{t}' has no fields"
  | .emptyFieldName t => s!"field name must not be empty in schema '{t}'"
  | .duplicateField t f => s!"duplicate field '{f}' in schema '{t}'"
  | .duplicateRelation t r => s!"duplicate relation '{r}' in schema '{t}'"
  | .unknownRelationField r f => s!"relation '{r}' names unknown field '{f}'"

/-- Checks the names of fields from first to last, given those before them. -/
def checkFields (table : String) : List String → List Field → Except Fault Unit
  | _, [] => .ok ()
  | seen, f :: fs =>
    if f.name = "" then .error (.emptyFieldName table)
    else if f.name ∈ seen then .error (.duplicateField table f.name)
    else checkFields table (f.name :: seen) fs

/-- The field that a relation names on its own schema. -/
def localField? : Link → Option String
  | .belongsTo field => some field
  | .hasMany _ => none

/-- Checks relations from first to last, given the names of those before them. -/
def checkRelations (table : String) (columns : List String) :
    List String → List Relation → Except Fault Unit
  | _, [] => .ok ()
  | seen, r :: rs =>
    if r.name ∈ seen ∨ r.name ∈ columns then .error (.duplicateRelation table r.name)
    else
      match localField? r.link with
      | some field =>
        if field ∈ columns then checkRelations table columns (r.name :: seen) rs
        else .error (.unknownRelationField r.name field)
      | none => checkRelations table columns (r.name :: seen) rs

/-- The first fault of a schema, if it has any. -/
def check (s : Schema) : Except Fault Unit := do
  if s.table = "" then throw .emptyTable
  if s.fields.isEmpty then throw (.noFields s.table)
  checkFields s.table [] s.fields
  checkRelations s.table s.columns [] s.relations

end Schema

/-- A schema under a name, with the actions that requests may take on it. -/
structure Resource where
  name : String
  schema : Schema
  actions : ActionSet
  deriving DecidableEq, Inhabited

/-- The primary key of the resource's schema. -/
def Resource.primaryKey (r : Resource) : Except Problem (Field × Nat) := r.schema.primaryKey r.name

end ResourceEngine
