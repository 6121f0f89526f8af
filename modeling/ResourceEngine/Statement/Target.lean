import ResourceEngine.Filter.Lowering
import ResourceEngine.Query

/-!
# Statement targets

The table that a statement works on, and the parts of a request that are resolved against its
schema: selected fields, relations, and the key.
-/

namespace ResourceEngine

/-- The table of a resource, in a namespace, in a dialect. -/
structure Target where
  resource : Resource
  /-- The namespace; never the empty one. -/
  space : Option String
  dialect : Dialect
  deriving Inhabited

namespace Target

/-- The target in a namespace, or in none if its name is empty. -/
def make (r : Resource) (space : Option String) (d : Dialect) : Target :=
  ⟨r, space.filter (· != ""), d⟩

def schema (t : Target) : Schema := t.resource.schema

def name (t : Target) : String := t.resource.name

/-- The quoted name of the table. -/
def table (t : Target) : Sql := Sql.table t.space t.schema.table

/-- The names of the fields at the given positions. -/
def columns (t : Target) (projection : List Nat) : Sql :=
  Sql.identList (projection.filterMap fun i => t.schema.fields[i]?.map (·.name))

/-- The clause that returns every column of the rows written. -/
def returning (t : Target) : Sql := .token .RETURNING :: Sql.identList t.schema.columns

/-- The clause that selects a row by its primary key. -/
def whereKey (t : Target) (key : Value) : Except Problem Sql := do
  let (pk, _) ← t.resource.primaryKey
  return [.token .WHERE, .ident pk.name, .token .EQ, .param key]

/-- Adds a position that is not there yet. -/
def widen (projection : List Nat) (i : Nat) : List Nat :=
  if i ∈ projection then projection else projection ++ [i]

/-- The positions of the named fields after those found before, each once. -/
def project (t : Target) : List Nat → List String → Except Problem (List Nat)
  | found, [] => .ok found
  | found, name :: names =>
    match t.schema.fieldIndex? name with
    | some i => project t (widen found i) names
    | none => .error (.unknownField name t.name)

/-- The positions of the named fields, each once; of all fields, if none is named. -/
def projection (t : Target) (fields : List String) : Except Problem (List Nat) :=
  if fields.isEmpty then .ok t.schema.indices else t.project [] fields

/-- The value of the primary key that a text stands for. -/
def parseKey (t : Target) (key : String) : Except Problem Value := do
  let (pk, _) ← t.resource.primaryKey
  match pk.kind.coerce (.text key) with
  | .ok v => return v
  | .error e => throw (.invalidKey key t.name e)

/-- The position of the field by which the rows of a target are matched with those of a relation. -/
def joinIndex (t : Target) (relation : Relation) : Except Problem Nat :=
  match relation.link with
  | .belongsTo field =>
    match t.schema.fieldIndex? field with
    | some i => .ok i
    | none => .error (.relationFieldMissing relation.name field)
  | .hasMany _ => t.resource.primaryKey.map (·.2)

/-- The relations with the given names, each once, after those found before, and the projection
widened by the field that each is joined on. The projection is widened also by the relations before
a problem. -/
def resolve (t : Target) :
    List Relation → List Nat → List String → Except Problem (List Relation) × List Nat
  | found, projection, [] => (.ok found, projection)
  | found, projection, name :: names =>
    match t.schema.relation? name with
    | none => (.error (.unknownRelation name t.name), projection)
    | some relation =>
      if found.any (·.name == relation.name) then resolve t found projection names
      else
        match t.joinIndex relation with
        | .error e => (.error e, projection)
        | .ok i => resolve t (found ++ [relation]) (widen projection i) names

/-- The relations with the given names and the widened projection. -/
def relations (t : Target) (projection : List Nat) (names : List String) :
    Except Problem (List Relation) × List Nat :=
  t.resolve [] projection names

end Target

end ResourceEngine
