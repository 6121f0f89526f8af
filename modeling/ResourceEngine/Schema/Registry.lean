import ResourceEngine.Schema.Basic

/-!
# Registries

A registry holds the resources that requests can name. It is built from definitions one after
another; `Registry.build` then checks every relation against the resources that have been defined.
-/

namespace ResourceEngine

/-- Resources with different names. -/
structure Registry where
  resources : List Resource
  deriving Inhabited

namespace Registry

/-- What is wrong with the definitions of a registry. -/
inductive Fault where
  | emptyName
  | duplicate (name : String)
  | schema (resource : String) (fault : Schema.Fault)
  | unknownTarget (resource relation target : String)
  | unknownForeignField (resource relation target field : String)
  /-- A relation needs a resource to have a primary key of one field. -/
  | relationKey (resource relation keyed : String)
  deriving DecidableEq

/-- The wording of a fault. -/
def Fault.message : Fault → String
  | .emptyName => "resource name must not be empty"
  | .duplicate n => s!"resource '{n}' is already registered"
  | .schema r e => s!"invalid schema for resource '{r}': {e.message}"
  | .unknownTarget r n t => s!"relation '{n}' of '{r}' targets unregistered resource '{t}'"
  | .unknownForeignField r n t f => s!"relation '{n}' of '{r}' names field '{f}' missing on '{t}'"
  | .relationKey r n k => s!"relation '{n}' of '{r}' requires '{k}' to have a single primary key"

def empty : Registry := ⟨[]⟩

/-- The resource with a name. -/
def lookup? (g : Registry) (name : String) : Option Resource := g.resources.find? (·.name == name)

/-- The names of the resources, in order of code points. -/
def names (g : Registry) : List String :=
  (g.resources.map (·.name)).mergeSort fun a b => decide (a ≤ b)

/-- Adds a resource whose schema is in order. -/
def define (g : Registry) (r : Resource) : Except Fault Registry := do
  match r.schema.check with
  | .error e => throw (.schema r.name e)
  | .ok () =>
    if r.name = "" then throw .emptyName
    if (g.lookup? r.name).isSome then throw (.duplicate r.name)
    return ⟨g.resources ++ [r]⟩

/-- Checks one relation: its target is registered, and the side that the other refers to has a
primary key of one field. -/
def checkRelation (g : Registry) (r : Resource) (relation : Relation) : Except Fault Unit := do
  match g.lookup? relation.target with
  | none => throw (.unknownTarget r.name relation.name relation.target)
  | some target =>
    let keyed ←
      match relation.link with
      | .belongsTo _ => pure target
      | .hasMany field =>
        if (target.schema.field? field).isNone then
          throw (.unknownForeignField r.name relation.name relation.target field)
        else pure r
    if !keyed.schema.hasSingleKey then
      throw (.relationKey r.name relation.name keyed.name)

/-- Checks the relations of every resource. -/
def check (g : Registry) : Except Fault Unit :=
  g.resources.forM fun r => r.schema.relations.forM (checkRelation g r)

/-- The registry of a list of definitions. -/
def build (definitions : List Resource) : Except Fault Registry := do
  let g ← definitions.foldlM define empty
  g.check
  return g

end Registry

end ResourceEngine
