import ResourceEngine.Schema.Basic

/-!
# Entities

An entity is a record of a schema: one value for each field, in order, and the relations that have
been loaded for it. Entities made by `zeroed` have as many values as the schema has fields, and
assigning keeps their number; `length_values_setAt` and its neighbours say so.
-/

namespace ResourceEngine

mutual

/-- A record of a schema, with values in schema order and the relations in order of loading. -/
inductive Entity where
  | mk (schema : Schema) (values : List Value) (relations : List (String × Related))

/-- A loaded relation: the one row it belongs to, if there is one, or the rows that belong to it. -/
inductive Related where
  | one (entity : Option Entity)
  | many (entities : List Entity)

end

/-- The entities that a loaded relation holds. -/
def Related.entities : Related → List Entity
  | .one e => e.toList
  | .many es => es

namespace Entity

def schema : Entity → Schema
  | .mk s _ _ => s

def values : Entity → List Value
  | .mk _ vs _ => vs

def relations : Entity → List (String × Related)
  | .mk _ _ rs => rs

/-- The entity with every field at its zero value. -/
def zeroed (s : Schema) : Entity := .mk s (s.fields.map Field.zero) []

/-- The entity with values in schema order. Missing values are zero, and those beyond the last field
are dropped. -/
def ofValues (s : Schema) (vs : List Value) : Entity :=
  .mk s (vs.take s.fields.length ++ (s.fields.map Field.zero).drop vs.length) []

/-- The value at a position. -/
def getAt? (e : Entity) (i : Nat) : Option Value := e.values[i]?

/-- The value of a field. -/
def get? (e : Entity) (field : String) : Option Value := (e.schema.fieldIndex? field).bind e.getAt?

/-- Assigns the value at a position; a position beyond the last field changes nothing. -/
def setAt (e : Entity) (i : Nat) (v : Value) : Entity := .mk e.schema (e.values.set i v) e.relations

/-- Assigns the value of a field, if the schema has it. -/
def set? (e : Entity) (field : String) (v : Value) : Option Entity :=
  (e.schema.fieldIndex? field).map (e.setAt · v)

/-- The loaded relation with a name. -/
def relation? (e : Entity) (name : String) : Option Related :=
  (e.relations.find? (·.1 == name)).map (·.2)

/-- Puts a relation under its name, in the place of one loaded before. -/
def putRelation (name : String) (r : Related) : List (String × Related) → List (String × Related)
  | [] => [(name, r)]
  | (n, s) :: rest => if n == name then (n, r) :: rest else (n, s) :: putRelation name r rest

/-- Loads a relation, in the place of one that has been loaded under its name. -/
def setRelation (e : Entity) (name : String) (r : Related) : Entity :=
  .mk e.schema e.values (putRelation name r e.relations)

@[simp] theorem schema_setAt (e : Entity) (i : Nat) (v : Value) : (e.setAt i v).schema = e.schema :=
  rfl

@[simp] theorem values_setAt (e : Entity) (i : Nat) (v : Value) :
    (e.setAt i v).values = e.values.set i v := rfl

@[simp] theorem relations_setAt (e : Entity) (i : Nat) (v : Value) :
    (e.setAt i v).relations = e.relations := rfl

@[simp] theorem values_setRelation (e : Entity) (n : String) (r : Related) :
    (e.setRelation n r).values = e.values := rfl

@[simp] theorem schema_setRelation (e : Entity) (n : String) (r : Related) :
    (e.setRelation n r).schema = e.schema := rfl

theorem length_values_zeroed (s : Schema) : (zeroed s).values.length = s.fields.length := by
  simp [zeroed, values]

theorem length_values_setAt (e : Entity) (i : Nat) (v : Value) :
    (e.setAt i v).values.length = e.values.length := by
  simp

end Entity

/-- A window of the matching rows, and the number of all of them. -/
structure Page where
  slice : List Entity
  offset : UInt64
  limit : UInt64
  count : UInt64

/-- The page of a selection that nothing matches. -/
def Page.empty (offset limit : UInt64) : Page := ⟨[], offset, limit, 0⟩

/-- What a request yields. -/
inductive Output where
  | entity (e : Entity)
  | page (p : Page)

end ResourceEngine
