import ResourceEngine.Entity
import ResourceEngine.Statement.Target

/-!
# Modifications

The statements that write rows, each of which returns the rows as they are afterwards, and the
statement that creates the table of a resource.
-/

namespace ResourceEngine.Target

open Sql

/-- Nothing has been assigned to a field of the kind. -/
def isUnset (k : Kind) (v : Value) : Bool := v.isNull || v.same k.zero

/-- The store assigns the value of the field. -/
def isOmitted (f : Field) (v : Value) : Bool := f.generated && isUnset f.kind v

/-- The columns of an insertion and their values. -/
def insertedColumns (t : Target) (e : Entity) : List (Field × Value) :=
  (t.schema.fields.zip e.values).filter fun (f, v) => !isOmitted f v

/-- Inserts an entity. Generated fields that nothing has been assigned to are left to the store. -/
def insert (t : Target) (e : Entity) : Sql :=
  let columns := t.insertedColumns e
  .token .INSERT :: .token .INTO :: t.table ++
    (if columns.isEmpty then [.token .DEFAULT, .token .VALUES]
    else parens (identList (columns.map (·.1.name))) ++
      .token .VALUES :: parens (paramList (columns.map (·.2)))) ++
    t.returning

/-- Assigns every field outside the primary key of the row that has the entity's key. A key without
other fields is assigned itself. -/
def update (t : Target) (e : Entity) : Except Problem Sql := do
  let (pk, i) ← t.resource.primaryKey
  let key := (e.getAt? i).getD .null
  let pairs := (t.schema.fields.zip e.values).filterMap fun (f, v) =>
    if f.primary then none else some (f.name, v)
  let pairs := if pairs.isEmpty then [(pk.name, key)] else pairs
  return .token .UPDATE :: t.table ++ .token .SET :: assignments pairs ++ (← t.whereKey key) ++
    t.returning

/-- Deletes the row with a key. -/
def delete (t : Target) (key : Value) : Except Problem Sql := do
  return .token .DELETE :: .token .FROM :: t.table ++ (← t.whereKey key) ++ t.returning

/-- The store numbers the rows by this field. -/
def isIdentity (f : Field) : Bool := f.generated && f.primary && f.kind == .integer

/-- The type of a column. -/
def columnType (d : Dialect) (f : Field) : String :=
  if d = .postgresql ∧ isIdentity f then "BIGINT GENERATED BY DEFAULT AS IDENTITY"
  else f.kind.sqlType d

/-- The definition of a column. The only field of a primary key is marked as such. -/
def columnDefinition (d : Dialect) (inlineKey : Bool) (f : Field) : Sql :=
  [.ident f.name, .raw (columnType d f)] ++
    (if f.primary && inlineKey then [.token .PRIMARY, .token .KEY]
    else if !f.nullable then [.token .NOT, .token .NULL]
    else [])

/-- Creates the table unless it exists. A primary key of several fields is declared after them. -/
def createTable (t : Target) : Sql :=
  let keys := t.schema.keyColumns
  let columns := t.schema.fields.map (columnDefinition t.dialect (keys.length == 1))
  let key : List Sql :=
    if 1 < keys.length then [.token .PRIMARY :: .token .KEY :: parens (identList keys)] else []
  [.token .CREATE, .token .TABLE, .token .IF, .token .NOT, .token .EXISTS] ++ t.table ++
    parens (join .COMMA (columns ++ key))

end ResourceEngine.Target
