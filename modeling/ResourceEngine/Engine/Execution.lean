import ResourceEngine.Codec.Body
import ResourceEngine.Schema.Registry
import ResourceEngine.Statement.Modification
import ResourceEngine.Statement.Selection
import ResourceEngine.Store.Basic

/-!
# Execution

What each action does on an open transaction. Rows are decoded against the columns that were
selected, and related rows are loaded by sets of keys and handed to the entities that they belong
to.
-/

namespace ResourceEngine

/-- Assigns the columns of a row to the fields at the given positions, each converted to its kind.
-/
def Entity.assignColumns (e : Entity) : List (Nat × Value) → Except Problem Entity
  | [] => .ok e
  | (i, v) :: rest =>
    match e.schema.fields[i]? with
    | none => assignColumns e rest
    | some f =>
      match f.kind.coerce v with
      | .ok w => assignColumns (e.setAt i w) rest
      | .error failure => .error (.undecodableColumn f.name failure)

/-- The entity of a row that was read with a projection. Other fields are zero. -/
def Entity.ofRow (s : Schema) (projection : List Nat) (row : Row) : Except Problem Entity :=
  if row.length ≠ projection.length then
    .error (.columnCount projection.length s.table row.length)
  else
    (Entity.zeroed s).assignColumns (projection.zip row)

namespace Engine

/-- The most keys that one statement loads related rows for. -/
def keysPerQuery : Nat := 500

/-- The values other than null, each once, in order of first occurrence; those found come before. -/
def distinct : List Value → List Value → List Value
  | found, [] => found.reverse
  | found, v :: vs =>
    if v.isNull || found.any (v.same ·) then distinct found vs else distinct (v :: found) vs

/-- A list in pieces of at most `n` items; the bound is on the number of pieces. -/
def chunks {α : Type} (n : Nat) : Nat → List α → List (List α)
  | 0, _ => []
  | _, [] => []
  | bound + 1, xs => xs.take n :: chunks n bound (xs.drop n)

/-- The pieces make up the list, in order, if their number is not short. -/
theorem flatten_chunks {α : Type} {n : Nat} (hn : 0 < n) (bound : Nat) (xs : List α)
    (h : xs.length ≤ bound) : (chunks n bound xs).flatten = xs := by
  induction bound generalizing xs with
  | zero =>
    rw [List.length_eq_zero_iff.1 (Nat.le_zero.1 h)]
    rfl
  | succ bound ih =>
    cases xs with
    | nil => rfl
    | cons x xs =>
      rw [chunks, List.flatten_cons, ih, List.take_append_drop]
      · simp only [List.length_drop, List.length_cons] at h ⊢
        omega
      · simp

theorem length_le_of_mem_chunks {α : Type} {n bound : Nat} {xs piece : List α}
    (h : piece ∈ chunks n bound xs) : piece.length ≤ n := by
  induction bound generalizing xs with
  | zero => simp [chunks] at h
  | succ bound ih =>
    cases xs with
    | nil => simp [chunks] at h
    | cons x xs =>
      rw [chunks, List.mem_cons] at h
      · rcases h with rfl | h
        · exact List.length_take_le _ _
        · exact ih h
      · simp

/-- The two values are there and the same. -/
def matched : Option Value → Option Value → Bool
  | some v, some w => v.same w
  | _, _ => false

/-- The first of the related rows whose field at a position has the value of an entity's own field.
-/
def attachOne (relation : Relation) (field : String) (key : Nat) (related : List Entity)
    (e : Entity) : Entity :=
  e.setRelation relation.name
    (.one (related.find? fun r => matched (r.getAt? key) (e.get? field)))

/-- All of the related rows whose field has the value of an entity's own field at a position. -/
def attachMany (relation : Relation) (field : String) (key : Nat) (related : List Entity)
    (e : Entity) : Entity :=
  e.setRelation relation.name
    (.many (related.filter fun r => matched (r.get? field) (e.getAt? key)))

variable {σ : Type} (s : Store σ) (g : Registry) (t : Target) (k : Connection)

/-- The first row of a statement; `p` is the problem if there is none. -/
def firstRow (sql : Sql) (p : Problem) : Work σ Row := do
  match ← s.query k sql with
  | row :: _ => return row
  | [] => Work.fail p.error

/-- The entity of the first row of a statement that returns every column. -/
def writtenRow (sql : Sql) (p : Problem) : Work σ Entity := do
  let row ← firstRow s k sql p
  Work.ofExcept (Entity.ofRow t.schema t.schema.indices row)

/-- The rows of a target with one of the keys in a column, a chunk of the keys at a time. -/
def relatedRows (column : String) : List (List Value) → Work σ (List Entity)
  | [] => return []
  | keys :: rest => do
    let rows ← s.query k (t.selectIn t.schema.indices column keys)
    let found ← Work.ofExcept (rows.mapM (Entity.ofRow t.schema t.schema.indices))
    return found ++ (← relatedRows column rest)

/-- The chunks of the distinct keys. -/
def keyChunks (keys : List Value) : List (List Value) :=
  let ks := distinct [] keys
  chunks keysPerQuery ks.length ks

/-- Loads one relation of entities. -/
def loadRelation (relation : Relation) (entities : List Entity) : Work σ (List Entity) := do
  match g.lookup? relation.target with
  | none => Work.fail (Problem.relationTargetMissing relation.name relation.target).error
  | some resource =>
    let other := Target.make resource t.space t.dialect
    match relation.link with
    | .belongsTo field =>
      let (pk, i) ← Work.ofExcept resource.primaryKey
      let related ← relatedRows s other k pk.name (keyChunks (entities.filterMap (·.get? field)))
      return entities.map (attachOne relation field i related)
    | .hasMany field =>
      let (_, i) ← Work.ofExcept t.resource.primaryKey
      let related ← relatedRows s other k field (keyChunks (entities.filterMap (·.getAt? i)))
      return entities.map (attachMany relation field i related)

/-- Loads relations of entities one after another. -/
def loadRelations : List Relation → List Entity → Work σ (List Entity)
  | _, [] => return []
  | [], entities => return entities
  | relation :: rest, e :: es => do
    loadRelations rest (← loadRelation s g t k relation (e :: es))

/-- The row with a key. -/
def fetchOne (key : Value) (projection : List Nat) (relations : List Relation) : Work σ Entity := do
  let sql ← Work.ofExcept (t.selectOne projection key)
  let row ← firstRow s k sql .noRows
  let e ← Work.ofExcept (Entity.ofRow t.schema projection row)
  match ← loadRelations s g t k relations [e] with
  | loaded :: _ => return loaded
  | [] => return e

/-- The count that a statement yields; a negative one is zero. -/
def fetchCount (sql : Sql) : Work σ UInt64 := do
  match ← s.query k sql with
  | (.integer n :: _) :: _ => return UInt64.ofNat n.toInt.toNat
  | _ => Work.fail Problem.countMissing.error

/-- A window of rows. The rows are counted first, and selected only if there are any. -/
def fetchPage (p : PageSelection) (projection : List Nat) (relations : List Relation) :
    Work σ Page := do
  let count ← fetchCount s k p.count
  if count = 0 then
    return Page.empty p.offset p.limit
  let rows ← s.query k p.select
  let entities ← Work.ofExcept (rows.mapM (Entity.ofRow t.schema projection))
  let slice ← loadRelations s g t k relations entities
  return ⟨slice, p.offset, p.limit, count⟩

/-- Inserts an entity and gives the row as it is stored. -/
def create (e : Entity) : Work σ Entity := writtenRow s t k (t.insert e) .insertReturnedNothing

/-- Overwrites the row that has the entity's key. -/
def replace (e : Entity) : Work σ Entity := do
  let sql ← Work.ofExcept (t.update e)
  writtenRow s t k sql .noRows

/-- Reads the row with a key, decodes a body onto it, and writes it back under the same key. -/
def partialUpdate (key : Value) (body : List UInt8) (contentType : String) : Work σ Entity := do
  let (_, i) ← Work.ofExcept t.resource.primaryKey
  let stored ← fetchOne s g t k key t.schema.indices []
  let (e, decoded) := stored.decode body contentType
  Work.ofExcept decoded
  replace s t k (e.setAt i key)

/-- Deletes the row with a key and gives it as it was. -/
def delete (key : Value) : Work σ Entity := do
  let sql ← Work.ofExcept (t.delete key)
  writtenRow s t k sql .noRows

end Engine

end ResourceEngine
