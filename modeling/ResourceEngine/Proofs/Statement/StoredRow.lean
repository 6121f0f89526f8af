import Mathlib.Data.List.DropRight
import ResourceEngine.Proofs.Statement.Text
import ResourceEngine.Proofs.Text.Utf8
import ResourceEngine.Store.Basic
import ResourceEngine.Value.Cell

/-!
# Stored rows

A row of a table is known by the names of its columns, and a statement that gives rows lists the
columns that it gives. The names in the list, and the positions that the rows are decoded with, are
those of one projection; so an entity holds in each field that was read what the row holds in the
column of the same name.
-/

namespace ResourceEngine

/-- The value that a row of a table holds in each column. -/
abbrev StoredRow := String → Value

/-- The row as it is read for a list of columns: what comes back from the cell of each. -/
def StoredRow.read (stored : StoredRow) (columns : List String) : Row :=
  columns.map fun column => (stored column).cell.value

/-- The row has a value of its kind in every field, or null where that is allowed, and no NaN. -/
def Schema.Keeps (s : Schema) (stored : StoredRow) : Prop :=
  ∀ f ∈ s.fields, (stored f.name = .null ∧ f.nullable = true) ∨
    (f.kind.admits (stored f.name) = true ∧ (stored f.name).isProper = true)

/-- A value of a kind comes back from its cell, though a truth value comes back as an integer. -/
theorem Kind.coerce_cell {k : Kind} {v : Value} (h : v = .null ∨ k.admits v = true) :
    k.coerce v.cell.value = .ok v := by
  rcases h with rfl | h
  · rfl
  cases v with
  | null => cases k <;> cases h
  | integer i | real r | blob octets => exact coerce_of_admits h
  | text s =>
    have hback : (Value.text s).cell.value = .text s := by
      rw [Value.cell, Cell.value, Text.ofUtf8Lossy_toUtf8, String.ofList_toList]
    rw [hback]
    exact coerce_of_admits h
  | bool b => cases k <;> cases b <;> first | rfl | cases h

theorem Schema.Keeps.coerce_cell {s : Schema} {stored : StoredRow} (h : s.Keeps stored) {f : Field}
    (hf : f ∈ s.fields) : f.kind.coerce (stored f.name).cell.value = .ok (stored f.name) :=
  Kind.coerce_cell ((h f hf).imp And.left And.left)

/-! ### Lists of columns -/

/-- The names of the fields at the positions. -/
def Schema.columnsAt (s : Schema) (projection : List Nat) : List String :=
  projection.filterMap fun i => s.fields[i]?.map (·.name)

theorem Schema.columnsAt_indices (s : Schema) : s.columnsAt s.indices = s.columns := by
  have hget (fields : List Field) :
      (List.range fields.length).filterMap (fun i => fields[i]?.map (·.name)) =
        fields.map (·.name) := by
    induction fields with
    | nil => rfl
    | cons f fields ih =>
      rw [List.length_cons, List.range_succ_eq_map, List.filterMap_cons, List.filterMap_map]
      simpa [Function.comp_def] using ih
  exact hget s.fields

namespace Sql

/-- The name that the chunk is. -/
def Chunk.name? : Chunk → Option String
  | .ident name => some name
  | _ => none

/-- The names of a fragment that is a list of names. -/
def nameList? (sql : Sql) : Option (List String) :=
  let names := sql.filterMap Chunk.name?
  if sql = identList names then some names else none

/-- The columns that a statement gives, if they are listed by name: what stands before FROM in a
selection, and after RETURNING in any other statement. -/
def columnList? : Sql → Option (List String)
  | .token .SELECT :: sql => nameList? (sql.takeWhile (· != .token .FROM))
  | sql =>
    if .token .RETURNING ∈ sql then nameList? (sql.rtakeWhile (· != .token .RETURNING)) else none

theorem identList_cons_cons (name name' : String) (names : List String) :
    identList (name :: name' :: names) =
      .ident name :: .token .COMMA :: identList (name' :: names) := rfl

/-- The names in a list of identifiers are those it was made of. -/
theorem names_identList (names : List String) :
    (identList names).filterMap Chunk.name? = names := by
  induction names with
  | nil => rfl
  | cons name names ih =>
    cases names with
    | nil => rfl
    | cons name' names => rw [identList_cons_cons, List.filterMap_cons, List.filterMap_cons, ih]; rfl

@[simp] theorem nameList?_identList (names : List String) :
    nameList? (identList names) = some names := by
  simp [nameList?, names_identList]

theorem forall_identList_ne {token : Token} (h : token ≠ .COMMA) (names : List String) :
    ∀ c ∈ identList names, (c != .token token) = true :=
  ne_of_uses (uses_identList (by simpa using h.symm) names)

/-- The columns of a selection stand between its first word and the table. -/
theorem columnList?_select (names : List String) (rest : Sql) :
    columnList? (.token .SELECT :: identList names ++ .token .FROM :: rest) = some names := by
  have hcomma : Token.FROM ≠ .COMMA := by decide
  have hlist := forall_identList_ne hcomma names
  rw [List.cons_append, columnList?, List.takeWhile_append_of_pos hlist]
  simp

/-- The columns of any other statement are those that it returns. -/
theorem columnList?_returning {head : Chunk} (hhead : head ≠ .token .SELECT) (before : Sql)
    (names : List String) :
    columnList? (head :: before ++ .token .RETURNING :: identList names) = some names := by
  have hcomma : Token.RETURNING ≠ .COMMA := by decide
  have hlist := forall_identList_ne hcomma names
  have hafter : (head :: before ++ .token .RETURNING :: identList names).rtakeWhile
      (· != .token .RETURNING) = identList names := by
    rw [List.rtakeWhile, List.reverse_append, List.reverse_cons, List.append_assoc,
      List.takeWhile_append_of_pos (by simpa using hlist)]
    simp
  unfold columnList?
  split
  · next heq =>
    exact absurd (List.cons.inj heq).1 hhead
  · rw [if_pos (by simp), hafter, nameList?_identList]

end Sql

namespace Target

variable {t : Target} {projection : List Nat} {sql : Sql}

theorem columnList?_selectFrom (t : Target) (projection : List Nat) (rest : Sql) :
    Sql.columnList? (t.selectFrom (t.columns projection) ++ rest) =
      some (t.schema.columnsAt projection) := by
  have hshape : t.selectFrom (t.columns projection) ++ rest =
      .token .SELECT :: Sql.identList (t.schema.columnsAt projection) ++
        .token .FROM :: (t.table ++ rest) := by
    simp [selectFrom, columns, Schema.columnsAt]
  rw [hshape, Sql.columnList?_select]

/-- The columns that a selection lists are those of its projection, whatever the filter and the
window are. -/
theorem columnList?_of_select {filter : Option Filter} {w : Window}
    (h : t.select projection filter w = .ok sql) :
    Sql.columnList? sql = some (t.schema.columnsAt projection) := by
  obtain ⟨condition, -, h⟩ := Filter.exists_of_bind h
  obtain ⟨order, -, h⟩ := Filter.exists_of_bind h
  cases h
  simp only [List.append_assoc]
  exact columnList?_selectFrom t projection _

/-- The two statements of a page are compiled from one filter. -/
theorem select_and_count_of_page {filter : Option Filter} {w : Window} {page : PageSelection}
    (h : t.page projection filter w = .ok page) :
    t.select projection filter w = .ok page.select ∧ t.count filter = .ok page.count ∧
      page.offset = w.offset ∧ page.limit = w.limit := by
  obtain ⟨select, hselect, h⟩ := Filter.exists_of_bind h
  simp only at h
  split_ifs at h
  · cases h
  · obtain ⟨count, hcount, h⟩ := Filter.exists_of_bind h
    cases h
    exact ⟨hselect, hcount, rfl, rfl⟩

theorem select_of_page {filter : Option Filter} {w : Window} {page : PageSelection}
    (h : t.page projection filter w = .ok page) :
    t.select projection filter w = .ok page.select :=
  (select_and_count_of_page h).1

theorem columnList?_of_selectOne {key : Value} (h : t.selectOne projection key = .ok sql) :
    Sql.columnList? sql = some (t.schema.columnsAt projection) := by
  obtain ⟨condition, -, h⟩ := Filter.exists_of_bind h
  cases h
  exact columnList?_selectFrom t projection condition

theorem columnList?_selectIn (t : Target) (column : String) (keys : List Value) :
    Sql.columnList? (t.selectIn t.schema.indices column keys) = some t.schema.columns := by
  rw [selectIn, List.append_assoc, columnList?_selectFrom, Schema.columnsAt_indices]

/-- A statement that writes rows gives all of their columns. -/
theorem columnList?_insert (t : Target) (e : Entity) :
    Sql.columnList? (t.insert e) = some t.schema.columns := by
  rw [insert, List.cons_append, List.cons_append]
  exact Sql.columnList?_returning (by simp) _ t.schema.columns

theorem columnList?_of_update {e : Entity} (h : t.update e = .ok sql) :
    Sql.columnList? sql = some t.schema.columns := by
  obtain ⟨pk, -, h⟩ := Filter.exists_of_bind h
  obtain ⟨condition, -, h⟩ := Filter.exists_of_bind h
  cases h
  exact Sql.columnList?_returning (by simp) _ t.schema.columns

theorem columnList?_of_delete {key : Value} (h : t.delete key = .ok sql) :
    Sql.columnList? sql = some t.schema.columns := by
  obtain ⟨condition, -, h⟩ := Filter.exists_of_bind h
  cases h
  exact Sql.columnList?_returning (by simp) _ t.schema.columns

end Target

end ResourceEngine
