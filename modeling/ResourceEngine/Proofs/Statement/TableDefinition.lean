import ResourceEngine.Proofs.Statement.Clauses

/-!
# Table definitions

What the statement that creates a table declares, read from the statement itself: each column with
its type and constraints, and a primary key that is declared after them. Where an insertion leaves a
column out, the row is stored only if the table can fill the column in, with a value that the store
assigns or with null. `canFill_omitted_iff` says for which fields it can.
-/

namespace ResourceEngine

namespace Sql

/-! ### Items of a list -/

/-- Puts a chunk before the first of the items. -/
def extend (c : Chunk) : List Sql → List Sql
  | [] => [[c]]
  | item :: items => (c :: item) :: items

/-- The items of a list, which commas divide that do not stand in parentheses. The first argument is
the number of parentheses that are open. -/
def items : Nat → Sql → List Sql
  | _, [] => [[]]
  | 0, .token .COMMA :: rest => [] :: items 0 rest
  | depth, .token .LPAREN :: rest => extend (.token .LPAREN) (items (depth + 1) rest)
  | depth, .token .RPAREN :: rest => extend (.token .RPAREN) (items (depth - 1) rest)
  | depth, c :: rest => extend c (items depth rest)

/-- No comma in the fragment divides items where so many parentheses are open. -/
def Undivided (depth : Nat) (s : Sql) : Prop :=
  ∀ rest, items depth (s ++ rest) = s.foldr extend (items depth rest)

section

variable {depth : Nat} {s t : Sql}

theorem Undivided.append (hs : Undivided depth s) (ht : Undivided depth t) :
    Undivided depth (s ++ t) := fun rest => by
  rw [List.append_assoc, hs, ht, List.foldr_append]

/-- The token neither opens nor closes parentheses, and it does not divide items where so many are
open. -/
def Token.isInner (depth : Nat) (t : Token) : Bool :=
  t != .LPAREN && t != .RPAREN && (t != .COMMA || depth != 0)

theorem undivided_of_isInner (hs : Uses (Token.isInner depth) s) : Undivided depth s := by
  intro rest
  induction s with
  | nil => rfl
  | cons c s ih =>
    rw [uses_cons] at hs
    rw [List.cons_append, List.foldr_cons, ← ih hs.2]
    cases c with
    | token t => cases depth <;> cases t <;> first | rfl | exact nomatch hs.1
    | _ => cases depth <;> rfl

/-- Between parentheses more of them are open. -/
theorem undivided_parens (hs : Undivided (depth + 1) s) : Undivided depth (parens s) := by
  intro rest
  have hopen (rest : Sql) : items depth (.token .LPAREN :: rest) =
      extend (.token .LPAREN) (items (depth + 1) rest) := by cases depth <;> rfl
  have hclose (rest : Sql) : items (depth + 1) (.token .RPAREN :: rest) =
      extend (.token .RPAREN) (items depth rest) := rfl
  rw [parens, List.cons_append, List.cons_append, List.append_assoc, hopen, hs,
    List.singleton_append, hclose, List.foldr_cons, List.foldr_append]
  rfl

theorem foldr_extend (s item : Sql) (rest : List Sql) :
    s.foldr extend (item :: rest) = (s ++ item) :: rest := by
  induction s with
  | nil => rfl
  | cons c s ih => rw [List.foldr_cons, ih]; rfl

/-- The fragments that have been joined are the items. -/
theorem items_join {fragments : List Sql} (hne : fragments ≠ [])
    (h : ∀ s ∈ fragments, Undivided 0 s) : items 0 (join .COMMA fragments) = fragments := by
  induction fragments with
  | nil => exact absurd rfl hne
  | cons s rest ih =>
    rw [List.forall_mem_cons] at h
    cases rest with
    | nil =>
      have hs := h.1 []
      rw [List.append_nil] at hs
      rw [join, hs, items, foldr_extend, List.append_nil]
    | cons t rest =>
      rw [join, h.1, items, ih (List.cons_ne_nil _ _) h.2, foldr_extend, List.append_nil]
      simp

end

theorem dropWhile_parens (s : Sql) : (parens s).dropWhile (· != .token .LPAREN) = parens s :=
  List.dropWhile_cons_of_neg (by simp)

theorem names_parens (s : Sql) :
    (parens s).filterMap Chunk.name? = s.filterMap Chunk.name? := by
  rw [parens, List.cons_append, List.filterMap_cons_none rfl, List.filterMap_append]
  exact List.append_nil _

/-! ### Declarations -/

/-- A column as the definition of a table declares it. -/
structure ColumnDef where
  name : String
  type : String
  /-- What stands after the type. -/
  constraints : Sql

/-- The column is the primary key by itself. -/
def ColumnDef.isKey (c : ColumnDef) : Bool := decide (.token .PRIMARY ∈ c.constraints)

/-- The column may not be null. -/
def ColumnDef.isRequired (c : ColumnDef) : Bool := decide (.token .NOT ∈ c.constraints)

/-- A table as its definition declares it. -/
structure TableDef where
  columns : List ColumnDef
  /-- The columns of a primary key that is declared apart from them. -/
  key : List String

def ColumnDef.ofItem? : Sql → Option ColumnDef
  | .ident name :: .raw type :: constraints => some ⟨name, type, constraints⟩
  | _ => none

def TableDef.ofItems? : List Sql → Option TableDef
  | [] => some ⟨[], []⟩
  | (.token .PRIMARY :: .token .KEY :: names) :: rest =>
    (ofItems? rest).map fun d => { d with key := names.filterMap Chunk.name? ++ d.key }
  | item :: rest => do
    let c ← ColumnDef.ofItem? item
    let d ← ofItems? rest
    return { d with columns := c :: d.columns }

/-- The table that a statement creates: the items between its parentheses. -/
def tableDef? : Sql → Option TableDef
  | .token .CREATE :: .token .TABLE :: rest =>
    TableDef.ofItems? (items 0 (rest.dropWhile (· != .token .LPAREN)).tail.dropLast)
  | _ => none

/-- The columns that an insertion lists: those in parentheses before its values. -/
def givenColumns (sql : Sql) : List String :=
  ((sql.takeWhile (· != .token .VALUES)).dropWhile (· != .token .LPAREN)).filterMap Chunk.name?

/-- The store assigns the value of the column. SQLite numbers rows by an integer that is the primary
key by itself, and PostgreSQL by an identity column. -/
def ColumnDef.isAssigned (dialect : Dialect) (c : ColumnDef) : Bool :=
  match dialect with
  | .sqlite => c.isKey && c.type == "INTEGER"
  | .postgresql => c.type == "BIGINT GENERATED BY DEFAULT AS IDENTITY"

/-- The table has something to store in the column where a row has no value for it: what the store
assigns, or null. -/
def TableDef.canFill (d : TableDef) (dialect : Dialect) (c : ColumnDef) : Bool :=
  c.isAssigned dialect || !(c.isRequired || c.isKey || d.key.contains c.name)

/-- A row with values for these columns lacks none that the table cannot fill in. -/
def TableDef.Takes (d : TableDef) (dialect : Dialect) (given : List String) : Prop :=
  ∀ c ∈ d.columns, c.name ∉ given → d.canFill dialect c = true

end Sql

/-- A store of the dialect numbers rows by the field, if it is a primary field that is generated. -/
def Schema.numbersRows (s : Schema) (f : Field) : Dialect → Bool
  | .sqlite => s.keyColumns.length == 1 && (f.kind == .integer || f.kind == .bool)
  | .postgresql => f.kind == .integer

/-- A table of the schema can fill in the generated field: a primary field if the store numbers rows
by it, and any other field if it may be null. -/
def Schema.canFill (s : Schema) (dialect : Dialect) (f : Field) : Bool :=
  if f.primary then s.numbersRows f dialect else f.nullable

namespace Target

open Sql

variable {t : Target} {e : Entity} {f : Field} {v : Value} {i : Nat}

/-! ### The table of a target -/

/-- The primary key is declared with its column. -/
def hasInlineKey (t : Target) : Bool := t.schema.keyColumns.length == 1

/-- The column of a field. -/
def columnDef (t : Target) (f : Field) : ColumnDef where
  name := f.name
  type := columnType t.dialect f
  constraints :=
    if f.primary && t.hasInlineKey then [.token .PRIMARY, .token .KEY]
    else if !f.nullable then [.token .NOT, .token .NULL]
    else []

/-- The table of the target. -/
def tableDef (t : Target) : TableDef where
  columns := t.schema.fields.map t.columnDef
  key := if 1 < t.schema.keyColumns.length then t.schema.keyColumns else []

theorem columnDefinition_eq (t : Target) (f : Field) :
    columnDefinition t.dialect t.hasInlineKey f =
      .ident f.name :: .raw (columnType t.dialect f) :: (t.columnDef f).constraints := rfl

theorem undivided_columnDefinition (t : Target) (f : Field) :
    Undivided 0 (columnDefinition t.dialect t.hasInlineKey f) := by
  refine undivided_of_isInner ?_
  rw [columnDefinition]
  split_ifs <;> simp <;> decide

theorem ofItems?_columns (fields : List Field) {rest : List Sql} {d : TableDef}
    (hrest : TableDef.ofItems? rest = some d) :
    TableDef.ofItems? (fields.map (columnDefinition t.dialect t.hasInlineKey) ++ rest) =
      some { d with columns := fields.map t.columnDef ++ d.columns } := by
  induction fields with
  | nil => exact hrest
  | cons f fields ih =>
    rw [List.map_cons, List.cons_append, columnDefinition_eq, TableDef.ofItems?, ih]
    · rfl
    -- A column begins with its name, so the item is not taken for a key.
    · simp

/-- The item that declares a primary key of several columns. -/
def keyItems (t : Target) : List Sql :=
  if 1 < t.schema.keyColumns.length then
    [.token .PRIMARY :: .token .KEY :: parens (identList t.schema.keyColumns)]
  else []

theorem undivided_of_mem_keyItems {s : Sql} (h : s ∈ t.keyItems) : Undivided 0 s := by
  unfold keyItems at h
  split_ifs at h
  · obtain rfl := List.mem_singleton.1 h
    have hwords : Undivided 0 [.token .PRIMARY, .token .KEY] :=
      undivided_of_isInner (by simp; decide)
    exact hwords.append (undivided_parens (undivided_of_isInner (uses_identList rfl _)))
  · exact nomatch h

theorem ofItems?_keyItems (t : Target) :
    TableDef.ofItems? t.keyItems = some ⟨[], t.tableDef.key⟩ := by
  unfold keyItems tableDef
  split_ifs
  · simp only [TableDef.ofItems?, names_parens, names_identList]
    simp
  · rfl

theorem createTable_eq (t : Target) :
    t.createTable = .token .CREATE :: .token .TABLE ::
      (([.token .IF, .token .NOT, .token .EXISTS] ++ t.table) ++
        parens (join .COMMA
          (t.schema.fields.map (columnDefinition t.dialect t.hasInlineKey) ++ t.keyItems))) := by
  simp [createTable, hasInlineKey, keyItems]

/-- The definition of the table declares the columns of the fields, and the primary key. -/
theorem tableDef?_createTable (ht : t.schema.fields ≠ []) :
    tableDef? t.createTable = some t.tableDef := by
  have hbefore : ∀ c ∈ [.token .IF, .token .NOT, .token .EXISTS] ++ t.table,
      (c != .token .LPAREN) = true :=
    ne_of_uses (uses_append.2 ⟨by simp, uses_table rfl t⟩)
  have hinside (s : Sql) : (parens s).tail.dropLast = s := List.dropLast_concat
  have hitems : ∀ s ∈ t.schema.fields.map (columnDefinition t.dialect t.hasInlineKey) ++ t.keyItems,
      Undivided 0 s := by
    refine List.forall_mem_append.2 ⟨?_, fun s => undivided_of_mem_keyItems⟩
    rw [List.forall_mem_map]
    exact fun f _ => undivided_columnDefinition t f
  rw [createTable_eq, tableDef?, List.dropWhile_append_of_pos hbefore, dropWhile_parens, hinside,
    items_join (by simp [ht]) hitems, ofItems?_columns _ (ofItems?_keyItems t), List.append_nil]
  rfl

/-! ### Columns that can be filled in -/

theorem isKey_columnDef (t : Target) (f : Field) :
    (t.columnDef f).isKey = (f.primary && t.hasInlineKey) := by
  unfold ColumnDef.isKey columnDef
  cases f.primary <;> cases t.hasInlineKey <;> cases f.nullable <;> rfl

theorem isRequired_columnDef (t : Target) (f : Field) :
    (t.columnDef f).isRequired = (!(f.primary && t.hasInlineKey) && !f.nullable) := by
  unfold ColumnDef.isRequired columnDef
  cases f.primary <;> cases t.hasInlineKey <;> cases f.nullable <;> rfl

/-- The store assigns only primary fields. -/
theorem isAssigned_columnDef (hf : f.generated = true) :
    (t.columnDef f).isAssigned t.dialect = (f.primary && t.schema.numbersRows f t.dialect) := by
  unfold ColumnDef.isAssigned
  rw [isKey_columnDef]
  cases hdialect : t.dialect with
  | sqlite =>
    have htype : (t.columnDef f).type = f.kind.sqlType .sqlite := by
      simp [columnDef, columnType, hdialect]
    rw [htype, Bool.and_assoc, hasInlineKey, Schema.numbersRows]
    cases f.kind <;> rfl
  | postgresql =>
    have htype : (t.columnDef f).type =
        if f.primary && f.kind == .integer then "BIGINT GENERATED BY DEFAULT AS IDENTITY"
        else f.kind.sqlType .postgresql := by
      simp [columnDef, columnType, hdialect, isIdentity, hf]
    rw [htype, Schema.numbersRows]
    cases f.primary <;> cases f.kind <;> rfl

theorem mem_keyColumns_iff (hs : t.schema.columns.Nodup) (hf : f ∈ t.schema.fields) :
    f.name ∈ t.schema.keyColumns ↔ f.primary = true := by
  rw [Schema.keyColumns, List.mem_map]
  constructor
  · rintro ⟨g, hg, hname⟩
    obtain ⟨hg, hprimary⟩ := List.mem_filter.1 hg
    rwa [← List.inj_on_of_nodup_map hs hg hf hname]
  · exact fun hprimary => ⟨f, List.mem_filter.2 ⟨hf, hprimary⟩, rfl⟩

/-- A field is named in the key of the table if it is one of several that make it up. -/
theorem contains_key_tableDef (hs : t.schema.columns.Nodup) (hf : f ∈ t.schema.fields) :
    t.tableDef.key.contains f.name = (f.primary && !t.hasInlineKey) := by
  rw [Bool.eq_iff_iff, List.contains_iff_mem, tableDef, hasInlineKey]
  have hmem := mem_keyColumns_iff hs hf
  split_ifs with hseveral
  · simp [hmem, hseveral.ne']
  · constructor
    · exact nofun
    · intro h
      obtain ⟨hprimary, hnot⟩ := Bool.and_eq_true_iff.1 h
      have hlength : t.schema.keyColumns.length ≠ 1 := by simpa using hnot
      have hpos := List.length_pos_of_mem (hmem.2 hprimary)
      omega

theorem canFill_columnDef (hs : t.schema.columns.Nodup) (hf : f ∈ t.schema.fields)
    (hgenerated : f.generated = true) :
    t.tableDef.canFill t.dialect (t.columnDef f) = t.schema.canFill t.dialect f := by
  have hname : (t.columnDef f).name = f.name := rfl
  unfold TableDef.canFill
  rw [isAssigned_columnDef hgenerated, isKey_columnDef, isRequired_columnDef, hname,
    contains_key_tableDef hs hf]
  unfold Schema.canFill
  cases f.primary with
  | false => simp
  | true =>
    -- Either the column or the table declares the key, so null is not stored in it.
    cases t.hasInlineKey <;> simp

/-! ### Columns that are given -/

/-- An insertion lists the columns that it gives values for. -/
theorem givenColumns_insert (t : Target) (e : Entity) :
    givenColumns (t.insert e) = (t.insertedColumns e).map (·.1.name) := by
  have hvalues : Uses (· != .VALUES) (.token .INSERT :: .token .INTO :: t.table) :=
    uses_cons.2 ⟨rfl, uses_cons.2 ⟨rfl, uses_table rfl t⟩⟩
  have hopen : Uses (· != .LPAREN) (.token .INSERT :: .token .INTO :: t.table) :=
    uses_cons.2 ⟨rfl, uses_cons.2 ⟨rfl, uses_table rfl t⟩⟩
  rw [insert, givenColumns]
  generalize .token .INSERT :: .token .INTO :: t.table = before at *
  cases t.insertedColumns e with
  | nil =>
    simp only [List.isEmpty_nil, if_true, List.append_assoc]
    rw [List.takeWhile_append_of_pos (ne_of_uses hvalues),
      List.dropWhile_append_of_pos (ne_of_uses hopen)]
    rfl
  | cons column columns =>
    have hnames : Uses (· != .VALUES) (parens (identList ((column :: columns).map (·.1.name)))) :=
      uses_parens rfl rfl (uses_identList rfl _)
    simp only [List.isEmpty_cons, if_false, Bool.false_eq_true, List.append_assoc,
      List.cons_append]
    rw [List.takeWhile_append_of_pos (ne_of_uses hvalues),
      List.takeWhile_append_of_pos (ne_of_uses hnames), List.takeWhile_cons_of_neg (by simp),
      List.append_nil, List.dropWhile_append_of_pos (ne_of_uses hopen), dropWhile_parens,
      names_parens, names_identList]

theorem isOmitted_iff :
    isOmitted f v = true ↔ f.generated = true ∧ (v = .null ∨ v.same f.kind.zero = true) := by
  rw [isOmitted, isUnset, Bool.and_eq_true_iff, Bool.or_eq_true_iff, Value.isNull_iff]

/-- The columns that an insertion leaves out are those of the fields that are omitted. -/
theorem not_mem_givenColumns_iff (hs : t.schema.columns.Nodup)
    (he : e.values.length = t.schema.fields.length) (hf : t.schema.fields[i]? = some f)
    (hv : e.values[i]? = some v) :
    f.name ∉ givenColumns (t.insert e) ↔ isOmitted f v = true := by
  have hnodup : ((t.schema.fields.zip e.values).map (·.1.name)).Nodup := by
    have hzip : ((t.schema.fields.zip e.values).map Prod.fst).map (·.name) = t.schema.columns := by
      rw [List.map_fst_zip he.ge]
      rfl
    rwa [← hzip, List.map_map] at hs
  have hmem : (f, v) ∈ t.schema.fields.zip e.values :=
    List.mem_of_getElem? (List.getElem?_zip_eq_some.2 ⟨hf, hv⟩)
  rw [givenColumns_insert, insertedColumns, List.mem_map]
  constructor
  · intro hnot
    by_contra homitted
    exact hnot ⟨(f, v), List.mem_filter.2 ⟨hmem, by simpa using homitted⟩, rfl⟩
  · rintro homitted ⟨p, hp, hname⟩
    obtain ⟨hp, hgiven⟩ := List.mem_filter.1 hp
    obtain rfl := List.inj_on_of_nodup_map hnodup hp hmem hname
    simp [homitted] at hgiven

/-- What an insertion leaves out, the table that is created for the same target can fill in exactly
where the schema says so. So the row can be stored unless a field is left out that is neither
nullable nor a primary field that the store numbers rows by. -/
theorem canFill_omitted_iff (hcheck : t.schema.check = .ok ())
    (he : e.values.length = t.schema.fields.length) :
    ∃ d, tableDef? t.createTable = some d ∧
      d.columns.map (·.name) = t.schema.columns ∧
      (∀ (i : Nat) f v c,
        t.schema.fields[i]? = some f → e.values[i]? = some v → d.columns[i]? = some c →
        (c.name ∉ givenColumns (t.insert e) ↔
          f.generated = true ∧ (v = .null ∨ v.same f.kind.zero = true)) ∧
        (c.name ∉ givenColumns (t.insert e) →
          d.canFill t.dialect c = t.schema.canFill t.dialect f)) ∧
      (d.Takes t.dialect (givenColumns (t.insert e)) ↔
        ∀ f ∈ t.schema.fields, f.name ∉ givenColumns (t.insert e) →
          t.schema.canFill t.dialect f = true) := by
  have hschema := Schema.check_eq_ok_iff.1 hcheck
  -- A field that is left out is generated, and for those the table and the schema agree.
  have hfill : ∀ (i : Nat) f, t.schema.fields[i]? = some f → f.name ∉ givenColumns (t.insert e) →
      t.tableDef.canFill t.dialect (t.columnDef f) = t.schema.canFill t.dialect f := by
    intro i f hf hnot
    obtain ⟨v, hv⟩ : ∃ v, e.values[i]? = some v := by
      have hi := (List.getElem?_eq_some_iff.1 hf).1
      exact ⟨_, List.getElem?_eq_getElem (he ▸ hi)⟩
    have homitted := (not_mem_givenColumns_iff hschema.nodup_columns he hf hv).1 hnot
    exact canFill_columnDef hschema.nodup_columns (List.mem_of_getElem? hf)
      (isOmitted_iff.1 homitted).1
  refine ⟨t.tableDef, tableDef?_createTable hschema.fields_ne, List.map_map, ?_, ?_⟩
  · intro i f v c hf hv hc
    obtain rfl : t.columnDef f = c := by
      rw [tableDef, List.getElem?_map, hf] at hc
      exact Option.some.inj hc
    exact ⟨(not_mem_givenColumns_iff hschema.nodup_columns he hf hv).trans isOmitted_iff,
      hfill i f hf⟩
  · rw [TableDef.Takes, tableDef, List.forall_mem_map]
    refine forall₂_congr fun f hf => forall_congr' fun hnot => ?_
    obtain ⟨i, hi⟩ := List.mem_iff_getElem?.1 hf
    rw [← hfill i f hi hnot]
    rfl

/-- Notes are numbered, and they need no text. -/
def notes : Target where
  resource :=
    { name := "notes"
      schema :=
        { table := "notes"
          fields := [⟨"id", .integer, false, true, true⟩, ⟨"text", .text, true, false, true⟩]
          relations := [] }
      actions := .all }
  space := none
  dialect := .postgresql

/-- The table of notes takes a row that gives no columns. -/
theorem canFill_omitted_notes :
    notes.schema.check = .ok () ∧
      (Entity.zeroed notes.schema).values.length = notes.schema.fields.length ∧
      ∃ d, tableDef? notes.createTable = some d ∧
        givenColumns (notes.insert (.zeroed notes.schema)) = [] ∧ d.Takes .postgresql [] := by
  have hcheck : notes.schema.check = .ok () := rfl
  have hlength : (Entity.zeroed notes.schema).values.length = notes.schema.fields.length := rfl
  have hgiven : givenColumns (notes.insert (.zeroed notes.schema)) = [] := by decide
  obtain ⟨d, hd, -, -, htakes⟩ := canFill_omitted_iff hcheck hlength
  rw [hgiven] at htakes
  exact ⟨hcheck, hlength, d, hd, hgiven, htakes.2 (by decide)⟩

/-- The entries of a log are numbered apart from their key. -/
def logs : Target where
  resource :=
    { name := "logs"
      schema :=
        { table := "logs"
          fields := [⟨"id", .integer, false, true, false⟩, ⟨"seq", .integer, false, false, true⟩]
          relations := [] }
      actions := .all }
  space := none
  dialect := .postgresql

/-- The table of a log needs a number that an insertion leaves out and that the store does not
assign. -/
theorem not_canFill_omitted_logs :
    logs.schema.check = .ok () ∧
      ∃ e, e.values.length = logs.schema.fields.length ∧
        ∃ d, tableDef? logs.createTable = some d ∧
          ∃ c ∈ d.columns, c.name ∉ givenColumns (logs.insert e) ∧
            d.canFill logs.dialect c = false := by
  refine ⟨rfl, .ofValues logs.schema [.integer 1, .integer 0], rfl, _, rfl,
    ⟨"seq", "BIGINT", [.token .NOT, .token .NULL]⟩, ?_, by decide, by decide⟩
  exact List.mem_cons_of_mem _ List.mem_cons_self

end Target

end ResourceEngine
