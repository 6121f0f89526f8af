import ResourceEngine.Proofs.Filter.Outline
import ResourceEngine.Proofs.Schema.Consistency
import ResourceEngine.Statement.Modification
import ResourceEngine.Statement.Selection

/-!
# The text of statements

Whoever writes a request chooses values, and the schema chooses names. Statements for a target that
differ in values have one outline, hence one text. Every name in them is one of the target's, quoted
so that the text falls back into the chunks it was written from.
-/

namespace ResourceEngine.Target

open Sql

variable {t : Target}

/-- The names that the target brings into its statements. -/
def names (t : Target) : List String := t.space.toList ++ t.schema.table :: t.schema.columns

/-- Which columns an insertion leaves to the store. -/
def omissions (t : Target) (e : Entity) : List Bool :=
  (t.schema.fields.zip e.values).map fun (f, v) => isOmitted f v

/-- The statement reads or writes rows of the target. The names are those that a caller adds to the
target's own. -/
inductive Compiled (t : Target) : List String → Sql → Prop where
  | select {projection : List Nat} {filter : Option Filter} {w : Window} {sql : Sql}
    (h : t.select projection filter w = .ok sql) : Compiled t [] sql
  | selectOne {projection : List Nat} {key : Value} {sql : Sql}
    (h : t.selectOne projection key = .ok sql) : Compiled t [] sql
  | selectIn (projection : List Nat) (column : String) (keys : List Value) :
    Compiled t [column] (t.selectIn projection column keys)
  | count {filter : Option Filter} {sql : Sql} (h : t.count filter = .ok sql) : Compiled t [] sql
  | insert (e : Entity) : Compiled t [] (t.insert e)
  | update {e : Entity} {sql : Sql} (h : t.update e = .ok sql) : Compiled t [] sql
  | delete {key : Value} {sql : Sql} (h : t.delete key = .ok sql) : Compiled t [] sql

/-- What an update assigns: the values of the fields outside the primary key, in order. -/
def assigned (t : Target) (e : Entity) : List (String × Value) :=
  (t.schema.fields.zip e.values).filterMap fun (f, v) =>
    if f.primary then none else some (f.name, v)

theorem whereKey_eq {pk : Field} {i : Nat} (hkey : t.resource.primaryKey = .ok (pk, i))
    (key : Value) :
    t.whereKey key = .ok [.token .WHERE, .ident pk.name, .token .EQ, .param key] := by
  rw [whereKey, hkey]
  rfl

/-- The update that assigns columns of the row with a key. -/
def updateOf (t : Target) (pk : Field) (key : Value) (pairs : List (String × Value)) : Sql :=
  .token .UPDATE :: t.table ++ .token .SET :: assignments pairs ++
    [.token .WHERE, .ident pk.name, .token .EQ, .param key] ++ t.returning

/-- An update assigns the values outside the key, or the key to itself if there are none: the list
of assignments may not be empty. -/
theorem update_eq {pk : Field} {i : Nat} (hkey : t.resource.primaryKey = .ok (pk, i)) (e : Entity) :
    t.update e =
      let key := (e.getAt? i).getD .null
      .ok (t.updateOf pk key
        (if (t.assigned e).isEmpty then [(pk.name, key)] else t.assigned e)) := by
  unfold update
  rw [hkey]
  simp only [whereKey_eq hkey]
  rfl

/-! ### Names -/

theorem columns_subset_names : t.schema.columns ⊆ t.names := fun name hname => by
  simp [names, hname]

theorem mem_names_of_mem_fields {f : Field} (hf : f ∈ t.schema.fields) : f.name ∈ t.names :=
  columns_subset_names (List.mem_map_of_mem hf)

theorem isFrom_table : IsFrom t.names t.table := by
  unfold table Sql.table
  split
  · next space hspace =>
    split_ifs <;> simp [names, hspace]
  · simp [names]

theorem isFrom_columns (projection : List Nat) : IsFrom t.names (t.columns projection) := by
  refine isFrom_identList fun name hname => ?_
  obtain ⟨i, -, hi⟩ := List.mem_filterMap.1 hname
  obtain ⟨f, hf, rfl⟩ := Option.map_eq_some_iff.1 hi
  exact mem_names_of_mem_fields (List.mem_of_getElem? hf)

theorem isFrom_returning : IsFrom t.names t.returning :=
  isFrom_cons.2 ⟨trivial, isFrom_identList columns_subset_names⟩

theorem isFrom_whereKey {key : Value} {sql : Sql} (h : t.whereKey key = .ok sql) :
    IsFrom t.names sql := by
  obtain ⟨pk, hpk, h⟩ := Filter.exists_of_bind h
  cases h
  have hfield := (Schema.getElem?_of_primaryKey hpk).1
  simpa using mem_names_of_mem_fields (List.mem_of_getElem? hfield)

theorem isFrom_selectFrom {columns : Sql} (h : IsFrom t.names columns) :
    IsFrom t.names (t.selectFrom columns) := by
  simp [selectFrom, h, isFrom_table]

/-- A condition brings in names of columns only. -/
theorem isFrom_whereClause {filter : Option Filter} {sql : Sql}
    (h : t.whereClause filter = .ok sql) : IsFrom t.names sql := by
  cases filter with
  | none =>
    cases h
    exact isFrom_nil
  | some f =>
    obtain ⟨part, hpart, h⟩ := Filter.exists_of_bind h
    cases part with
    | none =>
      cases h
      exact isFrom_nil
    | some condition =>
      cases h
      exact isFrom_cons.2 ⟨trivial, (Filter.conditional_lower hpart).isFrom.mono columns_subset_names⟩

theorem isFrom_sortTerm {s : SortTerm} {sql : Sql} (h : t.sortTerm s = .ok sql) :
    IsFrom t.names sql := by
  unfold sortTerm at h
  cases hfield : t.schema.field? s.attr with
  | none =>
    rw [hfield] at h
    cases h
  | some f =>
    rw [hfield] at h
    cases h
    have hname := mem_names_of_mem_fields (List.mem_of_find?_eq_some hfield)
    rw [Filter.name_of_field? hfield] at hname
    simpa using hname

theorem forall_of_mapM {α β ε : Type} {g : α → Except ε β} {p : β → Prop} {as : List α}
    {bs : List β} (hg : ∀ a b, g a = .ok b → p b) (h : as.mapM g = .ok bs) : ∀ b ∈ bs, p b := by
  induction as generalizing bs with
  | nil =>
    cases h
    exact List.forall_mem_nil _
  | cons a as ih =>
    rw [List.mapM_cons] at h
    obtain ⟨b, hb, h⟩ := Filter.exists_of_bind h
    obtain ⟨cs, hcs, h⟩ := Filter.exists_of_bind h
    cases h
    exact List.forall_mem_cons.2 ⟨hg a b hb, ih hcs⟩

theorem isFrom_orderBy {sort : List SortTerm} {sql : Sql} (h : t.orderBy sort = .ok sql) :
    IsFrom t.names sql := by
  cases sort with
  | nil =>
    cases h
    exact isFrom_nil
  | cons s sort =>
    obtain ⟨terms, hterms, h⟩ := Filter.exists_of_bind h
    cases h
    have hterm : ∀ term ∈ terms, IsFrom t.names term :=
      forall_of_mapM (fun _ _ => isFrom_sortTerm) hterms
    simpa using isFrom_join hterm

theorem isFrom_paginate (d : Dialect) (offset limit : UInt64) :
    IsFrom t.names (paginate d offset limit) := by
  unfold paginate literal
  split_ifs <;> simp

/-- Inserted columns are columns of the table, and so are those returned. -/
theorem isFrom_insert (e : Entity) : IsFrom t.names (t.insert e) := by
  have hcolumns : (t.insertedColumns e).map (·.1.name) ⊆ t.names := by
    intro name hname
    obtain ⟨⟨f, v⟩, hmem, rfl⟩ := List.mem_map.1 hname
    exact mem_names_of_mem_fields (List.of_mem_zip (List.mem_of_mem_filter hmem)).1
  cases hempty : (t.insertedColumns e).isEmpty with
  | true => simp [insert, hempty, isFrom_table, isFrom_returning]
  | false =>
    simp [insert, hempty, isFrom_table, isFrom_returning, isFrom_identList hcolumns,
      isFrom_paramList]

theorem mem_names_of_mem_assigned {e : Entity} {p : String × Value} (hp : p ∈ t.assigned e) :
    p.1 ∈ t.names := by
  obtain ⟨⟨f, v⟩, hmem, heq⟩ := List.mem_filterMap.1 hp
  simp only at heq
  split_ifs at heq
  cases heq
  exact mem_names_of_mem_fields (List.of_mem_zip hmem).1

theorem isFrom_update {e : Entity} {sql : Sql} (h : t.update e = .ok sql) :
    IsFrom t.names sql := by
  obtain ⟨⟨pk, i⟩, hkey, -⟩ := Filter.exists_of_bind h
  have hname : pk.name ∈ t.names :=
    mem_names_of_mem_fields (List.mem_of_getElem? (Schema.getElem?_of_primaryKey hkey).1)
  rw [update_eq hkey] at h
  cases h
  have hpairs : ∀ p ∈ (if (t.assigned e).isEmpty then [(pk.name, (e.getAt? i).getD .null)]
      else t.assigned e), p.1 ∈ t.names := by
    split_ifs
    · exact List.forall_mem_singleton.2 hname
    · exact fun p hp => mem_names_of_mem_assigned hp
  simpa [updateOf, isFrom_table, isFrom_returning, hname] using isFrom_assignments hpairs

/-- Nothing in a statement for a target is raw text, and no name in it but the target's and the
caller's. -/
theorem isFrom_of_compiled {others : List String} {sql : Sql} (h : t.Compiled others sql) :
    IsFrom (t.names ++ others) sql := by
  cases h with
  | select h =>
    obtain ⟨condition, hcondition, h⟩ := Filter.exists_of_bind h
    obtain ⟨order, horder, h⟩ := Filter.exists_of_bind h
    cases h
    simp [isFrom_selectFrom, isFrom_columns, isFrom_whereClause hcondition, isFrom_orderBy horder,
      isFrom_paginate]
  | selectOne h =>
    obtain ⟨condition, hcondition, h⟩ := Filter.exists_of_bind h
    cases h
    simp [isFrom_selectFrom, isFrom_columns, isFrom_whereKey hcondition]
  -- The column that is joined on is the caller's: it is not among the names of the target.
  | selectIn projection column keys =>
    have hfrom := isFrom_selectFrom (isFrom_columns (t := t) projection)
    have hfrom' := hfrom.mono (List.subset_append_left t.names [column])
    simp [selectIn, hfrom', isFrom_paramList]
  | count h =>
    obtain ⟨condition, hcondition, h⟩ := Filter.exists_of_bind h
    cases h
    have hcount : isWordText "COUNT" = true := rfl
    have hstar : IsFrom t.names (call "COUNT" [.token .STAR]) := by simp [isFrom_call hcount]
    simp [isFrom_selectFrom hstar, isFrom_whereClause hcondition]
  | insert e => simpa using isFrom_insert e
  | update h => simpa using isFrom_update h
  | delete h =>
    obtain ⟨condition, hcondition, h⟩ := Filter.exists_of_bind h
    cases h
    simp [isFrom_table, isFrom_whereKey hcondition, isFrom_returning]

/-- Rendered in either dialect, a statement for a target falls back into its chunks: there is one
symbol for each, in order, and a symbol for a name is that name. The placeholders are numbered from
one, and the values beside the text are those of the chunks that show as placeholders. -/
theorem exists_scan_of_compiled {others : List String} {sql : Sql} (h : t.Compiled others sql)
    (d : Dialect) :
    ∃ symbols, scan (build d sql).text.toList = some symbols ∧
      List.Forall₂ Symbol.Shows symbols sql ∧
      symbols.filterMap Symbol.placeholder? =
        (List.range' 1 (build d sql).params.length).map d.number? ∧
      (build d sql).params = sql.filterMap Chunk.value? := by
  have hplain : ∀ c ∈ sql, c.isPlain = true := fun c hc => (isFrom_of_compiled h c hc).isPlain
  exact ⟨symbols d 0 sql, scan_render d hplain, forall₂_shows_symbols d 0 hplain,
    filterMap_placeholder?_symbols d 0 sql, rfl⟩

/-- A table whose names are full of quotes and of what looks like statements. -/
def quoted : Target where
  resource :=
    { name := "notes"
      schema :=
        { table := "notes\"; DROP TABLE \"users"
          fields :=
            [⟨"id\"\"", .integer, false, true, true⟩, ⟨"a, b = $1", .text, true, false, false⟩]
          relations := [] }
      actions := ActionSet.all }
  space := some "\""
  dialect := .postgresql

theorem exists_scan_quoted :
    ∃ sql, quoted.selectOne [0, 1] (.integer 7) = .ok sql ∧
      ∃ symbols, scan (build .postgresql sql).text.toList = some symbols ∧
        List.Forall₂ Symbol.Shows symbols sql ∧
        symbols.filterMap Symbol.placeholder? =
          (List.range' 1 (build .postgresql sql).params.length).map Dialect.postgresql.number? ∧
        (build .postgresql sql).params = sql.filterMap Chunk.value? := by
  have hsql : quoted.selectOne [0, 1] (.integer 7) = .ok _ := rfl
  exact ⟨_, hsql, exists_scan_of_compiled (.selectOne hsql) .postgresql⟩

/-! ### Values -/

/-- The text of a statement and the number of values it binds, or the problem it was refused for. -/
def written (d : Dialect) (r : Except Problem Sql) : Except Problem (String × Nat) :=
  r.map fun sql => ((build d sql).text, (build d sql).params.length)

/-- What is written of statements with one outline has one text. -/
theorem written_eq_of_outline {r r' : Except Problem Sql} (h : r.map outline = r'.map outline)
    (d : Dialect) : written d r = written d r' := by
  cases r with
  | error p =>
    cases r' with
    | error p' =>
      cases h
      rfl
    | ok sql' => cases h
  | ok sql =>
    cases r' with
    | error p' => cases h
    | ok sql' =>
      obtain ⟨htext, hparams⟩ := build_eq_of_outline (Except.ok.inj h) d
      simp only [written, Except.map, htext, hparams]

/-- Two results that differ in values. -/
theorem map_outline_congr {sql sql' : Sql} (h : outline sql = outline sql') :
    (pure sql : Except Problem Sql).map outline = (pure sql' : Except Problem Sql).map outline :=
  congrArg Except.ok h

/-- Two runs that differ in values up to some point and from there on differ in values. -/
theorem outline_bind {r r' : Except Problem Sql} {k k' : Sql → Except Problem Sql}
    (h : r.map outline = r'.map outline)
    (hk : ∀ sql sql', outline sql = outline sql' → (k sql).map outline = (k' sql').map outline) :
    (r >>= k).map outline = (r' >>= k').map outline := by
  cases r with
  | error p =>
    cases r' with
    | error p' =>
      cases h
      rfl
    | ok sql' => cases h
  | ok sql =>
    cases r' with
    | error p' => cases h
    | ok sql' => exact hk sql sql' (Except.ok.inj h)

theorem outline_whereKey (key key' : Value) :
    (t.whereKey key).map outline = (t.whereKey key').map outline := by
  cases hkey : t.resource.primaryKey with
  | error p =>
    rw [whereKey, whereKey, hkey]
    rfl
  | ok pk =>
    rw [whereKey_eq hkey, whereKey_eq hkey]
    rfl

/-- Filters of one shape give conditions of one outline. -/
theorem outline_whereClause {f g : Filter} {part part' : Option Sql} (h : f.sameShape g = true)
    (hf : f.lower t.schema t.name t.dialect = .ok part)
    (hg : g.lower t.schema t.name t.dialect = .ok part') :
    (t.whereClause (some f)).map outline = (t.whereClause (some g)).map outline := by
  have houtline := Filter.outline_lower h hf hg
  simp only [whereClause, hf, hg]
  cases part with
  | none =>
    cases part' with
    | none => rfl
    | some condition' => cases houtline
  | some condition =>
    cases part' with
    | none => cases houtline
    | some condition' =>
      have hcondition : outline condition = outline condition' := Option.some.inj houtline
      exact congrArg (fun sql => Except.ok (Chunk.token .WHERE :: sql)) hcondition

theorem outline_select {f g : Filter} (projection : List Nat) (w : Window)
    (h : (t.whereClause (some f)).map outline = (t.whereClause (some g)).map outline) :
    (t.select projection (some f) w).map outline =
      (t.select projection (some g) w).map outline := by
  refine outline_bind h fun condition condition' hcondition => ?_
  refine outline_bind rfl fun order order' horder => map_outline_congr ?_
  simp [hcondition, horder]

theorem outline_count {f g : Filter}
    (h : (t.whereClause (some f)).map outline = (t.whereClause (some g)).map outline) :
    (t.count (some f)).map outline = (t.count (some g)).map outline :=
  outline_bind h fun condition condition' hcondition => map_outline_congr (by simp [hcondition])

theorem outline_selectOne (projection : List Nat) (key key' : Value) :
    (t.selectOne projection key).map outline = (t.selectOne projection key').map outline :=
  outline_bind (outline_whereKey key key') fun condition condition' hcondition =>
    map_outline_congr (by simp [hcondition])

theorem outline_delete (key key' : Value) :
    (t.delete key).map outline = (t.delete key').map outline :=
  outline_bind (outline_whereKey key key') fun condition condition' hcondition =>
    map_outline_congr (by simp [hcondition])

theorem outline_selectIn (projection : List Nat) (column : String) {keys keys' : List Value}
    (h : keys.length = keys'.length) :
    outline (t.selectIn projection column keys) = outline (t.selectIn projection column keys') := by
  simp [selectIn, outline_paramList, h]

theorem map_assigned {e e' : Entity} (h : e.values.length = e'.values.length) :
    (t.assigned e).map (fun p => (p.1, Value.null)) =
      (t.assigned e').map fun p => (p.1, Value.null) := by
  unfold assigned
  generalize e.values = vs at h ⊢
  generalize e'.values = vs' at h ⊢
  generalize t.schema.fields = fields
  induction fields generalizing vs vs' with
  | nil => rfl
  | cons f fields ih =>
    cases vs with
    | nil => rw [List.length_eq_zero_iff.1 h.symm]
    | cons v vs =>
      cases vs' with
      | nil => cases h
      | cons v' vs' =>
        have htail := ih vs vs' (Nat.succ.inj h)
        cases hprimary : f.primary <;> simp [hprimary, htail]

/-- Which columns an update assigns does not depend on the values. -/
theorem outline_update {e e' : Entity} (h : e.values.length = e'.values.length) :
    (t.update e).map outline = (t.update e').map outline := by
  cases hkey : t.resource.primaryKey with
  | error p =>
    rw [update, update, hkey]
    rfl
  | ok key =>
    have hpairs := map_assigned (t := t) h
    have hempty : t.assigned e = [] ↔ t.assigned e' = [] := by
      rw [← List.map_eq_nil_iff, hpairs, List.map_eq_nil_iff]
    have hassigned :
        outline (assignments (t.assigned e)) = outline (assignments (t.assigned e')) := by
      rw [outline_assignments, outline_assignments, hpairs]
    rw [update_eq hkey, update_eq hkey]
    refine congrArg Except.ok ?_
    by_cases hnone : t.assigned e = []
    · simp [updateOf, hnone, hempty.1 hnone, outline_assignments]
    · simp [updateOf, hnone, mt hempty.2 hnone, hassigned]

/-- Two entities that leave out the same columns insert the same ones. -/
theorem map_insertedColumns {e e' : Entity} (h : t.omissions e = t.omissions e') :
    (t.insertedColumns e).map (·.1) = (t.insertedColumns e').map (·.1) := by
  unfold insertedColumns
  unfold omissions at h
  generalize e.values = vs at h ⊢
  generalize e'.values = vs' at h ⊢
  generalize t.schema.fields = fields at h ⊢
  induction fields generalizing vs vs' with
  | nil => rfl
  | cons f fields ih =>
    cases vs with
    | nil =>
      cases vs' with
      | nil => rfl
      | cons v' vs' => cases h
    | cons v vs =>
      cases vs' with
      | nil => cases h
      | cons v' vs' =>
        simp only [List.zip_cons_cons, List.map_cons, List.cons.injEq] at h
        have htail := ih vs vs' h.2
        cases homitted : isOmitted f v' <;> simp [h.1, homitted, htail]

/-- The outline of an insertion depends on which columns are left out, and on nothing else in the
entity. -/
theorem outline_insert {e e' : Entity} (h : t.omissions e = t.omissions e') :
    outline (t.insert e) = outline (t.insert e') := by
  have hfields := map_insertedColumns h
  have hlength : (t.insertedColumns e).length = (t.insertedColumns e').length := by
    simpa using congrArg List.length hfields
  have hnames : (t.insertedColumns e).map (·.1.name) = (t.insertedColumns e').map (·.1.name) := by
    have hmap := congrArg (List.map Field.name) hfields
    rwa [List.map_map, List.map_map] at hmap
  have hempty : t.insertedColumns e = [] ↔ t.insertedColumns e' = [] := by
    rw [← List.length_eq_zero_iff, hlength, List.length_eq_zero_iff]
  by_cases hnone : t.insertedColumns e = []
  · simp [insert, hnone, hempty.1 hnone]
  · simp [insert, hnone, mt hempty.2 hnone, hnames, outline_paramList, hlength]

/-- The texts of the statements for a target, and the numbers of values they bind, are those of the
statements with other values in their place. -/
structure ValueFree (t : Target) (d : Dialect) : Prop where
  /-- A window of the rows that a filter matches, for filters of the same shape. -/
  select {f g : Filter} {part part' : Option Sql} (h : f.sameShape g = true)
    (hf : f.lower t.schema t.name t.dialect = .ok part)
    (hg : g.lower t.schema t.name t.dialect = .ok part') (projection : List Nat) (w : Window) :
    written d (t.select projection (some f) w) = written d (t.select projection (some g) w)
  /-- The count of these rows. -/
  count {f g : Filter} {part part' : Option Sql} (h : f.sameShape g = true)
    (hf : f.lower t.schema t.name t.dialect = .ok part)
    (hg : g.lower t.schema t.name t.dialect = .ok part') :
    written d (t.count (some f)) = written d (t.count (some g))
  /-- The row with any key. -/
  selectOne (projection : List Nat) (key key' : Value) :
    written d (t.selectOne projection key) = written d (t.selectOne projection key')
  /-- The rows with as many keys. -/
  selectIn (projection : List Nat) (column : String) {keys keys' : List Value}
    (h : keys.length = keys'.length) :
    written d (.ok (t.selectIn projection column keys)) =
      written d (.ok (t.selectIn projection column keys'))
  /-- Entities that leave the same columns to the store. -/
  insert {e e' : Entity} (h : t.omissions e = t.omissions e') :
    written d (.ok (t.insert e)) = written d (.ok (t.insert e'))
  update {e e' : Entity} (h : e.values.length = e'.values.length) :
    written d (t.update e) = written d (t.update e')
  delete (key key' : Value) : written d (t.delete key) = written d (t.delete key')

/-- What a request chooses influences the text of no statement, and the names in the text are the
target's own, but for the column whose keys are looked up. -/
theorem valueFree_and_isFrom (t : Target) (d : Dialect) :
    t.ValueFree d ∧ ∀ others sql, t.Compiled others sql → IsFrom (t.names ++ others) sql := by
  refine ⟨⟨?_, ?_, ?_, ?_, ?_, ?_, ?_⟩, fun others sql => isFrom_of_compiled⟩
  · intro f g part part' h hf hg projection w
    exact written_eq_of_outline (outline_select projection w (outline_whereClause h hf hg)) d
  · intro f g part part' h hf hg
    exact written_eq_of_outline (outline_count (outline_whereClause h hf hg)) d
  · intro projection key key'
    exact written_eq_of_outline (outline_selectOne projection key key') d
  · intro projection column keys keys' h
    have houtline := outline_selectIn (t := t) projection column h
    refine written_eq_of_outline ?_ d
    exact congrArg Except.ok houtline
  · intro e e' h
    have houtline := outline_insert h
    refine written_eq_of_outline ?_ d
    exact congrArg Except.ok houtline
  · intro e e' h
    exact written_eq_of_outline (outline_update h) d
  · intro key key'
    exact written_eq_of_outline (outline_delete key key') d

end ResourceEngine.Target
