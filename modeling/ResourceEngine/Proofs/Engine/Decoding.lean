import Mathlib.Data.List.Nodup
import ResourceEngine.Engine.Execution

/-!
# Decoding rows

What the entity of a row holds: at a position that was read, the column converted to the kind of the
field, and zero elsewhere.
-/

namespace ResourceEngine

/-- The value at a position in a row that was read with a projection. -/
def Schema.readAt? (s : Schema) (projection : List Nat) (row : Row) (i : Nat) : Option Value := do
  let v ← (projection.zip row).lookup i
  let f ← s.fields[i]?
  (f.kind.coerce v).toOption

namespace Entity

section Columns

variable {e e' : Entity} {cells : List (Nat × Value)} {i : Nat}

/-- To assign columns changes neither the schema nor the relations, and keeps the number of values.
-/
theorem frame_assignColumns (h : e.assignColumns cells = .ok e') :
    e'.schema = e.schema ∧ e'.relations = e.relations ∧ e'.values.length = e.values.length := by
  fun_induction assignColumns e cells with
  | case1 e =>
    cases h
    exact ⟨rfl, rfl, rfl⟩
  | case2 e i v rest hfield ih => exact ih h
  | case3 e i v rest f hfield w hw ih =>
    obtain ⟨hschema, hrelations, hlength⟩ := ih h
    exact ⟨hschema, hrelations, hlength.trans (length_values_setAt e i w)⟩
  | case4 => cases h

theorem getAt?_zeroed {s : Schema} {f : Field} (hf : s.fields[i]? = some f) :
    (zeroed s).getAt? i = some f.zero := by
  simp [zeroed, getAt?, values, hf]

/-- To set one value leaves the others. -/
theorem getAt?_setAt_of_ne {j : Nat} (hij : j ≠ i) (v : Value) :
    (e.setAt j v).getAt? i = e.getAt? i :=
  List.getElem?_set_ne hij

theorem getAt?_setAt (hi : i < e.values.length) (v : Value) : (e.setAt i v).getAt? i = some v :=
  List.getElem?_set_self hi

/-- A column that is not among the cells keeps its value. -/
theorem getAt?_assignColumns_of_not_mem (h : e.assignColumns cells = .ok e')
    (hi : i ∉ cells.map (·.1)) : e'.getAt? i = e.getAt? i := by
  fun_induction assignColumns e cells with
  | case1 e =>
    cases h
    rfl
  | case2 e j v rest hfield ih => exact ih h fun hmem => hi (List.mem_cons_of_mem _ hmem)
  | case3 e j v rest f hfield w hw ih =>
    have hij : j ≠ i := by
      rintro rfl
      exact hi List.mem_cons_self
    rw [ih h fun hmem => hi (List.mem_cons_of_mem _ hmem), getAt?_setAt_of_ne hij]
  | case4 => cases h

/-- A column that is assigned once holds the value of the row, converted. -/
theorem getAt?_assignColumns {f : Field} {v : Value} (h : e.assignColumns cells = .ok e')
    (hcells : (cells.map (·.1)).Nodup) (hi : i < e.values.length)
    (hf : e.schema.fields[i]? = some f) (hmem : (i, v) ∈ cells) :
    ∃ w, f.kind.coerce v = .ok w ∧ e'.getAt? i = some w := by
  fun_induction assignColumns e cells with
  | case1 e => cases hmem
  | case2 e j u rest hfield ih =>
    rw [List.map_cons, List.nodup_cons] at hcells
    rcases List.mem_cons.1 hmem with heq | hmem
    · cases heq
      rw [hf] at hfield
      cases hfield
    · exact ih h hcells.2 hi hf hmem
  | case3 e j u rest f' hfield w hw ih =>
    rw [List.map_cons, List.nodup_cons] at hcells
    rcases List.mem_cons.1 hmem with heq | hmem
    · cases heq
      obtain rfl := Option.some.inj (hf.symm.trans hfield)
      have hvalue := getAt?_setAt (e := e) hi w
      rw [← getAt?_assignColumns_of_not_mem h hcells.1] at hvalue
      exact ⟨w, hw, hvalue⟩
    · exact ih h hcells.2 (by rwa [length_values_setAt]) hf hmem
  | case4 => cases h

end Columns

/-- What is among the keys of a list is found in it. -/
theorem exists_lookup_of_mem {α β : Type} [BEq α] [LawfulBEq α] {a : α} {entries : List (α × β)}
    (h : a ∈ entries.map (·.1)) : ∃ b, entries.lookup a = some b := by
  cases hb : entries.lookup a with
  | some b => exact ⟨b, rfl⟩
  | none =>
    obtain ⟨entry, hentry, rfl⟩ := List.mem_map.1 h
    simpa using List.lookup_eq_none_iff.1 hb entry hentry

section Rows

variable {s : Schema} {projection : List Nat} {row : Row} {e : Entity} {i : Nat}

/-- A row that can be read has a cell for each column of the projection. -/
theorem length_of_ofRow (h : ofRow s projection row = .ok e) : row.length = projection.length := by
  unfold ofRow at h
  split_ifs at h with hlength
  exact not_ne_iff.1 hlength

/-- A row is read by assigning its cells, column by column. -/
theorem assignColumns_of_ofRow (h : ofRow s projection row = .ok e) :
    (zeroed s).assignColumns (projection.zip row) = .ok e := by
  unfold ofRow at h
  split_ifs at h
  exact h

/-- A row becomes an entity of its schema, with a value for each field and no relations. -/
theorem frame_ofRow (h : ofRow s projection row = .ok e) :
    e.schema = s ∧ e.relations = [] ∧ e.values.length = s.fields.length := by
  obtain ⟨hschema, hrelations, hlength⟩ := frame_assignColumns (assignColumns_of_ofRow h)
  exact ⟨hschema, hrelations, hlength.trans (length_values_zeroed s)⟩

/-- At a position that was read, the entity holds the value of the row. -/
theorem exists_readAt?_of_ofRow (h : ofRow s projection row = .ok e) (hprojection : projection.Nodup)
    (hi : i ∈ projection) (hbound : i < s.fields.length) :
    ∃ v, s.readAt? projection row i = some v ∧ e.getAt? i = some v := by
  have hlength := length_of_ofRow h
  have hfst : (projection.zip row).map (·.1) = projection := List.map_fst_zip (by omega)
  obtain ⟨v, hv⟩ := exists_lookup_of_mem (hfst ▸ hi)
  obtain ⟨before, after, hsplit, -⟩ := List.lookup_eq_some_iff.1 hv
  have hmem : (i, v) ∈ projection.zip row := by
    rw [hsplit]
    exact List.mem_append_right before List.mem_cons_self
  have hfield : (zeroed s).schema.fields[i]? = some s.fields[i] := List.getElem?_eq_getElem hbound
  obtain ⟨w, hw, hvalue⟩ := getAt?_assignColumns (assignColumns_of_ofRow h) (by rwa [hfst])
    (by rwa [length_values_zeroed]) hfield hmem
  refine ⟨w, ?_, hvalue⟩
  simp [Schema.readAt?, hv, hbound, hw, Except.toOption]

/-- A row of all columns is converted column by column. -/
theorem exists_coerce_of_ofRow {f : Field} (h : ofRow s s.indices row = .ok e)
    (hf : s.fields[i]? = some f) :
    ∃ u w, row[i]? = some u ∧ f.kind.coerce u = .ok w ∧ e.getAt? i = some w := by
  have hi := (List.getElem?_eq_some_iff.1 hf).1
  have hlength : row.length = s.fields.length := by
    rw [length_of_ofRow h, Schema.indices, List.length_range]
  have hbound : i < row.length := hlength ▸ hi
  have hrow : row[i]? = some row[i] := List.getElem?_eq_getElem hbound
  have hindex : s.indices[i]? = some i := List.getElem?_range hi
  have hmem : (i, row[i]) ∈ s.indices.zip row :=
    List.mem_of_getElem? (List.getElem?_zip_eq_some.2 ⟨hindex, hrow⟩)
  have hnodup : ((s.indices.zip row).map (·.1)).Nodup := by
    rw [List.map_fst_zip (Nat.le_of_eq (length_of_ofRow h).symm)]
    exact List.nodup_range
  obtain ⟨w, hw, hvalue⟩ := getAt?_assignColumns (assignColumns_of_ofRow h) hnodup
    (by rwa [length_values_zeroed]) hf hmem
  exact ⟨_, w, hrow, hw, hvalue⟩

end Rows

end Entity

end ResourceEngine
