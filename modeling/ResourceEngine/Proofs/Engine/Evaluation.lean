import Mathlib.Data.List.Forall2
import ResourceEngine.Engine.Plan
import ResourceEngine.Proofs.Engine.Decoding
import ResourceEngine.Proofs.Statement.Projection
import ResourceEngine.Proofs.Statement.StoredRow
import ResourceEngine.Proofs.Store.Oracle

/-!
# Stores that evaluate

A store picks rows for a statement and evaluates the statement's list of columns by name against
them. An entity shows what such a row holds, and an output that a request returns shows the rows
that were picked for the statements of the request and of its relations.
-/

namespace ResourceEngine

/-! ### Entities of stored rows -/

/-- The entity holds what the row does in the fields that are selected, and zero in the others. -/
structure Schema.Shows (s : Schema) (selected : Field → Prop) (stored : StoredRow) (e : Entity) :
    Prop where
  schema : e.schema = s
  length : e.values.length = s.fields.length
  stored : ∀ i f, s.fields[i]? = some f → selected f → e.getAt? i = some (stored f.name)
  zero : ∀ i f, s.fields[i]? = some f → ¬selected f → e.getAt? i = some f.zero

/-- Relations do not matter to what an entity shows. -/
theorem Schema.Shows.congr {s : Schema} {selected : Field → Prop} {stored : StoredRow}
    {e e' : Entity} (h : s.Shows selected stored e) (hschema : e'.schema = e.schema)
    (hvalues : e'.values = e.values) : s.Shows selected stored e' := by
  refine ⟨hschema.trans h.schema, ?_, ?_, ?_⟩
  · rw [hvalues]
    exact h.length
  · intro i f hf hs
    rw [Entity.getAt?, hvalues]
    exact h.stored i f hf hs
  · intro i f hf hs
    rw [Entity.getAt?, hvalues]
    exact h.zero i f hf hs

section Rows

variable {s : Schema} {projection : List Nat} {stored : StoredRow} {e : Entity}

/-- The position of a field goes with the value of its column. -/
theorem mem_zip_read (hlt : ∀ i ∈ projection, i < s.fields.length) {i : Nat} {f : Field}
    (hi : i ∈ projection) (hf : s.fields[i]? = some f) :
    (i, (stored f.name).cell.value) ∈ projection.zip (stored.read (s.columnsAt projection)) := by
  induction projection with
  | nil => cases hi
  | cons j projection ih =>
    rw [List.forall_mem_cons] at hlt
    have hj : s.fields[j]? = some s.fields[j] := List.getElem?_eq_getElem hlt.1
    have hhead : s.columnsAt (j :: projection) = s.fields[j].name :: s.columnsAt projection := by
      rw [Schema.columnsAt, List.filterMap_cons, hj]
      rfl
    rw [hhead, StoredRow.read, List.map_cons, List.zip_cons_cons, List.mem_cons]
    rcases List.mem_cons.1 hi with rfl | hi
    · obtain rfl := Option.some.inj (hj.symm.trans hf)
      exact .inl rfl
    · exact .inr (ih hlt.2 hi)

/-- The entity of a stored row that was read with a projection. -/
theorem shows_of_ofRow (hprojection : s.IsProjection projection) {selected : Field → Prop}
    (hselected : ∀ i f, s.fields[i]? = some f → (i ∈ projection ↔ selected f))
    (hkeeps : s.Keeps stored)
    (h : Entity.ofRow s projection (stored.read (s.columnsAt projection)) = .ok e) :
    s.Shows selected stored e ∧ e.relations = [] := by
  obtain ⟨hschema, hrelations, hlength⟩ := Entity.frame_ofRow h
  have hassign := Entity.assignColumns_of_ofRow h
  have hwidth := Entity.length_of_ofRow h
  have hfst : (projection.zip (stored.read (s.columnsAt projection))).map (·.1) = projection :=
    List.map_fst_zip (Nat.le_of_eq hwidth.symm)
  refine ⟨⟨hschema, hlength, fun i f hf hs => ?_, fun i f hf hs => ?_⟩, hrelations⟩
  · have hmem : (i, (stored f.name).cell.value) ∈
        projection.zip (stored.read (s.columnsAt projection)) :=
      mem_zip_read hprojection.lt ((hselected i f hf).2 hs) hf
    have hi : i < (Entity.zeroed s).values.length := by
      rw [Entity.length_values_zeroed]
      exact (List.getElem?_eq_some_iff.1 hf).1
    obtain ⟨w, hw, hvalue⟩ :=
      Entity.getAt?_assignColumns hassign (by rw [hfst]; exact hprojection.nodup) hi hf hmem
    rw [hkeeps.coerce_cell (List.mem_of_getElem? hf)] at hw
    rw [hvalue, Except.ok.inj hw]
  · have hi : i ∉ (projection.zip (stored.read (s.columnsAt projection))).map (·.1) := by
      rw [hfst]
      exact fun hmem => hs ((hselected i f hf).1 hmem)
    rw [Entity.getAt?_assignColumns_of_not_mem hassign hi]
    exact Entity.getAt?_zeroed hf

theorem mem_indices_iff {i : Nat} {f : Field} (hf : s.fields[i]? = some f) :
    i ∈ s.indices ↔ True := by
  simpa [Schema.indices] using (List.getElem?_eq_some_iff.1 hf).1

/-- The entities of stored rows, in the order of the rows. -/
theorem forall₂_shows (hprojection : s.IsProjection projection) {selected : Field → Prop}
    (hselected : ∀ i f, s.fields[i]? = some f → (i ∈ projection ↔ selected f))
    {rows : List StoredRow} (hkeeps : ∀ stored ∈ rows, s.Keeps stored) {es : List Entity}
    (h : (rows.map (·.read (s.columnsAt projection))).mapM (Entity.ofRow s projection) = .ok es) :
    List.Forall₂ (fun stored e => s.Shows selected stored e ∧ e.relations = []) rows es := by
  induction rows generalizing es with
  | nil =>
    cases h
    exact .nil
  | cons stored rows ih =>
    rw [List.forall_mem_cons] at hkeeps
    rw [List.map_cons, List.mapM_cons] at h
    obtain ⟨e, he, h⟩ := Filter.exists_of_bind h
    obtain ⟨rest, hrest, h⟩ := Filter.exists_of_bind h
    cases h
    exact .cons (shows_of_ofRow hprojection hselected hkeeps.1 he) (ih hkeeps.2 hrest)

/-- A member of the second list stands beside one of the first. -/
theorem exists_mem_of_forall₂ {α β : Type} {R : α → β → Prop} {xs : List α} {ys : List β}
    (h : List.Forall₂ R xs ys) {y : β} (hy : y ∈ ys) : ∃ x ∈ xs, R x y := by
  induction h with
  | nil => cases hy
  | cons hhead htail ih =>
    rcases List.mem_cons.1 hy with rfl | hy
    · exact ⟨_, List.mem_cons_self, hhead⟩
    · obtain ⟨x, hx, hxy⟩ := ih hy
      exact ⟨x, List.mem_cons_of_mem _ hx, hxy⟩

end Rows

/-! ### Stores of rows -/

/-- The rows that a store picks for a statement. -/
abbrev Picks := History → Connection → Sql → List StoredRow

/-- Between the histories the statement has been asked, and these rows picked for it. -/
def Picks.Asked (picks : Picks) (h h' : History) (sql : Sql) (rows : List StoredRow) : Prop :=
  ∃ h₀ k answer, h <+: h₀ ∧ h₀ ++ [.query k sql answer] <+: h' ∧ rows = picks h₀ k sql

/-- What has been asked between two histories has been asked between wider ones. -/
theorem Picks.Asked.mono {picks : Picks} {h h₁ h₂ h' : History} {sql : Sql} {rows : List StoredRow}
    (ha : picks.Asked h₁ h₂ sql rows) (hfirst : h <+: h₁) (hlast : h₂ <+: h') :
    picks.Asked h h' sql rows := by
  obtain ⟨h₀, k, answer, hbefore, hafter, hrows⟩ := ha
  exact ⟨h₀, k, answer, hfirst.trans hbefore, hafter.trans hlast, hrows⟩

/-- The store evaluates lists of columns by name against the rows that it picks. -/
def Oracle.Evaluates (O : Oracle) (picks : Picks) : Prop :=
  ∀ h k sql columns rows, Sql.columnList? sql = some columns → O.query h k sql = .ok rows →
    rows = (picks h k sql).map (·.read columns)

/-- The rows that are picked for a statement on the target are of the kinds of its schema. -/
def Picks.Fit (picks : Picks) (t : Target) : Prop :=
  ∀ others sql, t.Compiled others sql → ∀ h k, ∀ stored ∈ picks h k sql, t.schema.Keeps stored

/-- The store evaluates lists of columns by name, and the rows in the tables that a request on the
target may read, which are its own and those that its relations lead to, are of the kinds of their
schemas. -/
structure Oracle.Keeps (O : Oracle) (g : Registry) (t : Target) (picks : Picks) : Prop where
  evaluates : O.Evaluates picks
  fit : picks.Fit t
  related : ∀ relation ∈ t.schema.relations, ∀ other, g.lookup? relation.target = some other →
    picks.Fit (Target.make other t.space t.dialect)

/-- The entity shows in every field a row that was picked for a lookup by keys, and has no relations
of its own. -/
def Picks.LookedUp (picks : Picks) (h h' : History) (t : Target) (e : Entity) : Prop :=
  e.relations = [] ∧ ∃ column keys stored rows,
    picks.Asked h h' (t.selectIn t.schema.indices column keys) rows ∧ stored ∈ rows ∧
      t.schema.Shows (fun _ => True) stored e

/-- What has been looked up between two histories has been looked up between wider ones. -/
theorem Picks.LookedUp.mono {picks : Picks} {h h₁ h₂ h' : History} {t : Target} {e : Entity}
    (he : picks.LookedUp h₁ h₂ t e) (hfirst : h <+: h₁) (hlast : h₂ <+: h') :
    picks.LookedUp h h' t e := by
  obtain ⟨hrelations, column, keys, stored, rows, hasked, hshows⟩ := he
  exact ⟨hrelations, column, keys, stored, rows, hasked.mono hfirst hlast, hshows⟩

/-- A relation in the list is the one that was put there, or was there before. -/
theorem Entity.mem_putRelation {name : String} {r : Related} {rs : List (String × Related)}
    {entry : String × Related} (h : entry ∈ Entity.putRelation name r rs) :
    entry = (name, r) ∨ entry ∈ rs := by
  fun_induction Entity.putRelation name r rs with
  | case1 => exact .inl (List.mem_singleton.1 h)
  | case2 n s rest hname =>
    obtain rfl := eq_of_beq hname
    exact (List.mem_cons.1 h).imp_right (List.mem_cons_of_mem _)
  | case3 n s rest hname ih =>
    rcases List.mem_cons.1 h with rfl | h
    · exact .inr List.mem_cons_self
    · exact (ih h).imp_right (List.mem_cons_of_mem _)

/-- Every relation of the entity has one of the names, and what is attached under it has been looked
up in the table of its target. -/
def Picks.Attached (picks : Picks) (g : Registry) (h h' : History) (t : Target)
    (names : List String) (e : Entity) : Prop :=
  ∀ entry ∈ e.relations, entry.1 ∈ names ∧ ∃ relation other,
    t.schema.relation? entry.1 = some relation ∧ g.lookup? relation.target = some other ∧
      ∀ r ∈ entry.2.entities, picks.LookedUp h h' (Target.make other t.space t.dialect) r

/-- Nothing is attached to an entity without relations. -/
theorem Picks.attached_of_relations {picks : Picks} {g : Registry} {h h' : History} {t : Target}
    {names : List String} {e : Entity} (he : e.relations = []) :
    picks.Attached g h h' t names e := by
  rw [Attached, he]
  exact List.forall_mem_nil _

/-- What has been attached between two histories has been attached between wider ones. -/
theorem Picks.Attached.mono {picks : Picks} {g : Registry} {h h₁ h₂ h' : History} {t : Target}
    {names : List String} {e : Entity} (he : picks.Attached g h₁ h₂ t names e) (hfirst : h <+: h₁)
    (hlast : h₂ <+: h') : picks.Attached g h h' t names e := by
  intro entry hentry
  obtain ⟨hname, relation, other, hrelation, hother, hfound⟩ := he entry hentry
  exact ⟨hname, relation, other, hrelation, hother, fun r hr => (hfound r hr).mono hfirst hlast⟩

/-- What loading relations makes of an entity: its fields stay, and what is attached to it has been
looked up by then. -/
structure Picks.Attaching (picks : Picks) (g : Registry) (h h' : History) (t : Target)
    (names : List String) (attach : Entity → Entity) : Prop where
  schema : ∀ e, (attach e).schema = e.schema
  values : ∀ e, (attach e).values = e.values
  attached : ∀ h₀ e, h₀ <+: h → picks.Attached g h₀ h t names e →
    picks.Attached g h₀ h' t names (attach e)

/-- The rows that a task returns are those of the statement. -/
inductive Target.Gives (t : Target) : Task → Sql → Prop where
  | fetchOne {key : Value} {projection : List Nat} {relations : List Relation} {sql : Sql}
    (h : t.selectOne projection key = .ok sql) : Gives t (.fetchOne key projection relations) sql
  | fetchPage (page : PageSelection) (projection : List Nat) (relations : List Relation) :
    Gives t (.fetchPage page projection relations) page.select
  | create (e : Entity) : Gives t (.create e) (t.insert e)
  | replace {e : Entity} {sql : Sql} (h : t.update e = .ok sql) : Gives t (.replace e) sql
  /-- The row is written back with what the body assigns. -/
  | partialUpdate {key : Value} {body : List UInt8} {contentType : String} {e : Entity} {sql : Sql}
    (h : t.update e = .ok sql) : Gives t (.partialUpdate key body contentType) sql
  | delete {key : Value} {sql : Sql} (h : t.delete key = .ok sql) : Gives t (.delete key) sql

/-- The output shows, in the selected fields, the rows picked for the statement of the plan: an
entity the first one, and a page all of them in order, unless nothing was counted. Relations of
these names have been attached. -/
def Picks.Returned (picks : Picks) (g : Registry) (h h' : History) (plan : Plan)
    (selected : Field → Prop) (names : List String) : Output → Prop
  | .entity e => ∃ sql stored rest, plan.target.Gives plan.task sql ∧
      picks.Asked h h' sql (stored :: rest) ∧ plan.target.schema.Shows selected stored e ∧
      picks.Attached g h h' plan.target names e
  | .page p => (p.count = 0 ∧ p.slice = []) ∨ ∃ sql rows, plan.target.Gives plan.task sql ∧
      picks.Asked h h' sql rows ∧
      List.Forall₂ (fun stored e => plan.target.schema.Shows selected stored e ∧
        picks.Attached g h h' plan.target names e) rows p.slice

/-- What has been returned between two histories has been returned between wider ones. -/
theorem Picks.Returned.mono {picks : Picks} {g : Registry} {h h₁ h₂ h' : History} {plan : Plan}
    {selected : Field → Prop} {names : List String} {output : Output}
    (hr : picks.Returned g h₁ h₂ plan selected names output) (hfirst : h <+: h₁)
    (hlast : h₂ <+: h') : picks.Returned g h h' plan selected names output := by
  cases output with
  | entity e =>
    obtain ⟨sql, stored, rest, hgives, hasked, hshows, hattached⟩ := hr
    exact ⟨sql, stored, rest, hgives, hasked.mono hfirst hlast, hshows,
      hattached.mono hfirst hlast⟩
  | page p =>
    refine hr.imp id ?_
    rintro ⟨sql, rows, hgives, hasked, hpairs⟩
    refine ⟨sql, rows, hgives, hasked.mono hfirst hlast, ?_⟩
    exact hpairs.imp fun stored e he => ⟨he.1, he.2.mono hfirst hlast⟩

section Attaching

variable {picks : Picks} {g : Registry} {h h₁ h' : History} {t : Target} {names : List String}

/-- To attach nothing takes no exchange. -/
theorem Picks.attaching_id : picks.Attaching g h h t names id where
  schema _ := rfl
  values _ := rfl
  attached _ _ _ he := he

/-- One attachment after another. -/
theorem Picks.Attaching.comp {attach attach' : Entity → Entity}
    (hf : picks.Attaching g h h₁ t names attach) (hf' : picks.Attaching g h₁ h' t names attach')
    (hgrows : h <+: h₁) : picks.Attaching g h h' t names (attach' ∘ attach) where
  schema e := (hf'.schema _).trans (hf.schema e)
  values e := (hf'.values _).trans (hf.values e)
  attached h₀ e hfirst he := hf'.attached h₀ _ (hfirst.trans hgrows) (hf.attached h₀ e hfirst he)

/-- Rows of the relation's target that have been looked up may be attached. -/
theorem Picks.attaching_setRelation {relation : Relation} {other : Resource}
    (hname : relation.name ∈ names) (hrelation : t.schema.relation? relation.name = some relation)
    (hother : g.lookup? relation.target = some other) {found : List Entity} (hgrows : h <+: h')
    (hfound : ∀ r ∈ found, picks.LookedUp h h' (Target.make other t.space t.dialect) r)
    {related : Entity → Related} (hrelated : ∀ e, (related e).entities ⊆ found) :
    picks.Attaching g h h' t names fun e => e.setRelation relation.name (related e) where
  schema _ := rfl
  values _ := rfl
  attached h₀ e hfirst he := by
    intro entry hentry
    rcases Entity.mem_putRelation hentry with rfl | hentry
    · refine ⟨hname, relation, other, hrelation, hother, fun r hr => ?_⟩
      exact (hfound r (hrelated e hr)).mono hfirst List.prefix_rfl
    · exact he.mono List.prefix_rfl hgrows entry hentry

/-- What is returned with its relations shows what it was read from. -/
theorem Picks.Attaching.returned {attach : Entity → Entity} {s : Schema} {selected : Field → Prop}
    {stored : StoredRow} {e : Entity} {h₀ : History}
    (hattach : picks.Attaching g h h' t names attach) (hfirst : h₀ <+: h)
    (hshows : s.Shows selected stored e) (hrelations : e.relations = []) :
    s.Shows selected stored (attach e) ∧ picks.Attached g h₀ h' t names (attach e) := by
  exact ⟨hshows.congr (hattach.schema e) (hattach.values e),
    hattach.attached h₀ e hfirst (Picks.attached_of_relations hrelations)⟩

end Attaching

end ResourceEngine
