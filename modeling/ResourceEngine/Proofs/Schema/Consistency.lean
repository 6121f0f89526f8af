import Mathlib.Data.List.Nodup
import Mathlib.Tactic.SplitIfs
import ResourceEngine.Schema.Registry

/-!
# Consistent schemas and registries

What the checks of schemas and registries leave to rely on. In a schema that passes its check the
names of fields are different, so names and positions determine each other. In a registry that was
built, the target of every relation is there, and so are the fields and keys that the relation is
joined on.
-/

namespace ResourceEngine

/-- Names that differ from one and from those seen before, and among themselves. -/
theorem fresh_cons_iff {α : Type} {key : α → String} {name : String} {seen : List String}
    {xs : List α} :
    ((∀ x ∈ xs, key x ≠ name ∧ key x ∉ seen) ∧ (xs.map key).Nodup) ↔
      (∀ x ∈ xs, key x ∉ seen) ∧ (name :: xs.map key).Nodup := by
  rw [List.nodup_cons, List.mem_map, forall₂_and]
  constructor
  · rintro ⟨⟨hname, hnew⟩, hnodup⟩
    exact ⟨hnew, fun ⟨x, hx, heq⟩ => hname x hx heq, hnodup⟩
  · rintro ⟨hnew, hname, hnodup⟩
    exact ⟨⟨fun x hx heq => hname ⟨x, hx, heq⟩, hnew⟩, hnodup⟩

namespace Schema

variable {s : Schema} {name resource : String} {i : Nat}

theorem getElem?_columns (s : Schema) (i : Nat) : s.columns[i]? = s.fields[i]?.map (·.name) :=
  List.getElem?_map

/-- The field with a name is the one at the position of the name. -/
theorem field?_eq (s : Schema) (name : String) :
    s.field? name = (s.fieldIndex? name).bind (s.fields[·]?) := by
  unfold field? fieldIndex?
  generalize s.fields = fields
  induction fields with
  | nil => rfl
  | cons f fields ih =>
    rw [List.find?_cons, List.findIdx?_cons]
    cases f.name == name with
    | true => rfl
    | false =>
      simp only [ih, Bool.false_eq_true, if_false]
      cases fields.findIdx? (·.name == name) <;> rfl

theorem getElem?_of_fieldIndex? (h : s.fieldIndex? name = some i) : s.columns[i]? = some name := by
  obtain ⟨hi, hname, -⟩ := List.findIdx?_eq_some_iff_getElem.1 h
  rw [getElem?_columns, List.getElem?_eq_getElem hi, Option.map_some]
  exact congrArg some (by simpa using hname)

theorem fieldIndex?_of_nodup (hs : s.columns.Nodup) (h : s.columns[i]? = some name) :
    s.fieldIndex? name = some i := by
  cases hj : s.fieldIndex? name with
  | none =>
    have hmem := List.mem_of_getElem? h
    obtain ⟨f, hf, hname⟩ := List.mem_map.1 hmem
    simpa [hname] using List.findIdx?_eq_none_iff.1 hj f hf
  | some j =>
    have hi := (List.getElem?_eq_some_iff.1 h).1
    have heq := h.trans (getElem?_of_fieldIndex? hj).symm
    rw [(List.getElem?_inj hi hs).1 heq]

/-! ### The primary key -/

theorem keyFields_of_primaryKey {key : Field × Nat} (h : s.primaryKey resource = .ok key) :
    s.keyFields = [key] := by
  unfold primaryKey at h
  split at h
  · next hkeys =>
    cases h
    exact hkeys
  · cases h
  · cases h

theorem exists_primaryKey_of_hasSingleKey (h : s.hasSingleKey = true) (resource : String) :
    ∃ key, s.primaryKey resource = .ok key := by
  obtain ⟨key, hkey⟩ := List.length_eq_one_iff.1 (beq_iff_eq.1 h)
  exact ⟨key, by rw [primaryKey, hkey]⟩

theorem mem_keyFields_iff {f : Field} :
    (f, i) ∈ s.keyFields ↔ s.fields[i]? = some f ∧ f.primary = true := by
  rw [keyFields, List.mem_filter, List.mem_zipIdx_iff_getElem?]

/-- The key is a primary field at its position. -/
theorem getElem?_of_primaryKey {f : Field} (h : s.primaryKey resource = .ok (f, i)) :
    s.fields[i]? = some f ∧ f.primary = true :=
  mem_keyFields_iff.1 (keyFields_of_primaryKey h ▸ List.mem_singleton_self _)

/-! ### The check -/

theorem checkFields_eq_ok_iff {table : String} {seen : List String} {fields : List Field} :
    checkFields table seen fields = .ok () ↔
      (∀ f ∈ fields, f.name ≠ "") ∧ (∀ f ∈ fields, f.name ∉ seen) ∧
        (fields.map (·.name)).Nodup := by
  induction fields generalizing seen with
  | nil => simp [checkFields]
  | cons f fields ih =>
    rw [checkFields, List.forall_mem_cons, List.forall_mem_cons, List.map_cons]
    split_ifs with hempty hseen
    · exact ⟨nofun, fun h => absurd hempty h.1.1⟩
    · exact ⟨nofun, fun h => absurd hseen h.2.1.1⟩
    · simp only [ih, List.mem_cons, not_or, fresh_cons_iff]
      exact ⟨fun ⟨hnames, hnew, hnodup⟩ => ⟨⟨hempty, hnames⟩, ⟨hseen, hnew⟩, hnodup⟩,
        fun ⟨hnames, hnew, hnodup⟩ => ⟨hnames.2, hnew.2, hnodup⟩⟩

theorem checkRelations_eq_ok_iff {table : String} {columns seen : List String}
    {relations : List Relation} :
    checkRelations table columns seen relations = .ok () ↔
      (∀ r ∈ relations, r.name ∉ columns ∧ ∀ field, r.link = .belongsTo field → field ∈ columns) ∧
        (∀ r ∈ relations, r.name ∉ seen) ∧ (relations.map (·.name)).Nodup := by
  induction relations generalizing seen with
  | nil => simp [checkRelations]
  | cons r relations ih =>
    rw [checkRelations, List.forall_mem_cons, List.forall_mem_cons, List.map_cons]
    split_ifs with hknown
    · exact ⟨nofun, fun h => (hknown.elim h.2.1.1 h.1.1.1).elim⟩
    obtain ⟨hseen, hcolumn⟩ := not_or.1 hknown
    have hrest : checkRelations table columns (r.name :: seen) relations = .ok () ↔
        (∀ r ∈ relations, r.name ∉ columns ∧
          ∀ field, r.link = .belongsTo field → field ∈ columns) ∧
        (∀ r ∈ relations, r.name ∉ seen) ∧ (r.name :: relations.map (·.name)).Nodup := by
      simp only [ih, List.mem_cons, not_or, fresh_cons_iff]
    cases r.link with
    | belongsTo field =>
      dsimp only [localField?]
      split_ifs with hfield
      · simp [hrest, hseen, hcolumn, hfield]
      · simp [hfield]
    | hasMany field => simp [localField?, hrest, hseen, hcolumn]

/-- A schema that has nothing wrong with it on its own. -/
structure WellFormed (s : Schema) : Prop where
  table_ne : s.table ≠ ""
  fields_ne : s.fields ≠ []
  name_ne : ∀ f ∈ s.fields, f.name ≠ ""
  nodup_columns : s.columns.Nodup
  nodup_relations : (s.relations.map (·.name)).Nodup
  not_mem_columns : ∀ r ∈ s.relations, r.name ∉ s.columns
  mem_columns : ∀ r ∈ s.relations, ∀ field, r.link = .belongsTo field → field ∈ s.columns

theorem check_eq_ok_iff : s.check = .ok () ↔ s.WellFormed := by
  unfold check
  by_cases htable : s.table = ""
  · simp only [htable, if_true]
    exact ⟨nofun, fun h => absurd htable h.table_ne⟩
  by_cases hempty : s.fields = []
  · simp only [htable, hempty, List.isEmpty_nil, if_true, if_false]
    exact ⟨nofun, fun h => absurd hempty h.fields_ne⟩
  simp only [htable, List.isEmpty_iff, hempty, if_false]
  -- Both checks start with no names seen, so of what they compare with, only the fields remain.
  have hfields : checkFields s.table [] s.fields = .ok () ↔
      (∀ f ∈ s.fields, f.name ≠ "") ∧ s.columns.Nodup := by
    rw [checkFields_eq_ok_iff]
    exact and_congr_right fun _ => ⟨And.right, fun h => ⟨fun _ _ => List.not_mem_nil, h⟩⟩
  have hrelations : checkRelations s.table s.columns [] s.relations = .ok () ↔
      (∀ r ∈ s.relations, r.name ∉ s.columns ∧
        ∀ field, r.link = .belongsTo field → field ∈ s.columns) ∧
      (s.relations.map (·.name)).Nodup := by
    rw [checkRelations_eq_ok_iff]
    exact and_congr_right fun _ => ⟨And.right, fun h => ⟨fun _ _ => List.not_mem_nil, h⟩⟩
  constructor
  · intro h
    cases hcheck : checkFields s.table [] s.fields with
    | error e =>
      rw [hcheck] at h
      cases h
    | ok u =>
      rw [hcheck] at h
      obtain ⟨hnames, hnodup⟩ := hfields.1 hcheck
      obtain ⟨hjoined, hnodup'⟩ := hrelations.1 h
      exact ⟨htable, hempty, hnames, hnodup, hnodup', fun r hr => (hjoined r hr).1,
        fun r hr => (hjoined r hr).2⟩
  · intro h
    rw [hfields.2 ⟨h.name_ne, h.nodup_columns⟩]
    exact hrelations.2 ⟨fun r hr => ⟨h.not_mem_columns r hr, h.mem_columns r hr⟩, h.nodup_relations⟩

/-- The fields of a schema that passes its check have different names. -/
theorem nodup_columns_of_check (h : s.check = .ok ()) : s.columns.Nodup :=
  (check_eq_ok_iff.1 h).nodup_columns

/-- No relation has the name of a field. -/
theorem not_mem_columns_of_check (h : s.check = .ok ())
    (hname : name ∈ s.relations.map (·.name)) : name ∉ s.columns := by
  obtain ⟨r, hr, rfl⟩ := List.mem_map.1 hname
  exact (check_eq_ok_iff.1 h).not_mem_columns r hr

theorem exists_fieldIndex?_of_mem_columns (h : name ∈ s.columns) :
    ∃ i, s.fieldIndex? name = some i := by
  obtain ⟨f, hf, rfl⟩ := List.mem_map.1 h
  cases hi : s.fieldIndex? f.name with
  | some i => exact ⟨i, rfl⟩
  | none => exact absurd (List.findIdx?_eq_none_iff.1 hi f hf) (by simp)

theorem exists_fieldIndex?_of_check (h : s.check = .ok ()) {r : Relation} (hr : r ∈ s.relations)
    (hlink : r.link = .belongsTo name) : ∃ i, s.fieldIndex? name = some i :=
  exists_fieldIndex?_of_mem_columns ((check_eq_ok_iff.1 h).mem_columns r hr name hlink)

end Schema

namespace Registry

variable {g g' : Registry}

theorem mem_of_lookup? {name : String} {r : Resource} (h : g.lookup? name = some r) :
    r ∈ g.resources :=
  List.mem_of_find?_eq_some h

theorem lookup?_eq_none_iff {name : String} :
    g.lookup? name = none ↔ name ∉ g.resources.map (·.name) := by
  simp [lookup?]

/-- Every schema and every relation passes its check. -/
structure Consistent (g : Registry) : Prop where
  schemas : ∀ r ∈ g.resources, r.schema.check = .ok ()
  relations : ∀ r ∈ g.resources, ∀ relation ∈ r.schema.relations,
    g.checkRelation r relation = .ok ()

theorem forM_eq_ok_iff {α ε : Type} {check : α → Except ε Unit} {xs : List α} :
    xs.forM check = .ok () ↔ ∀ x ∈ xs, check x = .ok () := by
  induction xs with
  | nil => simp [pure, Except.pure]
  | cons x xs ih =>
    rw [List.forall_mem_cons, ← ih]
    change (do check x; xs.forM check) = Except.ok () ↔ _
    cases check x with
    | error e => exact ⟨nofun, fun h => nomatch h.1⟩
    | ok u => exact ⟨fun h => ⟨rfl, h⟩, And.right⟩

theorem define_eq_ok_iff {r : Resource} :
    g.define r = .ok g' ↔ (r.schema.check = .ok () ∧ r.name ≠ "") ∧
      r.name ∉ g.resources.map (·.name) ∧ ⟨g.resources ++ [r]⟩ = g' := by
  unfold define
  cases r.schema.check with
  | error e => exact ⟨nofun, fun h => nomatch h.1.1⟩
  | ok u =>
    by_cases hname : r.name = ""
    · simp only [hname, if_true]
      exact ⟨nofun, fun h => absurd rfl h.1.2⟩
    cases hknown : g.lookup? r.name with
    | some r' =>
      simp only [hname, if_false, Option.isSome_some, if_true]
      refine ⟨nofun, fun h => ?_⟩
      rw [lookup?_eq_none_iff.2 h.2.1] at hknown
      cases hknown
    | none =>
      simp only [hname, if_false, Option.isSome_none, Bool.false_eq_true]
      exact ⟨fun h => ⟨⟨trivial, hname⟩, lookup?_eq_none_iff.1 hknown, Except.ok.inj h⟩,
        fun h => congrArg Except.ok h.2.2⟩

/-- Resources are defined one after another if each is in order and their names are different. -/
theorem foldlM_define_eq_ok_iff {definitions : List Resource} :
    definitions.foldlM define g = .ok g' ↔
      (∀ r ∈ definitions, r.schema.check = .ok () ∧ r.name ≠ "") ∧
        (∀ r ∈ definitions, r.name ∉ g.resources.map (·.name)) ∧
        (definitions.map (·.name)).Nodup ∧ ⟨g.resources ++ definitions⟩ = g' := by
  -- What is registered grows, so the induction is for every registry to start from.
  induction definitions generalizing g with
  | nil => simp [pure, Except.pure]
  | cons r definitions ih =>
    rw [List.foldlM_cons, List.forall_mem_cons, List.forall_mem_cons, List.map_cons]
    constructor
    · intro h
      cases hr : g.define r with
      | error e =>
        rw [hr] at h
        cases h
      | ok g₁ =>
        rw [hr] at h
        obtain ⟨hcheck, hnew, rfl⟩ := define_eq_ok_iff.1 hr
        obtain ⟨hchecks, hrest, hnodup, rfl⟩ := ih.1 h
        simp only [List.map_append, List.map_cons, List.map_nil, List.mem_append,
          List.mem_singleton, not_or] at hrest
        obtain ⟨hrest, hnodup⟩ := fresh_cons_iff.1 ⟨fun x hx => (hrest x hx).symm, hnodup⟩
        exact ⟨⟨hcheck, hchecks⟩, ⟨hnew, hrest⟩, hnodup, by simp⟩
    · rintro ⟨⟨hcheck, hchecks⟩, ⟨hnew, hrest⟩, hnodup, rfl⟩
      obtain ⟨hrest, hnodup⟩ := fresh_cons_iff.2 ⟨hrest, hnodup⟩
      rw [define_eq_ok_iff.2 ⟨hcheck, hnew, rfl⟩]
      refine ih.2 ⟨hchecks, fun x hx => ?_, hnodup, by simp⟩
      simp only [List.map_append, List.map_cons, List.map_nil, List.mem_append,
        List.mem_singleton, not_or]
      exact (hrest x hx).symm

/-- What is given back is what has been checked. -/
theorem checked_eq_ok_iff {α ε : Type} {x : Except ε α} {check : α → Except ε Unit} {a : α} :
    (do let b ← x; check b; return b) = .ok a ↔ x = .ok a ∧ check a = .ok () := by
  cases x with
  | error e => exact ⟨nofun, fun h => nomatch h.1⟩
  | ok b =>
    change (do check b; pure b) = Except.ok a ↔ _
    cases hb : check b with
    | error e =>
      refine ⟨nofun, fun ⟨heq, ha⟩ => ?_⟩
      cases heq
      cases hb.symm.trans ha
    | ok u =>
      refine ⟨fun h => ?_, And.left⟩
      cases h
      exact ⟨rfl, hb⟩

/-- A registry that was built is consistent. -/
theorem consistent_of_build {definitions : List Resource} (h : build definitions = .ok g) :
    g.Consistent := by
  obtain ⟨hfold, hcheck⟩ := checked_eq_ok_iff.1 h
  obtain ⟨hschemas, -, -, rfl⟩ := foldlM_define_eq_ok_iff.1 hfold
  exact ⟨fun r hr => (hschemas r hr).1,
    fun r hr => forM_eq_ok_iff.1 (forM_eq_ok_iff.1 hcheck r hr)⟩

theorem guard_eq_ok_iff {b : Bool} {fault : Fault} :
    (if !b then throw fault else pure () : Except Fault Unit) = .ok () ↔ b = true := by
  cases b
  · exact ⟨nofun, nofun⟩
  · exact ⟨fun _ => rfl, fun _ => rfl⟩

/-- What a relation that passes its check is joined on: the target is registered, and the side that
the other one refers to has a primary key of one field. -/
theorem checkRelation_eq_ok_iff {r : Resource} {relation : Relation} :
    g.checkRelation r relation = .ok () ↔
      ∃ target, g.lookup? relation.target = some target ∧
        match relation.link with
        | .belongsTo _ => target.schema.hasSingleKey = true
        | .hasMany field => (target.schema.field? field).isSome = true ∧
          r.schema.hasSingleKey = true := by
  unfold checkRelation
  cases htarget : g.lookup? relation.target with
  | none => simp
  | some target =>
    simp only [Option.some.injEq, exists_eq_left']
    cases relation.link with
    | belongsTo field => exact guard_eq_ok_iff
    | hasMany field =>
      dsimp only
      cases target.schema.field? field with
      | none =>
        simp only [Option.isNone_none, if_true, Option.isSome_none, Bool.false_eq_true, false_and,
          iff_false]
        intro h
        cases h
      | some f =>
        simp only [Option.isNone_some, Bool.false_eq_true, if_false, Option.isSome_some, true_and]
        exact guard_eq_ok_iff

end Registry

end ResourceEngine
