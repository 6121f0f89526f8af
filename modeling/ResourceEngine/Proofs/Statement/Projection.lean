import ResourceEngine.Proofs.Schema.Consistency
import ResourceEngine.Statement.Target

/-!
# Projections

The positions that a request reads: different fields of the schema, among them the one that each of
its relations is joined on.
-/

namespace ResourceEngine

/-- The positions are those of different fields. -/
structure Schema.IsProjection (s : Schema) (projection : List Nat) : Prop where
  nodup : projection.Nodup
  lt : ∀ i ∈ projection, i < s.fields.length

theorem Schema.isProjection_indices (s : Schema) : s.IsProjection s.indices :=
  ⟨List.nodup_range, fun _ hi => List.mem_range.1 hi⟩

theorem Schema.lt_of_fieldIndex? {s : Schema} {name : String} {i : Nat}
    (h : s.fieldIndex? name = some i) : i < s.fields.length :=
  (List.findIdx?_eq_some_iff_getElem.1 h).1

namespace Target

variable {t : Target} {projection projection' : List Nat}

theorem mem_widen {i j : Nat} : j ∈ widen projection i ↔ j ∈ projection ∨ j = i := by
  unfold widen
  split_ifs with hi
  · exact ⟨.inl, fun h => h.elim id (· ▸ hi)⟩
  · rw [List.mem_append, List.mem_singleton]

/-- Widening by an index of a field leaves a projection. -/
theorem isProjection_widen (h : t.schema.IsProjection projection) {i : Nat}
    (hi : i < t.schema.fields.length) : t.schema.IsProjection (widen projection i) := by
  refine ⟨?_, fun j hj => ?_⟩
  · unfold widen
    split_ifs with hmem
    · exact h.nodup
    · refine List.nodup_append.2 ⟨h.nodup, List.nodup_singleton i, fun j hj k hk => ?_⟩
      obtain rfl := List.mem_singleton.1 hk
      rintro rfl
      exact hmem hj
  · rcases mem_widen.1 hj with hj | rfl
    · exact h.lt j hj
    · exact hi

theorem isProjection_project {found : List Nat} {names : List String}
    (hfound : t.schema.IsProjection found) (h : t.project found names = .ok projection) :
    t.schema.IsProjection projection := by
  induction names generalizing found with
  | nil =>
    cases h
    exact hfound
  | cons name names ih =>
    rw [project] at h
    split at h
    · next i hi => exact ih (isProjection_widen hfound (Schema.lt_of_fieldIndex? hi)) h
    · cases h

theorem isProjection_of_projection {fields : List String}
    (h : t.projection fields = .ok projection) : t.schema.IsProjection projection := by
  unfold Target.projection at h
  split_ifs at h
  · cases h
    exact t.schema.isProjection_indices
  · exact isProjection_project ⟨List.nodup_nil, List.forall_mem_nil _⟩ h

theorem fieldIndex?_of_joinIndex {relation : Relation} {field : String} {i : Nat}
    (hlink : relation.link = .belongsTo field) (h : t.joinIndex relation = .ok i) :
    t.schema.fieldIndex? field = some i := by
  unfold joinIndex at h
  rw [hlink] at h
  simp only at h
  split at h
  · next hi =>
    cases h
    exact hi
  · cases h

theorem primaryKey_of_joinIndex {relation : Relation} {field : String} {i : Nat}
    (hlink : relation.link = .hasMany field) (h : t.joinIndex relation = .ok i) :
    ∃ pk, t.resource.primaryKey = .ok (pk, i) := by
  unfold joinIndex at h
  rw [hlink] at h
  cases hkey : t.resource.primaryKey with
  | error p =>
    rw [hkey] at h
    cases h
  | ok key =>
    rw [hkey] at h
    cases h
    exact ⟨key.1, rfl⟩

theorem lt_of_joinIndex {relation : Relation} {i : Nat} (h : t.joinIndex relation = .ok i) :
    i < t.schema.fields.length := by
  cases hlink : relation.link with
  | belongsTo field => exact Schema.lt_of_fieldIndex? (fieldIndex?_of_joinIndex hlink h)
  | hasMany field =>
    obtain ⟨pk, hkey⟩ := primaryKey_of_joinIndex hlink h
    exact (List.getElem?_eq_some_iff.1 (Schema.getElem?_of_primaryKey hkey).1).1

/-- The relations are different ones of the schema, and the projection has the field that each of
them is joined on. -/
structure Resolved (t : Target) (relations : List Relation) (projection : List Nat) : Prop where
  isProjection : t.schema.IsProjection projection
  declared : ∀ r ∈ relations, r ∈ t.schema.relations
  nodup : (relations.map (·.name)).Nodup
  read : ∀ r ∈ relations, ∃ i ∈ projection, t.joinIndex r = .ok i

/-- Each relation that is found is declared, found once, and joined on an index that has been added.
-/
theorem resolved_resolve {found relations : List Relation} {names : List String}
    (hfound : t.Resolved found projection)
    (h : t.resolve found projection names = (.ok relations, projection')) :
    t.Resolved relations projection' := by
  -- Each name widens the projection at most, so what was read before is still read.
  induction names generalizing found projection with
  | nil =>
    cases h
    exact hfound
  | cons name names ih =>
    rw [resolve] at h
    split at h
    · cases h
    next relation hrelation =>
    split_ifs at h with hseen
    · exact ih hfound h
    split at h
    · cases h
    next i hi =>
    refine ih ?_ h
    have hlt := lt_of_joinIndex hi
    refine ⟨isProjection_widen hfound.isProjection hlt, ?_, ?_, ?_⟩
    · rw [List.forall_mem_append, List.forall_mem_singleton]
      exact ⟨hfound.declared, List.mem_of_find?_eq_some hrelation⟩
    · rw [List.map_append, List.nodup_append]
      refine ⟨hfound.nodup, List.nodup_singleton _, fun n hn m hm => ?_⟩
      obtain ⟨r, hr, rfl⟩ := List.mem_map.1 hn
      obtain rfl := List.mem_singleton.1 hm
      intro heq
      exact hseen (List.any_eq_true.2 ⟨r, hr, beq_iff_eq.2 heq⟩)
    · rw [List.forall_mem_append, List.forall_mem_singleton]
      refine ⟨fun r hr => ?_, i, mem_widen.2 (.inr rfl), hi⟩
      obtain ⟨j, hj, hjoin⟩ := hfound.read r hr
      exact ⟨j, mem_widen.2 (.inl hj), hjoin⟩

/-- Also where a name is wrong, the positions are those of different fields. -/
theorem isProjection_resolve (found : List Relation) (names : List String)
    (h : t.schema.IsProjection projection) :
    t.schema.IsProjection (t.resolve found projection names).2 := by
  induction names generalizing found projection with
  | nil => exact h
  | cons name names ih =>
    rw [resolve]
    split
    · exact h
    split_ifs
    · exact ih found h
    split
    · exact h
    next i hi => exact ih _ (isProjection_widen h (lt_of_joinIndex hi))

/-- What the request resolves to reads every field that a relation is joined on. -/
theorem resolved_of_relations {fields names : List String} {relations : List Relation}
    (hfields : t.projection fields = .ok projection)
    (h : t.relations projection names = (.ok relations, projection')) :
    t.Resolved relations projection' :=
  resolved_resolve ⟨isProjection_of_projection hfields, List.forall_mem_nil _, List.nodup_nil,
    List.forall_mem_nil _⟩ h

/-! ### What a request selects -/

variable {names : List String} {i : Nat} {f : Field}

/-- An index is in what has been projected if it was there before, or a name stands for it. -/
theorem mem_project_iff {found : List Nat} (h : t.project found names = .ok projection) :
    i ∈ projection ↔ i ∈ found ∨ ∃ name ∈ names, t.schema.fieldIndex? name = some i := by
  induction names generalizing found with
  | nil =>
    cases h
    simp
  | cons name names ih =>
    rw [project] at h
    split at h
    · next j hj =>
      rw [ih h, mem_widen, List.exists_mem_cons_iff, hj, Option.some.injEq, or_assoc, eq_comm]
    · cases h

/-- The positions of a request that names fields are those of the named fields. -/
theorem mem_projection_iff (hnodup : t.schema.columns.Nodup)
    (h : t.projection names = .ok projection) (hf : t.schema.fields[i]? = some f) :
    i ∈ projection ↔ names = [] ∨ f.name ∈ names := by
  have hi := (List.getElem?_eq_some_iff.1 hf).1
  unfold Target.projection at h
  split_ifs at h with hempty
  · cases h
    rw [List.isEmpty_iff.1 hempty]
    simpa [Schema.indices] using hi
  · have hne : names ≠ [] := fun heq => hempty (List.isEmpty_iff.2 heq)
    have hname : t.schema.columns[i]? = some f.name := by
      rw [Schema.getElem?_columns, hf, Option.map_some]
    rw [mem_project_iff h]
    simp only [List.not_mem_nil, false_or, hne]
    constructor
    · rintro ⟨name, hmem, hindex⟩
      have heq := (Schema.getElem?_of_fieldIndex? hindex).symm.trans hname
      rwa [← Option.some.inj heq]
    · exact fun hmem => ⟨f.name, hmem, Schema.fieldIndex?_of_nodup hnodup hname⟩

/-- The relations of a request are those that it names, and its positions grow by those that they
are joined on. -/
theorem mem_resolve_iff {found relations : List Relation}
    (hfound : ∀ r ∈ found, t.schema.relation? r.name = some r ∧
      ∃ j ∈ projection, t.joinIndex r = .ok j)
    (h : t.resolve found projection names = (.ok relations, projection')) :
    (∀ r, r ∈ relations ↔ r ∈ found ∨ ∃ name ∈ names, t.schema.relation? name = some r) ∧
      (∀ i, i ∈ projection' ↔ i ∈ projection ∨ ∃ r ∈ relations, t.joinIndex r = .ok i) := by
  induction names generalizing found projection with
  | nil =>
    cases h
    refine ⟨by simp, fun i => ⟨.inl, ?_⟩⟩
    rintro (hi | ⟨r, hr, hjoin⟩)
    · exact hi
    · obtain ⟨j, hj, hread⟩ := (hfound r hr).2
      obtain rfl := Except.ok.inj (hread.symm.trans hjoin)
      exact hj
  | cons name names ih =>
    rw [resolve] at h
    split at h
    · cases h
    next relation hrelation =>
    have hname : relation.name = name := by
      simpa using List.find?_some hrelation
    split_ifs at h with hseen
    · -- A relation of this name that has been found is this one.
      obtain ⟨r₀, hr₀, heq⟩ := List.any_eq_true.1 hseen
      have hfirst := (hfound r₀ hr₀).1
      rw [eq_of_beq heq, hname, hrelation] at hfirst
      obtain rfl := Option.some.inj hfirst
      obtain ⟨hmem, hread⟩ := ih hfound h
      refine ⟨fun r => ?_, hread⟩
      rw [hmem, List.exists_mem_cons_iff, hrelation, Option.some.injEq]
      constructor
      · rintro (hr | hr)
        · exact .inl hr
        · exact .inr (.inr hr)
      · rintro (hr | rfl | hr)
        · exact .inl hr
        · exact .inl hr₀
        · exact .inr hr
    split at h
    · cases h
    next j hj =>
    have hwider : ∀ r ∈ found ++ [relation], t.schema.relation? r.name = some r ∧
        ∃ k ∈ widen projection j, t.joinIndex r = .ok k := by
      rw [List.forall_mem_append, List.forall_mem_singleton, hname]
      refine ⟨fun r hr => ?_, hrelation, j, mem_widen.2 (.inr rfl), hj⟩
      obtain ⟨hfirst, k, hk, hread⟩ := hfound r hr
      exact ⟨hfirst, k, mem_widen.2 (.inl hk), hread⟩
    obtain ⟨hmem, hread⟩ := ih hwider h
    refine ⟨fun r => ?_, fun i => ?_⟩
    · rw [hmem, List.mem_append, List.mem_singleton, List.exists_mem_cons_iff, hrelation,
        Option.some.injEq, or_assoc, eq_comm]
    · rw [hread, mem_widen, or_assoc]
      refine or_congr_right ⟨?_, .inr⟩
      rintro (rfl | hi)
      · exact ⟨relation, (hmem relation).2 (.inl (by simp)), hj⟩
      · exact hi

/-- Each of the relations is found under its name, and a request for them has that name. -/
theorem named_of_relations {names : List String} {relations : List Relation}
    (h : t.relations projection names = (.ok relations, projection')) :
    ∀ r ∈ relations, r.name ∈ names ∧ t.schema.relation? r.name = some r := by
  intro r hr
  obtain hnone | ⟨name, hname, hrelation⟩ :=
    ((mem_resolve_iff (List.forall_mem_nil _) h).1 r).1 hr
  · exact absurd hnone List.not_mem_nil
  · obtain rfl : r.name = name := by simpa using List.find?_some hrelation
    exact ⟨hname, hrelation⟩

end Target

/-- The field is the one of its schema that the relation is joined on. -/
def Relation.joinsOn (relation : Relation) (f : Field) : Prop :=
  match relation.link with
  | .belongsTo field => f.name = field
  | .hasMany _ => f.primary = true

/-- A request for these fields and relations reads the field. -/
def Schema.Selects (s : Schema) (fields relations : List String) (f : Field) : Prop :=
  fields = [] ∨ f.name ∈ fields ∨
    ∃ name ∈ relations, ∃ r, s.relation? name = some r ∧ r.joinsOn f

namespace Target

variable {t : Target} {i j : Nat} {f : Field}

/-- Where columns have different names, the index that a relation is joined on is that of the field
it joins on. -/
theorem joinIndex_eq_iff (hnodup : t.schema.columns.Nodup) {r : Relation}
    (hr : t.joinIndex r = .ok j) (hf : t.schema.fields[i]? = some f) : j = i ↔ r.joinsOn f := by
  have hname : t.schema.columns[i]? = some f.name := by
    rw [Schema.getElem?_columns, hf, Option.map_some]
  unfold Relation.joinsOn
  cases hlink : r.link with
  | belongsTo field =>
    have hindex := fieldIndex?_of_joinIndex hlink hr
    have hfield := Schema.getElem?_of_fieldIndex? hindex
    constructor
    · rintro rfl
      exact Option.some.inj (hname.symm.trans hfield)
    · rintro rfl
      exact Option.some.inj (hindex.symm.trans (Schema.fieldIndex?_of_nodup hnodup hname))
  | hasMany field =>
    obtain ⟨pk, hkey⟩ := primaryKey_of_joinIndex hlink hr
    have hpk := Schema.getElem?_of_primaryKey hkey
    constructor
    · rintro rfl
      obtain rfl := Option.some.inj (hpk.1.symm.trans hf)
      exact hpk.2
    · intro hprimary
      -- There is one primary field.
      have hmem : (f, i) ∈ t.resource.schema.keyFields :=
        Schema.mem_keyFields_iff.2 ⟨hf, hprimary⟩
      rw [Schema.keyFields_of_primaryKey hkey, List.mem_singleton] at hmem
      exact (congrArg Prod.snd hmem).symm

/-- The positions that a request reads are those of the fields that it selects. -/
theorem mem_relations_iff (hnodup : t.schema.columns.Nodup) {fields names : List String}
    {selected projection : List Nat} {relations : List Relation}
    (hfields : t.projection fields = .ok selected)
    (hrelations : t.relations selected names = (.ok relations, projection))
    (hf : t.schema.fields[i]? = some f) :
    i ∈ projection ↔ t.schema.Selects fields names f := by
  obtain ⟨hmem, hread⟩ := mem_resolve_iff (List.forall_mem_nil _) hrelations
  have hresolved := resolved_of_relations hfields hrelations
  rw [hread, mem_projection_iff hnodup hfields hf, Schema.Selects, or_assoc]
  refine or_congr_right (or_congr_right ⟨?_, ?_⟩)
  · rintro ⟨r, hr, hjoin⟩
    obtain hnone | ⟨name, hname, hrelation⟩ := (hmem r).1 hr
    · exact absurd hnone List.not_mem_nil
    · exact ⟨name, hname, r, hrelation, (joinIndex_eq_iff hnodup hjoin hf).1 rfl⟩
  · rintro ⟨name, hname, r, hrelation, hjoins⟩
    have hr := (hmem r).2 (.inr ⟨name, hname, hrelation⟩)
    obtain ⟨j, -, hjoin⟩ := hresolved.read r hr
    obtain rfl := (joinIndex_eq_iff hnodup hjoin hf).2 hjoins
    exact ⟨r, hr, hjoin⟩

end Target

end ResourceEngine
