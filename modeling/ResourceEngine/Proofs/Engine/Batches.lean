import ResourceEngine.Proofs.Engine.Kinds

/-!
# Batches of keys

Related rows are asked for by the keys of the rows that have been loaded, a chunk of them at a time.
Whatever the store answers, a fetch that comes to its end has bound each key once for each of its
relations: no chunk boundary loses a key, and none is sent twice.
-/

namespace ResourceEngine

open Work Sql

/-! ### Keys -/

/-- The values that are bound are the keys other than null, each of them once. Values that are the
same count as one; a NaN is not even the same as itself. -/
structure BoundOnce (keys bound : List Value) : Prop where
  isKey : ∀ v ∈ bound, v ∈ keys ∧ v.isNull = false
  once : ∀ v ∈ keys, v.isNull = false → v.isProper = true → bound.countP (·.same v) = 1

namespace Engine

theorem mem_of_mem_distinct {found vs : List Value} {v : Value} (h : v ∈ distinct found vs) :
    v ∈ found ∨ v ∈ vs := by
  fun_induction distinct found vs with
  | case1 found => exact .inl (List.mem_reverse.1 h)
  | case2 found w vs hskip ih => exact (ih h).imp_right (List.mem_cons_of_mem w)
  | case3 found w vs hnew ih =>
    obtain hmem | hmem := ih h
    · obtain rfl | hmem := List.mem_cons.1 hmem
      · exact .inr List.mem_cons_self
      · exact .inl hmem
    · exact .inr (List.mem_cons_of_mem w hmem)

/-- Among values that are all different, one is the same as a value if any is. -/
theorem countP_same {vs : List Value} {v : Value}
    (hvs : vs.Pairwise fun u w => u.same w = false) (hv : ∃ u ∈ vs, u.same v = true) :
    vs.countP (·.same v) = 1 := by
  induction vs with
  | nil => simp at hv
  | cons u vs ih =>
    rw [List.pairwise_cons] at hvs
    rw [List.countP_cons]
    by_cases hu : u.same v = true
    · have hnone : vs.countP (·.same v) = 0 := by
        refine List.countP_eq_zero.2 fun w hw hwv => ?_
        have hcomm : v.same w = true := by rwa [Value.same_comm]
        exact absurd (Value.same_trans hu hcomm) (Bool.eq_false_iff.1 (hvs.1 w hw))
      rw [hnone, if_pos hu]
    · obtain ⟨w, hw, hwv⟩ := hv
      obtain rfl | hw := List.mem_cons.1 hw
      · exact absurd hwv hu
      · rw [ih hvs.2 ⟨w, hw, hwv⟩, if_neg hu]

/-- What the chunks of keys bind together. -/
theorem boundOnce_keyChunks (keys : List Value) : BoundOnce keys (keyChunks keys).flatten := by
  rw [flatten_keyChunks]
  refine ⟨fun v hv => ⟨?_, isNull_of_mem_distinct (List.forall_mem_nil _) v hv⟩, ?_⟩
  · exact (mem_of_mem_distinct hv).resolve_left List.not_mem_nil
  · intro v hv hnull hproper
    exact countP_same (pairwise_distinct List.Pairwise.nil)
      (exists_same_of_mem hv hnull (Value.same_self hproper))

end Engine

/-! ### Statements -/

/-- The column of the related rows in which a relation looks for keys. -/
def Relation.column? (relation : Relation) (other : Resource) : Option String :=
  match relation.link with
  | .belongsTo _ => other.primaryKey.toOption.map (·.1.name)
  | .hasMany field => some field

namespace Target

variable {g : Registry} {t : Target} {relation : Relation}

/-- The rows of the target are matched with those of another resource, the field at a position with
a column. -/
structure Joins (g : Registry) (t : Target) (relation : Relation) (i : Nat) (other : Resource)
    (column : String) : Prop where
  index : t.joinIndex relation = .ok i
  target : g.lookup? relation.target = some other
  column : relation.column? other = some column

/-- Every relation of a registry that was built has both sides. -/
theorem exists_joins (hg : g.Consistent) (ht : t.resource ∈ g.resources)
    (hrelation : relation ∈ t.schema.relations) :
    ∃ i other column, t.Joins g relation i other column := by
  obtain ⟨i, -, hi⟩ := exists_joinIndex hg ht hrelation
  obtain ⟨other, hother, hlink⟩ :=
    Registry.checkRelation_eq_ok_iff.1 (hg.relations t.resource ht relation hrelation)
  cases hkind : relation.link with
  | belongsTo field =>
    rw [hkind] at hlink
    obtain ⟨⟨pk, j⟩, hkey⟩ := Schema.exists_primaryKey_of_hasSingleKey hlink other.name
    exact ⟨i, other, pk.name, hi, hother, by
      simp only [Relation.column?, hkind, Resource.primaryKey, hkey]
      rfl⟩
  | hasMany field => exact ⟨i, other, field, hi, hother, by rw [Relation.column?, hkind]⟩

/-- The statements load the relation of the entities: each of them selects the rows with some keys,
and together they bind the keys that the entities hold. -/
def Loads (g : Registry) (t : Target) (entities : List Entity) (relation : Relation)
    (batch : List Sql) : Prop :=
  ∃ i other column, t.Joins g relation i other column ∧
    (∀ sql ∈ batch, ∃ keys,
      sql = (Target.make other t.space t.dialect).selectIn other.schema.indices column keys) ∧
    BoundOnce (entities.filterMap (·.getAt? i)) (batch.flatMap params)

/-- Nothing has to be sent for no entities. -/
theorem loads_nil {i : Nat} {other : Resource} {column : String}
    (h : t.Joins g relation i other column) : t.Loads g [] relation [] :=
  ⟨i, other, column, h, List.forall_mem_nil _, List.forall_mem_nil _, List.forall_mem_nil _⟩

/-- What is attached to the entities does not change their keys. -/
theorem loads_map {entities : List Entity} {batch : List Sql} {attach : Entity → Entity}
    (hattach : ∀ e, (attach e).values = e.values) :
    t.Loads g (entities.map attach) relation batch ↔ t.Loads g entities relation batch := by
  have hkeys (i : Nat) :
      (entities.map attach).filterMap (·.getAt? i) = entities.filterMap (·.getAt? i) := by
    rw [List.filterMap_map]
    refine List.filterMap_congr fun e _ => ?_
    simp only [Function.comp_apply, Entity.getAt?, hattach]
  simp only [Loads, hkeys]

/-- A query for related rows binds its keys. -/
theorem params_selectIn (projection : List Nat) (column : String) (keys : List Value) :
    params (t.selectIn projection column keys) = keys := by
  simp [selectIn, selectFrom, columns, table]

/-- The statements by which a task finds its own rows. -/
inductive Leads (t : Target) : Task → List Sql → Prop where
  | fetchOne {key : Value} {projection : List Nat} {sql : Sql}
    (hsql : t.selectOne projection key = .ok sql) (relations : List Relation) :
    Leads t (.fetchOne key projection relations) [sql]
  | counted (page : PageSelection) (projection : List Nat) (relations : List Relation) :
    Leads t (.fetchPage page projection relations) [page.count]
  | selected (page : PageSelection) (projection : List Nat) (relations : List Relation) :
    Leads t (.fetchPage page projection relations) [page.count, page.select]

end Target

/-! ### Runs -/

namespace Engine

variable {O : Oracle} {g : Registry} {t : Target} {k : Connection} {h h' : History} {sql : Sql}

theorem sent_query {rows : List Row} (hrun : (O.store.query k sql).on h = (.ok rows, h')) :
    Sent h h' [sql] := by
  obtain ⟨-, rfl⟩ := history_of_query hrun
  exact sent_append h rfl

/-- A first row that has come is the answer to one statement. -/
theorem sent_firstRow {p : Problem} {row : Row}
    (hrun : (firstRow O.store k sql p).on h = (.ok row, h')) : Sent h h' [sql] := by
  obtain ⟨rows, h₁, hquery, hpure⟩ := exists_of_on_bind hrun
  cases rows with
  | nil => exact nomatch hpure
  | cons row rows =>
    obtain ⟨-, rfl⟩ := of_on_pure hpure
    exact sent_query hquery

/-- A count that has come is the answer to one statement. -/
theorem sent_fetchCount {count : UInt64}
    (hrun : (fetchCount O.store k sql).on h = (.ok count, h')) : Sent h h' [sql] := by
  obtain ⟨rows, h₁, hquery, hcount⟩ := exists_of_on_bind hrun
  split at hcount
  · obtain ⟨-, rfl⟩ := of_on_pure hcount
    exact sent_query hquery
  · exact nomatch hcount

/-- Related rows that have come are the answers to one statement a chunk, in order. -/
theorem sent_relatedRows {column : String} {keys : List (List Value)} {found : List Entity}
    (hrun : (relatedRows O.store t k column keys).on h = (.ok found, h')) :
    Sent h h' (keys.map (t.selectIn t.schema.indices column)) := by
  induction keys generalizing found h with
  | nil =>
    obtain ⟨-, rfl⟩ := of_on_pure hrun
    exact .refl h'
  | cons chunk keys ih =>
    obtain ⟨rows, h₁, hquery, hdecoded⟩ := exists_of_on_bind hrun
    obtain ⟨here, h₂, hdecode, hothers⟩ := exists_of_on_bind hdecoded
    obtain ⟨-, rfl⟩ := of_on_ofExcept hdecode
    obtain ⟨others, h₃, hothers, hpure⟩ := exists_of_on_bind hothers
    obtain ⟨-, rfl⟩ := of_on_pure hpure
    exact (sent_query hquery).trans (ih hothers)

/-- The chunks of the keys that some entities hold load the relation. -/
theorem loads_keyChunks {relation : Relation} {i : Nat} {other : Resource} {column : String}
    (hjoins : t.Joins g relation i other column) {entities : List Entity} {keys : List Value}
    (hkeys : keys = entities.filterMap (·.getAt? i)) :
    t.Loads g entities relation
      ((keyChunks keys).map
        ((Target.make other t.space t.dialect).selectIn other.schema.indices column)) := by
  refine ⟨i, other, column, hjoins, List.forall_mem_map.2 fun keys _ => ⟨keys, rfl⟩, ?_⟩
  have hbound : ((keyChunks keys).map
      ((Target.make other t.space t.dialect).selectIn other.schema.indices column)).flatMap params =
        (keyChunks keys).flatten := by
    rw [List.flatMap_map]
    simp only [Target.params_selectIn, List.flatMap_id']
  rw [hbound, ← hkeys]
  exact boundOnce_keyChunks keys

/-- Something is attached to each of the entities, which stay what they are. -/
def IsAttached (entities loaded : List Entity) : Prop :=
  ∃ attach : Entity → Entity, loaded = entities.map attach ∧
    ∀ e, (attach e).schema = e.schema ∧ (attach e).values = e.values

theorem IsAttached.refl (entities : List Entity) : IsAttached entities entities :=
  ⟨id, (List.map_id _).symm, fun _ => ⟨rfl, rfl⟩⟩

theorem IsAttached.trans {entities middle loaded : List Entity} (h : IsAttached entities middle)
    (h' : IsAttached middle loaded) : IsAttached entities loaded := by
  obtain ⟨f, rfl, hf⟩ := h
  obtain ⟨f', rfl, hf'⟩ := h'
  exact ⟨f' ∘ f, List.map_map, fun e =>
    ⟨(hf' (f e)).1.trans (hf e).1, (hf' (f e)).2.trans (hf e).2⟩⟩

/-- What entities load does not depend on what is attached to them. -/
theorem IsAttached.loads_iff {entities loaded : List Entity} (h : IsAttached entities loaded)
    {relation : Relation} {batch : List Sql} :
    t.Loads g loaded relation batch ↔ t.Loads g entities relation batch := by
  obtain ⟨attach, rfl, hattach⟩ := h
  exact Target.loads_map fun e => (hattach e).2

theorem IsAttached.schema {entities loaded : List Entity} (h : IsAttached entities loaded)
    {s : Schema} (hs : ∀ e ∈ entities, e.schema = s) : ∀ e ∈ loaded, e.schema = s := by
  obtain ⟨attach, rfl, hattach⟩ := h
  exact List.forall_mem_map.2 fun e he => (hattach e).1.trans (hs e he)

/-- Loading a relation. -/
theorem sent_loadRelation {relation : Relation} {i : Nat} {other : Resource} {column : String}
    (hjoins : t.Joins g relation i other column) {entities loaded : List Entity}
    (hschema : ∀ e ∈ entities, e.schema = t.schema)
    (hrun : (loadRelation O.store g t k relation entities).on h = (.ok loaded, h')) :
    ∃ batch, Sent h h' batch ∧ t.Loads g entities relation batch ∧ IsAttached entities loaded := by
  unfold loadRelation at hrun
  rw [hjoins.target] at hrun
  have hcolumn := hjoins.column
  unfold Relation.column? at hcolumn
  cases hlink : relation.link with
  | belongsTo field =>
    rw [hlink] at hrun hcolumn
    obtain ⟨⟨pk, j⟩, h₁, hread, hload⟩ := exists_of_on_bind hrun
    obtain ⟨hkey, rfl⟩ := of_on_ofExcept hread
    obtain ⟨found, h₂, hrows, hpure⟩ := exists_of_on_bind hload
    obtain ⟨rfl, rfl⟩ := of_on_pure hpure
    rw [hkey] at hcolumn
    obtain rfl : pk.name = column := Option.some.inj hcolumn
    have hkeys : entities.filterMap (·.get? field) = entities.filterMap (·.getAt? i) :=
      List.filterMap_congr fun e he => get?_of_fieldIndex? (hschema e he)
        (Target.fieldIndex?_of_joinIndex hlink hjoins.index)
    exact ⟨_, sent_relatedRows hrows, loads_keyChunks hjoins hkeys, _, rfl, fun e => ⟨rfl, rfl⟩⟩
  | hasMany field =>
    rw [hlink] at hrun hcolumn
    obtain ⟨⟨pk, j⟩, h₁, hread, hload⟩ := exists_of_on_bind hrun
    obtain ⟨hkey, rfl⟩ := of_on_ofExcept hread
    obtain ⟨found, h₂, hrows, hpure⟩ := exists_of_on_bind hload
    obtain ⟨rfl, rfl⟩ := of_on_pure hpure
    obtain rfl : field = column := Option.some.inj hcolumn
    obtain ⟨pk', hindex⟩ := Target.primaryKey_of_joinIndex hlink hjoins.index
    obtain rfl : j = i := congrArg Prod.snd (Except.ok.inj (hkey.symm.trans hindex))
    exact ⟨_, sent_relatedRows hrows, loads_keyChunks hjoins rfl, _, rfl, fun e => ⟨rfl, rfl⟩⟩

/-- Loading relations one after another sends a batch for each of them. -/
theorem sent_loadRelations {relations : List Relation}
    (hjoins : ∀ r ∈ relations, ∃ i other column, t.Joins g r i other column)
    {entities loaded : List Entity} (hschema : ∀ e ∈ entities, e.schema = t.schema)
    (hrun : (loadRelations O.store g t k relations entities).on h = (.ok loaded, h')) :
    ∃ batches, Sent h h' batches.flatten ∧ IsAttached entities loaded ∧
      List.Forall₂ (t.Loads g loaded) relations batches := by
  induction relations generalizing entities h with
  | nil =>
    obtain ⟨rfl, rfl⟩ : entities = loaded ∧ h' = h := by cases entities <;> exact of_on_pure hrun
    exact ⟨[], .refl h', .refl entities, .nil⟩
  | cons relation relations ih =>
    rw [List.forall_mem_cons] at hjoins
    obtain ⟨⟨i, other, column, hjoin⟩, hjoins⟩ := hjoins
    cases entities with
    | nil =>
      have hrest : (loadRelations O.store g t k relations []).on h = (.ok loaded, h') := by
        cases relations <;> exact hrun
      obtain ⟨batches, hsent, hattached, hbatches⟩ := ih hjoins hschema hrest
      refine ⟨[] :: batches, hsent, hattached, .cons ?_ hbatches⟩
      exact hattached.loads_iff.2 (Target.loads_nil hjoin)
    | cons e es =>
      obtain ⟨middle, h₁, hload, hrest⟩ := exists_of_on_bind hrun
      obtain ⟨batch, hsent, hloads, hattached⟩ := sent_loadRelation hjoin hschema hload
      obtain ⟨batches, hothers, hlater, hbatches⟩ := ih hjoins (hattached.schema hschema) hrest
      refine ⟨batch :: batches, hsent.trans hothers, hattached.trans hlater, .cons ?_ hbatches⟩
      exact (hattached.trans hlater).loads_iff.2 hloads

section

variable {projection : List Nat} {relations : List Relation}
  (hjoins : ∀ r ∈ relations, ∃ i other column, t.Joins g r i other column)

include hjoins

/-- A row that has been fetched took its own statement, and one batch for each relation. -/
theorem sent_fetchOne {key : Value} {e : Entity}
    (hrun : (fetchOne O.store g t k key projection relations).on h = (.ok e, h')) :
    ∃ own batches, t.Leads (.fetchOne key projection relations) own ∧
      Sent h h' (own ++ batches.flatten) ∧ List.Forall₂ (t.Loads g [e]) relations batches := by
  obtain ⟨sql, h₁, hselect, hfetch⟩ := exists_of_on_bind hrun
  obtain ⟨hsql, rfl⟩ := of_on_ofExcept hselect
  obtain ⟨row, h₂, hfirst, hdecode⟩ := exists_of_on_bind hfetch
  obtain ⟨e₀, h₃, hread, hattaching⟩ := exists_of_on_bind hdecode
  obtain ⟨hrow, rfl⟩ := of_on_ofExcept hread
  obtain ⟨loaded, h₄, hload, hpure⟩ := exists_of_on_bind hattaching
  have hschema : ∀ e ∈ [e₀], e.schema = t.schema :=
    List.forall_mem_singleton.2 (Entity.frame_ofRow hrow).1
  obtain ⟨batches, hsent, ⟨attach, rfl, -⟩, hbatches⟩ := sent_loadRelations hjoins hschema hload
  obtain ⟨rfl, rfl⟩ := of_on_pure hpure
  exact ⟨[sql], batches, .fetchOne hsql relations, (sent_firstRow hfirst).trans hsent, hbatches⟩

/-- A page that has been fetched took its own statements, and one batch for each relation. -/
theorem sent_fetchPage {p : PageSelection} {page : Page}
    (hrun : (fetchPage O.store g t k p projection relations).on h = (.ok page, h')) :
    ∃ own batches, t.Leads (.fetchPage p projection relations) own ∧
      Sent h h' (own ++ batches.flatten) ∧
      List.Forall₂ (t.Loads g page.slice) relations batches := by
  obtain ⟨count, h₁, hcount, hfetch⟩ := exists_of_on_bind hrun
  have hcounted := sent_fetchCount hcount
  by_cases hzero : count = 0
  · rw [if_pos hzero] at hfetch
    obtain ⟨rfl, rfl⟩ := of_on_pure hfetch
    -- Nothing is selected, which is as if no row had been.
    have hnone : (loadRelations O.store g t k relations []).on h' = (.ok [], h') := by
      cases relations <;> rfl
    obtain ⟨batches, hsent, -, hbatches⟩ :=
      sent_loadRelations hjoins (List.forall_mem_nil _) hnone
    exact ⟨[p.count], batches, .counted p projection relations, hcounted.trans hsent, hbatches⟩
  · rw [if_neg hzero] at hfetch
    obtain ⟨rows, h₂, hquery, hdecode⟩ := exists_of_on_bind hfetch
    obtain ⟨es, h₃, hread, hattaching⟩ := exists_of_on_bind hdecode
    obtain ⟨hrows, rfl⟩ := of_on_ofExcept hread
    obtain ⟨slice, h₄, hload, hpure⟩ := exists_of_on_bind hattaching
    have hschema : ∀ e ∈ es, e.schema = t.schema :=
      Target.forall_of_mapM (fun _ _ hrow => (Entity.frame_ofRow hrow).1) hrows
    obtain ⟨batches, hsent, -, hbatches⟩ := sent_loadRelations hjoins hschema hload
    obtain ⟨rfl, rfl⟩ := of_on_pure hpure
    refine ⟨[p.count, p.select], batches, .selected p projection relations, ?_, hbatches⟩
    exact (hcounted.trans (sent_query hquery)).trans hsent

end

/-- A fetch that comes to its end has sent the statements for its own rows, and then a batch for
each of its relations. -/
theorem sent_run {g : Engine} {q : Query} {plan : Plan} (hg : g.registry.Consistent)
    (ht : plan.target.resource ∈ g.registry.resources)
    (hchecked : g.Checked q plan.target plan.task) (haction : q.action = .fetch) {output : Output}
    (hrun : (g.run O.store plan k).on h = (.ok output, h')) :
    ∃ own batches, plan.target.Leads plan.task own ∧ Sent h h' (own ++ batches.flatten) ∧
      List.Forall₂ (plan.target.Loads g.registry output.entities) plan.task.relations batches := by
  obtain ⟨t, task⟩ := plan
  cases hchecked with
  | fetchOne hfields hrelations hkey =>
    have hdeclared := (Target.resolved_of_relations hfields hrelations).declared
    obtain ⟨e, h₁, hfetch, hpure⟩ := exists_of_on_bind hrun
    obtain ⟨rfl, rfl⟩ := of_on_pure hpure
    exact sent_fetchOne (fun r hr => Target.exists_joins hg ht (hdeclared r hr)) hfetch
  | fetchPage hfields hrelations hpage =>
    have hdeclared := (Target.resolved_of_relations hfields hrelations).declared
    obtain ⟨page, h₁, hfetch, hpure⟩ := exists_of_on_bind hrun
    obtain ⟨rfl, rfl⟩ := of_on_pure hpure
    exact sent_fetchPage (fun r hr => Target.exists_joins hg ht (hdeclared r hr)) hfetch
  | create _ hother | replace _ _ _ hother | partialUpdate _ _ hother | delete _ hother =>
    exact nomatch haction.symm.trans hother

end Engine

end ResourceEngine
