import ResourceEngine.Proofs.Engine.Evaluation
import ResourceEngine.Proofs.Engine.Rejection
import ResourceEngine.Proofs.Store.Finishing

/-!
# Returned fields are stored columns

The list of columns that is sent and the positions that the answer is decoded with are made in
different places, and both are widened for relations in between. Here they are followed to what is
returned: with a store that evaluates lists of columns by name, every field that was selected holds
what the row does, and every other field is zero.
-/

namespace ResourceEngine

namespace Engine

open Work

section Calls

variable {O : Oracle} {g : Registry} {picks : Picks} {t : Target} {k : Connection}
  {h h₀ h' : History} {sql : Sql} {names : List String}

/-- A query that is answered with rows is one more exchange. -/
theorem history_of_query {rows : List Row} (hrun : (O.store.query k sql).on h = (.ok rows, h')) :
    O.query h k sql = .ok rows ∧ h' = h ++ [.query k sql (.ok rows)] := by
  obtain ⟨hanswer, rfl⟩ := Prod.mk.inj hrun
  have hanswer : O.query h k sql = .ok rows := hanswer
  rw [← hanswer]
  exact ⟨rfl, rfl⟩

/-- A count only adds to the history. -/
theorem prefix_of_fetchCount {count : UInt64}
    (hrun : (fetchCount O.store k sql).on h = (.ok count, h')) : h <+: h' := by
  obtain ⟨rows, h₁, hquery, hcount⟩ := exists_of_on_bind hrun
  obtain ⟨-, rfl⟩ := history_of_query hquery
  split at hcount
  · obtain ⟨-, rfl⟩ := of_on_pure hcount
    exact List.prefix_append ..
  · exact nomatch hcount

section Rows

variable (hO : O.Evaluates picks)

include hO

/-- The rows of an answer are those that the store has picked. -/
theorem rows_of_query {columns : List String} (hcolumns : Sql.columnList? sql = some columns)
    {rows : List Row} (hrun : (O.store.query k sql).on h = (.ok rows, h')) :
    h <+: h' ∧ rows = (picks h k sql).map (·.read columns) ∧
      picks.Asked h h' sql (picks h k sql) := by
  obtain ⟨hanswer, rfl⟩ := history_of_query hrun
  exact ⟨List.prefix_append .., hO h k sql columns rows hcolumns hanswer, h, k, _,
    List.prefix_rfl, List.prefix_rfl, rfl⟩

/-- The first row of an answer is the first that the store has picked. -/
theorem row_of_firstRow {columns : List String} (hcolumns : Sql.columnList? sql = some columns)
    {p : Problem} {row : Row} (hrun : (firstRow O.store k sql p).on h = (.ok row, h')) :
    h <+: h' ∧ ∃ stored rest, picks h k sql = stored :: rest ∧ row = stored.read columns ∧
      picks.Asked h h' sql (stored :: rest) := by
  obtain ⟨rows, h₁, hquery, hrun⟩ := exists_of_on_bind hrun
  obtain ⟨hgrows, hrows, hasked⟩ := rows_of_query hO hcolumns hquery
  cases hpicks : picks h k sql with
  | nil =>
    rw [hpicks] at hrows
    subst hrows
    exact nomatch hrun
  | cons stored rest =>
    rw [hpicks] at hrows hasked
    subst hrows
    obtain ⟨rfl, rfl⟩ := of_on_pure hrun
    exact ⟨hgrows, stored, rest, rfl, rfl, hasked⟩

/-- What a write gives back is the row as it is stored. -/
theorem shows_of_writtenRow (hfit : picks.Fit t) {others : List String}
    (hsql : t.Compiled others sql) (hcolumns : Sql.columnList? sql = some t.schema.columns)
    {p : Problem} {e : Entity} (hrun : (writtenRow O.store t k sql p).on h = (.ok e, h')) :
    h <+: h' ∧ ∃ stored rest, picks.Asked h h' sql (stored :: rest) ∧
      t.schema.Shows (fun _ => True) stored e ∧ picks.Attached g h h' t [] e := by
  obtain ⟨row, h₁, hfirst, hdecode⟩ := exists_of_on_bind hrun
  obtain ⟨hgrows, stored, rest, hpicks, rfl, hasked⟩ := row_of_firstRow hO hcolumns hfirst
  obtain ⟨hrow, rfl⟩ := of_on_ofExcept hdecode
  have hkeeps := hfit others sql hsql h k stored (hpicks ▸ List.mem_cons_self)
  rw [← t.schema.columnsAt_indices] at hrow
  obtain ⟨hshows, hnone⟩ := shows_of_ofRow t.schema.isProjection_indices
    (fun _ _ => mem_indices_iff) hkeeps hrow
  exact ⟨hgrows, stored, rest, hasked, hshows, Picks.attached_of_relations hnone⟩

/-- Related rows are entities of rows that have been looked up, chunk by chunk. -/
theorem lookedUp_of_relatedRows (hfit : picks.Fit t) {column : String}
    {keys : List (List Value)} {found : List Entity}
    (hrun : (relatedRows O.store t k column keys).on h = (.ok found, h')) :
    h <+: h' ∧ ∀ e ∈ found, picks.LookedUp h h' t e := by
  induction keys generalizing found h with
  | nil =>
    obtain ⟨rfl, rfl⟩ := of_on_pure hrun
    exact ⟨List.prefix_rfl, List.forall_mem_nil _⟩
  | cons chunk keys ih =>
    obtain ⟨rows, h₁, hquery, hdecoded⟩ := exists_of_on_bind hrun
    obtain ⟨here, h₂, hdecode, hothers⟩ := exists_of_on_bind hdecoded
    obtain ⟨others, h₃, hothers, hpure⟩ := exists_of_on_bind hothers
    obtain ⟨rfl, rfl⟩ := of_on_pure hpure
    obtain ⟨hrows, rfl⟩ := of_on_ofExcept hdecode
    obtain ⟨hgrows, rfl, hasked⟩ :=
      rows_of_query hO (t.columnList?_selectIn column chunk) hquery
    obtain ⟨hrest, hlooked⟩ := ih hothers
    have hkeeps := hfit _ _ (.selectIn t.schema.indices column chunk) h k
    rw [← t.schema.columnsAt_indices] at hrows
    have hpairs := forall₂_shows t.schema.isProjection_indices (fun _ _ => mem_indices_iff) hkeeps
      hrows
    refine ⟨hgrows.trans hrest, ?_⟩
    rw [List.forall_mem_append]
    constructor
    · intro e he
      obtain ⟨stored, hstored, hshows, hrelations⟩ := exists_mem_of_forall₂ hpairs he
      exact ⟨hrelations, column, chunk, stored, _, hasked.mono List.prefix_rfl hrest, hstored,
        hshows⟩
    · exact fun e he => (hlooked e he).mono hgrows List.prefix_rfl

end Rows

section Targets

variable (hO : O.Keeps g t picks)

include hO

/-! ### Loading relations -/

/-- What is attached out of the rows of the relation's target has been looked up there. -/
theorem attaching_of_relatedRows {relation : Relation} {other : Resource}
    (hname : relation.name ∈ names) (hrelation : t.schema.relation? relation.name = some relation)
    (hother : g.lookup? relation.target = some other) {related : List Entity → Entity → Related}
    (hrelated : ∀ found e, (related found e).entities ⊆ found) {column : String}
    {chunks : List (List Value)} {entities loaded : List Entity}
    (hrun : (do
      let found ← relatedRows O.store (Target.make other t.space t.dialect) k column chunks
      return entities.map fun e => e.setRelation relation.name (related found e) :
        Work History (List Entity)).on h = (.ok loaded, h')) :
    h <+: h' ∧ ∃ attach, loaded = entities.map attach ∧
      picks.Attaching g h h' t names attach := by
  obtain ⟨found, h₁, hrows, hpure⟩ := exists_of_on_bind hrun
  obtain ⟨rfl, rfl⟩ := of_on_pure hpure
  have hfit := hO.related relation (List.mem_of_find?_eq_some hrelation) other hother
  obtain ⟨hgrows, hfound⟩ := lookedUp_of_relatedRows hO.evaluates hfit hrows
  exact ⟨hgrows, _, rfl,
    Picks.attaching_setRelation hname hrelation hother hgrows hfound (hrelated found)⟩

/-- What is attached has been looked up in the table of the relation's target. -/
theorem attaching_of_loadRelation {relation : Relation}
    (hname : relation.name ∈ names) (hrelation : t.schema.relation? relation.name = some relation)
    {entities loaded : List Entity}
    (hrun : (loadRelation O.store g t k relation entities).on h = (.ok loaded, h')) :
    h <+: h' ∧ ∃ attach, loaded = entities.map attach ∧
      picks.Attaching g h h' t names attach := by
  unfold loadRelation at hrun
  cases hother : g.lookup? relation.target with
  | none =>
    rw [hother] at hrun
    exact nomatch hrun
  | some other =>
    rw [hother] at hrun
    simp only at hrun
    -- Either way the rows are those of the target's table; only which of them go where differs.
    cases hlink : relation.link with
    | belongsTo field =>
      rw [hlink] at hrun
      obtain ⟨⟨pk, i⟩, h₁, hkey, hload⟩ := exists_of_on_bind hrun
      obtain ⟨-, rfl⟩ := of_on_ofExcept hkey
      refine attaching_of_relatedRows hO hname hrelation hother ?_ hload
      intro found e r hr
      exact List.mem_of_find?_eq_some (Option.mem_toList.1 hr)
    | hasMany field =>
      rw [hlink] at hrun
      obtain ⟨⟨pk, i⟩, h₁, hkey, hload⟩ := exists_of_on_bind hrun
      obtain ⟨-, rfl⟩ := of_on_ofExcept hkey
      refine attaching_of_relatedRows hO hname hrelation hother ?_ hload
      exact fun found e r hr => List.mem_of_mem_filter hr

/-- What several relations attach has been looked up for each of them. -/
theorem attaching_of_loadRelations {relations : List Relation}
    (hrelations : ∀ r ∈ relations, r.name ∈ names ∧ t.schema.relation? r.name = some r)
    {entities loaded : List Entity}
    (hrun : (loadRelations O.store g t k relations entities).on h = (.ok loaded, h')) :
    h <+: h' ∧ ∃ attach, loaded = entities.map attach ∧
      picks.Attaching g h h' t names attach := by
  induction relations generalizing entities h with
  | nil =>
    obtain ⟨rfl, rfl⟩ : entities = loaded ∧ h' = h := by cases entities <;> exact of_on_pure hrun
    exact ⟨List.prefix_rfl, id, (List.map_id _).symm, Picks.attaching_id⟩
  | cons relation relations ih =>
    cases entities with
    | nil =>
      obtain ⟨rfl, rfl⟩ := of_on_pure hrun
      exact ⟨List.prefix_rfl, id, rfl, Picks.attaching_id⟩
    | cons e es =>
      rw [List.forall_mem_cons] at hrelations
      obtain ⟨here, h₁, hload, hrest⟩ := exists_of_on_bind hrun
      obtain ⟨hfirst, attach, rfl, hattach⟩ :=
        attaching_of_loadRelation hO hrelations.1.1 hrelations.1.2 hload
      obtain ⟨hlast, attach', rfl, hattach'⟩ := ih hrelations.2 hrest
      refine ⟨hfirst.trans hlast, attach' ∘ attach, ?_, hattach.comp hattach' hfirst⟩
      rw [List.map_map]

/-! ### Tasks -/

/-- The row with a key, and the relations that are asked for. -/
theorem shows_of_fetchOne {projection : List Nat}
    (hprojection : t.schema.IsProjection projection) {selected : Field → Prop}
    (hselected : ∀ i f, t.schema.fields[i]? = some f → (i ∈ projection ↔ selected f))
    {relations : List Relation}
    (hrelations : ∀ r ∈ relations, r.name ∈ names ∧ t.schema.relation? r.name = some r)
    {key : Value} {e : Entity}
    (hrun : (fetchOne O.store g t k key projection relations).on h = (.ok e, h')) :
    h <+: h' ∧ ∃ sql stored rest, t.selectOne projection key = .ok sql ∧
      picks.Asked h h' sql (stored :: rest) ∧ t.schema.Shows selected stored e ∧
      picks.Attached g h h' t names e := by
  obtain ⟨sql, h₁, hselect, hfetch⟩ := exists_of_on_bind hrun
  obtain ⟨hsql, heq⟩ := of_on_ofExcept hselect
  subst h₁
  obtain ⟨row, h₂, hfirst, hdecode⟩ := exists_of_on_bind hfetch
  obtain ⟨hbefore, stored, rest, hpicks, rfl, hasked⟩ :=
    row_of_firstRow hO.evaluates (Target.columnList?_of_selectOne hsql) hfirst
  obtain ⟨e₀, h₃, hread, hattaching⟩ := exists_of_on_bind hdecode
  obtain ⟨hrow, rfl⟩ := of_on_ofExcept hread
  have hkeeps := hO.fit _ _ (.selectOne hsql) h k stored
    (hpicks ▸ List.mem_cons_self)
  obtain ⟨hshows, hnone⟩ := shows_of_ofRow hprojection hselected hkeeps hrow
  obtain ⟨loaded, h₄, hload, hpure⟩ := exists_of_on_bind hattaching
  obtain ⟨hafter, attach, rfl, hattach⟩ :=
    attaching_of_loadRelations hO hrelations hload
  obtain ⟨rfl, rfl⟩ := of_on_pure hpure
  exact ⟨hbefore.trans hafter, sql, stored, rest, hsql, hasked.mono List.prefix_rfl hafter,
    hattach.returned hbefore hshows hnone⟩

/-- A page of rows, and the relations that are asked for. -/
theorem shows_of_fetchPage {projection : List Nat}
    (hprojection : t.schema.IsProjection projection) {selected : Field → Prop}
    (hselected : ∀ i f, t.schema.fields[i]? = some f → (i ∈ projection ↔ selected f))
    {relations : List Relation}
    (hrelations : ∀ r ∈ relations, r.name ∈ names ∧ t.schema.relation? r.name = some r)
    {filter : Option Filter} {w : Window} {p : PageSelection}
    (hp : t.page projection filter w = .ok p) {page : Page}
    (hrun : (fetchPage O.store g t k p projection relations).on h = (.ok page, h')) :
    (page.count = 0 ∧ page.slice = []) ∨ ∃ rows, picks.Asked h h' p.select rows ∧
      List.Forall₂ (fun stored e => t.schema.Shows selected stored e ∧
        picks.Attached g h h' t names e) rows page.slice := by
  obtain ⟨count, h₁, hcount, hfetch⟩ := exists_of_on_bind hrun
  by_cases hzero : count = 0
  · rw [if_pos hzero] at hfetch
    obtain ⟨rfl, rfl⟩ := of_on_pure hfetch
    exact .inl ⟨rfl, rfl⟩
  rw [if_neg hzero] at hfetch
  have hselect := Target.select_of_page hp
  obtain ⟨answer, h₂, hquery, hdecode⟩ := exists_of_on_bind hfetch
  obtain ⟨hbefore, rfl, hasked⟩ :=
    rows_of_query hO.evaluates (Target.columnList?_of_select hselect) hquery
  obtain ⟨es, h₃, hread, hattaching⟩ := exists_of_on_bind hdecode
  obtain ⟨hrows, rfl⟩ := of_on_ofExcept hread
  obtain ⟨slice, h₄, hload, hpure⟩ := exists_of_on_bind hattaching
  obtain ⟨hafter, attach, rfl, hattach⟩ :=
    attaching_of_loadRelations hO hrelations hload
  obtain ⟨rfl, rfl⟩ := of_on_pure hpure
  have hfirst := prefix_of_fetchCount hcount
  have hkeeps := hO.fit _ _ (.select hselect) h₁ k
  have hpairs := forall₂_shows hprojection hselected hkeeps hrows
  refine .inr ⟨_, hasked.mono hfirst hafter, ?_⟩
  rw [List.forall₂_map_right_iff]
  exact hpairs.imp fun stored e he => hattach.returned (hfirst.trans hbefore) he.1 he.2

/-- The row is given back as it has been written. -/
theorem shows_of_replace {e written : Entity}
    (hrun : (replace O.store t k e).on h = (.ok written, h')) :
    ∃ sql stored rest, t.update e = .ok sql ∧ picks.Asked h h' sql (stored :: rest) ∧
      t.schema.Shows (fun _ => True) stored written ∧ picks.Attached g h h' t [] written := by
  obtain ⟨sql, h₁, hupdate, hwrite⟩ := exists_of_on_bind hrun
  obtain ⟨hsql, rfl⟩ := of_on_ofExcept hupdate
  obtain ⟨-, stored, rest, hreturned⟩ :=
    shows_of_writtenRow hO.evaluates hO.fit (.update hsql) (Target.columnList?_of_update hsql)
      hwrite
  exact ⟨sql, stored, rest, hsql, hreturned⟩

/-- An update in part gives the row back as it has been written. -/
theorem shows_of_partialUpdate {key : Value} {body : List UInt8}
    {contentType : String} {written : Entity}
    (hrun : (partialUpdate O.store g t k key body contentType).on h = (.ok written, h')) :
    ∃ e sql stored rest, t.update e = .ok sql ∧ picks.Asked h h' sql (stored :: rest) ∧
      t.schema.Shows (fun _ => True) stored written ∧ picks.Attached g h h' t [] written := by
  obtain ⟨⟨pk, i⟩, h₁, hkey, hwork⟩ := exists_of_on_bind hrun
  obtain ⟨-, rfl⟩ := of_on_ofExcept hkey
  obtain ⟨before, h₂, hfetch, hdecode⟩ := exists_of_on_bind hwork
  have hnone : ∀ r ∈ ([] : List Relation),
      r.name ∈ ([] : List String) ∧ t.schema.relation? r.name = some r := List.forall_mem_nil _
  obtain ⟨hfirst, -⟩ := shows_of_fetchOne hO t.schema.isProjection_indices
    (fun _ _ => mem_indices_iff) hnone hfetch
  obtain ⟨_, h₃, hbody, hreplace⟩ := exists_of_on_bind hdecode
  obtain ⟨-, rfl⟩ := of_on_ofExcept hbody
  obtain ⟨sql, stored, rest, hsql, hasked, hshows, hattached⟩ := shows_of_replace hO hreplace
  exact ⟨_, sql, stored, rest, hsql, hasked.mono hfirst List.prefix_rfl, hshows,
    hattached.mono hfirst List.prefix_rfl⟩

/-- A deletion gives the row back as it was stored. -/
theorem shows_of_delete {key : Value} {deleted : Entity}
    (hrun : (delete O.store t k key).on h = (.ok deleted, h')) :
    ∃ sql stored rest, t.delete key = .ok sql ∧ picks.Asked h h' sql (stored :: rest) ∧
      t.schema.Shows (fun _ => True) stored deleted ∧ picks.Attached g h h' t [] deleted := by
  obtain ⟨sql, h₁, hdelete, hwrite⟩ := exists_of_on_bind hrun
  obtain ⟨hsql, rfl⟩ := of_on_ofExcept hdelete
  obtain ⟨-, stored, rest, hreturned⟩ :=
    shows_of_writtenRow hO.evaluates hO.fit (.delete hsql) (Target.columnList?_of_delete hsql)
      hwrite
  exact ⟨sql, stored, rest, hsql, hreturned⟩

end Targets

end Calls

/-! ### Requests -/

/-- What a checked request returns shows the rows that were picked for its statement: a fetch what
it selects and the relations that it names, and any other action the whole row. -/
theorem returned_of_run {O : Oracle} {picks : Picks} {g : Engine} {q : Query} {plan : Plan}
    {k : Connection} {h h' : History} (hO : O.Keeps g.registry plan.target picks)
    (hnodup : plan.target.schema.columns.Nodup)
    (hchecked : g.Checked q plan.target plan.task) {output : Output}
    (hrun : (g.run O.store plan k).on h = (.ok output, h')) :
    if q.action = .fetch then
      picks.Returned g.registry h h' plan (plan.target.schema.Selects q.fields q.relations)
        q.relations output
    else picks.Returned g.registry h h' plan (fun _ => True) [] output := by
  obtain ⟨t, task⟩ := plan
  -- By what the request has been checked for: each task sends one statement for rows of its own,
  -- and only a fetch names relations.
  cases hchecked with
  | fetchOne hfields hrelations hkey haction =>
    rw [if_pos haction]
    obtain ⟨e, h₁, hfetch, hpure⟩ := exists_of_on_bind hrun
    obtain ⟨rfl, rfl⟩ := of_on_pure hpure
    obtain ⟨-, sql, stored, rest, hsql, hreturned⟩ :=
      shows_of_fetchOne hO (Target.resolved_of_relations hfields hrelations).isProjection
        (fun _ _ => Target.mem_relations_iff hnodup hfields hrelations)
        (Target.named_of_relations hrelations) hfetch
    exact ⟨sql, stored, rest, .fetchOne hsql, hreturned⟩
  | fetchPage hfields hrelations hpage haction =>
    rw [if_pos haction]
    obtain ⟨p, h₁, hfetch, hpure⟩ := exists_of_on_bind hrun
    obtain ⟨rfl, rfl⟩ := of_on_pure hpure
    refine (shows_of_fetchPage hO
      (Target.resolved_of_relations hfields hrelations).isProjection
      (fun _ _ => Target.mem_relations_iff hnodup hfields hrelations)
      (Target.named_of_relations hrelations) hpage hfetch).imp id ?_
    rintro ⟨rows, hreturned⟩
    exact ⟨_, rows, .fetchPage .., hreturned⟩
  | create hbody haction =>
    rw [if_neg (by simp [haction])]
    obtain ⟨e, h₁, hwrite, hpure⟩ := exists_of_on_bind hrun
    obtain ⟨rfl, rfl⟩ := of_on_pure hpure
    obtain ⟨-, stored, rest, hreturned⟩ :=
      shows_of_writtenRow hO.evaluates hO.fit (.insert _) (t.columnList?_insert _) hwrite
    exact ⟨_, stored, rest, .create _, hreturned⟩
  | replace hkey hpk hbody haction =>
    rw [if_neg (by simp [haction])]
    obtain ⟨e, h₁, hwrite, hpure⟩ := exists_of_on_bind hrun
    obtain ⟨rfl, rfl⟩ := of_on_pure hpure
    obtain ⟨sql, stored, rest, hsql, hreturned⟩ := shows_of_replace hO hwrite
    exact ⟨sql, stored, rest, .replace hsql, hreturned⟩
  | partialUpdate hformat hkey haction =>
    rw [if_neg (by simp [haction])]
    obtain ⟨e, h₁, hwrite, hpure⟩ := exists_of_on_bind hrun
    obtain ⟨rfl, rfl⟩ := of_on_pure hpure
    obtain ⟨_, sql, stored, rest, hsql, hreturned⟩ := shows_of_partialUpdate hO hwrite
    exact ⟨sql, stored, rest, .partialUpdate hsql, hreturned⟩
  | delete hkey haction =>
    rw [if_neg (by simp [haction])]
    obtain ⟨e, h₁, hwrite, hpure⟩ := exists_of_on_bind hrun
    obtain ⟨rfl, rfl⟩ := of_on_pure hpure
    obtain ⟨sql, stored, rest, hsql, hreturned⟩ := shows_of_delete hO hwrite
    exact ⟨sql, stored, rest, .delete hsql, hreturned⟩

/-- Returned fields are stored columns. With a store that evaluates lists of columns by name, and
whose rows in the tables that the request may read are of the kinds of their schemas, a fetch returns
in each field that it selects (all of them if it names none, those it names, and those that its
relations are joined on) the value of that field's own column, and zero in the others; any other
action returns the stored row in every field; and so does each entity that is attached. -/
theorem executeIn_returns {definitions : List Resource} {g : Engine} {O : Oracle} {picks : Picks}
    (hg : Registry.build definitions = .ok g.registry) {q : Query}
    (hO : ∀ r, g.registry.lookup? q.resource = some r →
      O.Keeps g.registry (Target.make r (g.space q) O.dialect) picks)
    {ambient : Option Connection} {mode : Propagation} {h h' : History} {output : Output}
    (hrun : (g.executeIn O.store q ambient mode).on h = (.ok (.done output), h')) :
    ∃ r plan, g.registry.lookup? q.resource = some r ∧ g.prepare O.dialect q = .ok plan ∧
      plan.target = Target.make r (g.space q) O.dialect ∧
      if q.action = .fetch then
        picks.Returned g.registry h h' plan (r.schema.Selects q.fields q.relations) q.relations
          output
      else picks.Returned g.registry h h' plan (fun _ => True) [] output := by
  rw [executeIn_on] at hrun
  cases hprepare : g.prepare O.store.dialect q with
  | error p =>
    rw [hprepare] at hrun
    exact nomatch hrun
  | ok plan =>
    rw [hprepare] at hrun
    have hpropagate : (O.store.propagate q.context ambient mode (g.run O.store plan)).on h =
        (.ok (.done output), h') :=
      Prod.ext (eq_of_reworded (Prod.mk.inj hrun).1) (Prod.mk.inj hrun).2
    obtain ⟨r, hlookup, htarget, hchecked⟩ := exists_lookup_of_prepare hprepare
    have hkeeps : O.Keeps g.registry plan.target picks := htarget ▸ hO r hlookup
    have hschema : plan.target.schema = r.schema := by
      rw [htarget]
      rfl
    have hcheck := (Registry.consistent_of_build hg).schemas r (Registry.mem_of_lookup? hlookup)
    have hnodup : plan.target.schema.columns.Nodup :=
      hschema ▸ Schema.nodup_columns_of_check hcheck
    -- The output is that of the work, which has run on one connection within the history of the
    -- call.
    obtain ⟨k, h₀, h₁, hwork, hfirst, hlast⟩ := Oracle.ran_of_propagate hpropagate
    have hreturned := returned_of_run hkeeps hnodup hchecked hwork
    rw [hschema] at hreturned
    refine ⟨r, plan, hlookup, hprepare, htarget, ?_⟩
    split_ifs at hreturned ⊢
    · exact hreturned.mono hfirst hlast
    · exact hreturned.mono hfirst hlast

/-- Answers a statement that lists columns by what the picked rows hold in them. -/
def evaluating (picks : Picks) : Oracle :=
  { Oracle.accepting [] with
    query := fun h k sql =>
      match Sql.columnList? sql with
      | some columns => .ok ((picks h k sql).map (·.read columns))
      | none => .ok [] }

/-- Tasks that may be parts of others. -/
def chores : Resource where
  name := "chores"
  schema :=
    { table := "chores"
      fields :=
        [⟨"id", .integer, false, true, true⟩, ⟨"title", .text, false, false, false⟩,
          ⟨"done", .bool, false, false, false⟩, ⟨"part_of", .integer, true, false, false⟩]
      relations := [⟨"whole", "chores", .belongsTo "part_of"⟩] }
  actions := ActionSet.all

/-- A part that is done of a whole that is not. -/
def choreRows : List StoredRow :=
  [fun column => ([("id", .integer 1), ("title", .text "tidy up")].lookup column).getD <|
      if column = "done" then .bool false else .null,
    fun column => ([("id", .integer 2), ("title", .text "sweep")].lookup column).getD <|
      if column = "done" then .bool true else .integer 1]

/-- The rows whose key the statement has as a parameter. -/
def chorePicks : Picks := fun _ _ sql => choreRows.filter fun stored => .param (stored "id") ∈ sql

/-- The rows that are picked are of the kinds of the fields, and so fit. -/
theorem fit_chores (space : Option String) (d : Dialect) :
    chorePicks.Fit (Target.make chores space d) := by
  intro others sql _ h k stored hstored
  have hrows : ∀ stored ∈ choreRows, chores.schema.Keeps stored := by
    rw [choreRows, List.forall_mem_cons, List.forall_mem_singleton]
    constructor <;> unfold Schema.Keeps <;> decide
  exact hrows stored (List.mem_of_mem_filter hstored)

/-- The store keeps what is asked of it for every target of the chores. -/
theorem keeps_evaluating_chores (space : Option String) (d : Dialect) :
    (evaluating chorePicks).Keeps ⟨[chores]⟩ (Target.make chores space d) chorePicks where
  evaluates h k sql columns rows hcolumns hanswer := by
    have hquery : (evaluating chorePicks).query h k sql =
        .ok ((chorePicks h k sql).map (·.read columns)) := by
      simp only [evaluating, hcolumns]
    exact Except.ok.inj (hanswer.symm.trans hquery)
  fit := fit_chores space d
  related relation _ other hother := by
    obtain rfl := List.mem_singleton.1 (Registry.mem_of_lookup? hother)
    exact fit_chores (Target.make chores space d).space d

/-- The entity that a request has ended with. -/
def entity? : Except Stop (Outcome Output) → Option Entity
  | .ok (.done (.entity e)) => some e
  | _ => none

/-- An entity is told of requests that have given one back. -/
theorem eq_of_entity? {ending : Except Stop (Outcome Output)} {e : Entity}
    (h : entity? ending = some e) : ending = .ok (.done (.entity e)) := by
  unfold entity? at h
  split at h <;> cases h
  rfl

/-- The truth value of a part, asked for twice, is read with the key of its whole, which is attached
with all of its fields. -/
theorem executeIn_returns_chores :
    let g : Engine := ⟨⟨[chores]⟩, .default⟩
    let q : Query := ⟨"chores", .fetch, "2", 0, none, ["done", "done"], ["whole"], [], none, "", "",
      "", [], false, .background⟩
    let r := (g.executeIn (evaluating chorePicks).store q none .current).on []
    ∃ e plan, r.1 = .ok (.done (.entity e)) ∧
      e.values = [.integer 0, .text "", .bool true, .integer 1] ∧
      e.relations.map (fun entry => (entry.1, entry.2.entities.map Entity.values)) =
        [("whole", [[.integer 1, .text "tidy up", .bool false, .null]])] ∧
      chorePicks.Returned g.registry [] r.2 plan (chores.schema.Selects q.fields q.relations)
        q.relations (.entity e) := by
  intro g q r
  have hshown : (entity? r.1).map (fun e => (e.values,
      e.relations.map fun entry => (entry.1, entry.2.entities.map Entity.values))) =
      some ([.integer 0, .text "", .bool true, .integer 1],
        [("whole", [[.integer 1, .text "tidy up", .bool false, .null]])]) := by decide +kernel
  obtain ⟨e, he, hshown⟩ := Option.map_eq_some_iff.1 hshown
  obtain ⟨hfields, hattached⟩ := Prod.mk.inj hshown
  have hending := eq_of_entity? he
  have hbuild : Registry.build [chores] = .ok g.registry := rfl
  have hkeeps : ∀ r, g.registry.lookup? q.resource = some r →
      (evaluating chorePicks).Keeps g.registry (Target.make r (g.space q) .sqlite) chorePicks := by
    rintro r ⟨⟩
    exact keeps_evaluating_chores ..
  obtain ⟨resource, plan, hlookup, -, -, hreturned⟩ :=
    executeIn_returns hbuild hkeeps (Prod.ext hending rfl)
  obtain rfl : chores = resource := Option.some.inj hlookup
  exact ⟨e, plan, hending, hfields, hattached, hreturned⟩

end Engine

end ResourceEngine
