import ResourceEngine.Proofs.Engine.Binding
import ResourceEngine.Proofs.Engine.Returned
import ResourceEngine.Proofs.Engine.Strict

/-!
# Values and the kinds of their fields

Whatever a store answers, every value of every entity that a request gives back is null or of the
kind of its field, since each column of a row is converted or refused. What a request binds fits its
column as well.
-/

namespace ResourceEngine

open Work

/-- Lists stand side by side also after a change that fits. -/
theorem forall₂_set {α β : Type} {R : α → β → Prop} {xs : List α} {ys : List β}
    (h : List.Forall₂ R xs ys) {i : Nat} {y : β} (hy : ∀ x, xs[i]? = some x → R x y) :
    List.Forall₂ R xs (ys.set i y) := by
  induction h generalizing i with
  | nil => exact .nil
  | cons hhead htail ih =>
    cases i with
    | zero => exact .cons (hy _ rfl) htail
    | succ i => exact .cons hhead (ih hy)

/-! ### Entities -/

/-- The values of the entity, and of all entities that have been loaded for it, are null or of the
kinds of their fields, and the schemas are those of registered resources. -/
inductive Entity.Reads (g : Registry) : Entity → Prop where
  | mk {r : Resource} (hr : r ∈ g.resources) {values : List Value}
    (hvalues : List.Forall₂ Field.Reads r.schema.fields values)
    {relations : List (String × Related)}
    (hrelations : ∀ entry ∈ relations, ∀ e ∈ entry.2.entities, Reads g e) :
    Reads g (.mk r.schema values relations)

/-- The entities of an output. -/
def Output.entities : Output → List Entity
  | .entity e => [e]
  | .page p => p.slice

namespace Entity

variable {g : Registry} {r : Resource} {e e' : Entity} {projection : List Nat} {row : Row}
  {rows : List Row}

/-- Assigned columns can be read from their fields. -/
theorem forall₂_reads_of_assignColumns {cells : List (Nat × Value)}
    (he : List.Forall₂ Field.Reads e.schema.fields e.values)
    (h : e.assignColumns cells = .ok e') : List.Forall₂ Field.Reads e'.schema.fields e'.values := by
  fun_induction assignColumns e cells with
  | case1 e =>
    cases h
    exact he
  | case2 e i v rest hfield ih => exact ih he h
  | case3 e i v rest f hfield w hw ih =>
    refine ih (forall₂_set he fun f' hf' => ?_) h
    obtain rfl := Option.some.inj (hfield.symm.trans hf')
    exact Field.reads_of_coerce hw
  | case4 => cases h

/-- The values of a row that has been read can be read from their fields. -/
theorem reads_of_ofRow (hr : r ∈ g.resources) (h : ofRow r.schema projection row = .ok e) :
    e.Reads g := by
  have hzeroed : List.Forall₂ Field.Reads r.schema.fields (zeroed r.schema).values :=
    List.forall₂_map_right_iff.2 (List.forall₂_same.2 fun f _ => f.holds_zero.reads)
  have hvalues := forall₂_reads_of_assignColumns (e := zeroed r.schema) hzeroed
    (assignColumns_of_ofRow h)
  obtain ⟨hschema, hrelations, -⟩ := frame_ofRow h
  obtain ⟨s, values, relations⟩ := e
  obtain rfl : s = r.schema := hschema
  obtain rfl : relations = [] := hrelations
  exact .mk hr hvalues (List.forall_mem_nil _)

/-- The values of several rows that have been read can be read from their fields. -/
theorem reads_of_mapM_ofRow (hr : r ∈ g.resources) {es : List Entity}
    (h : rows.mapM (ofRow r.schema projection) = .ok es) : ∀ e ∈ es, e.Reads g :=
  Target.forall_of_mapM (fun _ _ => reads_of_ofRow hr) h

/-- An entity stays readable with readable entities attached. -/
theorem Reads.setRelation (he : e.Reads g) (name : String) {related : Related}
    (hrelated : ∀ r ∈ related.entities, r.Reads g) : (e.setRelation name related).Reads g := by
  obtain ⟨hr, hvalues, hrelations⟩ := he
  refine .mk hr hvalues fun entry hentry => ?_
  rcases mem_putRelation hentry with rfl | hentry
  · exact hrelated
  · exact hrelations entry hentry

end Entity

/-! ### Requests -/

namespace Engine

variable {σ : Type} (s : Store σ) {g : Registry} {t : Target} (k : Connection)

section

variable (ht : t.resource ∈ g.resources)

include ht

/-- A written row gives a readable entity. -/
theorem reads_writtenRow (sql : Sql) (p : Problem) :
    (writtenRow s t k sql p).Returns (·.Reads g) :=
  (returns_true _).bind fun _ _ => returns_ofExcept fun _ => Entity.reads_of_ofRow ht

/-- Related rows give readable entities. -/
theorem reads_relatedRows (column : String) (keys : List (List Value)) :
    (relatedRows s t k column keys).Returns fun es => ∀ e ∈ es, e.Reads g := by
  induction keys with
  | nil => exact returns_pure (List.forall_mem_nil _)
  | cons chunk keys ih =>
    refine (returns_true _).bind fun rows _ => ?_
    refine (returns_ofExcept fun _ => Entity.reads_of_mapM_ofRow ht).bind fun found hfound => ?_
    exact ih.bind fun others hothers => returns_pure (List.forall_mem_append.2 ⟨hfound, hothers⟩)

end

/-- What is attached to an entity are rows that have been loaded. -/
theorem reads_loadRelation (relation : Relation) {entities : List Entity}
    (hentities : ∀ e ∈ entities, e.Reads g) :
    (loadRelation s g t k relation entities).Returns fun es => ∀ e ∈ es, e.Reads g := by
  unfold loadRelation
  cases hlookup : g.lookup? relation.target with
  | none => exact returns_fail _
  | some other =>
    have hother := Registry.mem_of_lookup? hlookup
    cases relation.link with
    | belongsTo field =>
      refine (returns_true _).bind fun key _ =>
        (reads_relatedRows s (t := Target.make other t.space t.dialect) k hother _ _).bind
          fun related hrelated => returns_pure (List.forall_mem_map.2 fun e he => ?_)
      refine (hentities e he).setRelation _ fun r hr => ?_
      exact hrelated r (List.mem_of_find?_eq_some (Option.mem_toList.1 hr))
    | hasMany field =>
      refine (returns_true _).bind fun key _ =>
        (reads_relatedRows s (t := Target.make other t.space t.dialect) k hother _ _).bind
          fun related hrelated => returns_pure (List.forall_mem_map.2 fun e he => ?_)
      exact (hentities e he).setRelation _ fun r hr => hrelated r (List.mem_of_mem_filter hr)

/-- Entities stay readable when relations are loaded. -/
theorem reads_loadRelations {relations : List Relation} {entities : List Entity}
    (hentities : ∀ e ∈ entities, e.Reads g) :
    (loadRelations s g t k relations entities).Returns fun es => ∀ e ∈ es, e.Reads g := by
  induction relations generalizing entities with
  | nil => cases entities <;> exact returns_pure hentities
  | cons relation relations ih =>
    cases entities with
    | nil => exact returns_pure hentities
    | cons e es => exact (reads_loadRelation s k relation hentities).bind fun loaded => ih

section

variable (ht : t.resource ∈ g.resources)

include ht

/-- One row that is fetched is readable, with all that is attached. -/
theorem reads_fetchOne (key : Value) (projection : List Nat) (relations : List Relation) :
    (fetchOne s g t k key projection relations).Returns (·.Reads g) := by
  refine (returns_true _).bind fun sql _ => (returns_true _).bind fun row _ => ?_
  refine (returns_ofExcept fun _ => Entity.reads_of_ofRow ht).bind fun e he => ?_
  refine (reads_loadRelations s k (List.forall_mem_singleton.2 he)).bind fun loaded hloaded => ?_
  cases loaded with
  | nil => exact returns_pure he
  | cons e es => exact returns_pure (hloaded e List.mem_cons_self)

/-- A page that is fetched is readable, with all that is attached. -/
theorem reads_fetchPage (p : PageSelection) (projection : List Nat) (relations : List Relation) :
    (fetchPage s g t k p projection relations).Returns fun page => ∀ e ∈ page.slice, e.Reads g := by
  refine (returns_true _).bind fun count _ => ?_
  by_cases hcount : count = 0
  · rw [if_pos hcount]
    exact returns_pure (List.forall_mem_nil _)
  · rw [if_neg hcount]
    refine (returns_true _).bind fun rows _ => ?_
    refine (returns_ofExcept fun _ => Entity.reads_of_mapM_ofRow ht).bind fun es hes => ?_
    exact (reads_loadRelations s k hes).bind fun slice hslice => returns_pure hslice

end

/-- Every entity that a request gives back holds values of the kinds of its fields. -/
theorem reads_run {g : Engine} {plan : Plan} (ht : plan.target.resource ∈ g.registry.resources) :
    (g.run s plan k).Returns fun output => ∀ e ∈ output.entities, e.Reads g.registry := by
  have hentity {w : Work σ Entity} (hw : w.Returns (·.Reads g.registry)) :
      (do return Output.entity (← w) : Work σ Output).Returns fun output =>
        ∀ e ∈ output.entities, e.Reads g.registry :=
    hw.bind fun e he => returns_pure (List.forall_mem_singleton.2 he)
  obtain ⟨t, task⟩ := plan
  unfold run
  cases task with
  | fetchOne key projection relations => exact hentity (reads_fetchOne s k ht _ _ _)
  | fetchPage page projection relations =>
    exact (reads_fetchPage s k ht _ _ _).bind fun page hpage => returns_pure hpage
  | create e => exact hentity (reads_writtenRow s k ht _ _)
  | replace e => exact hentity ((returns_true _).bind fun sql _ => reads_writtenRow s k ht _ _)
  | partialUpdate key body contentType =>
    refine hentity ((returns_true _).bind fun _ _ => (returns_true _).bind fun stored _ => ?_)
    exact (returns_true _).bind fun _ _ => (returns_true _).bind fun sql _ =>
      reads_writtenRow s k ht _ _
  | delete key => exact hentity ((returns_true _).bind fun sql _ => reads_writtenRow s k ht _ _)

/-- Values fit their columns. Whatever the store answers, each statement of a request that writes
binds values that stand in columns where they fit: null only for a field that may be null, and
otherwise a value of its kind; the key by which it picks a row is never null and of the kind of the
primary key. Only a partial update may leave null where it was, in a field that the body does not
name. And every value of every entity that a request gives back, at any depth, is null or of the
kind of its field. Converting such a value again changes nothing. -/
theorem executeIn_kinds {definitions : List Resource} {g : Engine}
    (hg : Registry.build definitions = .ok g.registry) (O : Oracle) (q : Query)
    (ambient : Option Connection) (mode : Propagation) (h : History) :
    ∃ ending new, (g.executeIn O.store q ambient mode).on h = (ending, h ++ new) ∧
      (q.action ≠ .fetch → History.Sends (fun past sql =>
        ∃ r, g.registry.lookup? q.resource = some r ∧
          g.BindsFitting q (Target.make r (g.space q) O.dialect) past sql) [] new) ∧
      ∀ output, ending = .ok (.done output) → ∀ e ∈ output.entities, e.Reads g.registry := by
  have hg := Registry.consistent_of_build hg
  rw [executeIn_on]
  cases hplan : g.prepare O.store.dialect q with
  | error p =>
    refine ⟨_, [], by rw [List.append_nil], fun _ => trivial, ?_⟩
    rintro output ⟨⟩
  | ok plan =>
    obtain ⟨r, hlookup, htarget, hchecked⟩ := exists_lookup_of_prepare hplan
    have ht : plan.target.resource ∈ g.registry.resources := by
      rw [htarget]
      exact Registry.mem_of_lookup? hlookup
    -- What the plan sends, on whichever connection and after whatever it is run.
    have hwork : ∀ k h, ∃ inside, ((g.run O.store plan k).on h).2 = h ++ inside ∧
        (∀ x ∈ inside, x.isPlain) ∧ (q.action ≠ .fetch →
          History.Sends (g.BindsFitting q plan.target) [] inside) := by
      intro k h
      obtain ⟨ending, inside, hrun, hqueries, -⟩ := queries_run O hchecked k h
      refine ⟨inside, congrArg Prod.snd hrun, fun x hx => ?_, fun haction => ?_⟩
      · obtain ⟨sql, past, rfl, -⟩ := hqueries x hx
        rfl
      · obtain ⟨inside', hrun', hsends⟩ :=
          sends_run (O := O) (k := k) (h := h) hg ht hchecked haction
        rw [hrun] at hrun'
        exact List.append_cancel_left hrun' ▸ hsends
    obtain ⟨new, hnew, hencloses⟩ := O.encloses_propagate hwork q.context ambient mode h
    refine ⟨_, new, Prod.ext rfl hnew, fun haction => ?_, fun output hending => ?_⟩
    · have hsends : Oracle.Encloses
          (fun _ => History.Sends (g.BindsFitting q plan.target) []) new :=
        hencloses.mono fun _ _ hinside => hinside haction
      rw [htarget] at hsends
      exact (History.sends_of_encloses bindsFitting_after hsends).mono
        fun past sql hsql => ⟨r, hlookup, hsql⟩
    · obtain ⟨k, h₀, h₁, hrun, -⟩ := Oracle.ran_of_propagate
        (Prod.ext (eq_of_reworded hending) rfl)
      exact reads_run O.store k ht h₀ output h₁ hrun

/-- A note without stars, which it ought to have, is given another title: the null that is stored is
bound again, and given back. -/
theorem executeIn_kinds_notes :
    let O := Oracle.accepting [[.integer 7, .text "tea", .null]]
    let g := serving notes
    let q := writing notes .partialUpdate "application/x-www-form-urlencoded" "title=rye"
    let run := (g.executeIn O.store q none .current).on []
    (run.2.filterMap Exchange.statement?).map Sql.params =
        [[.integer 7], [.text "rye", .null, .integer 7]] ∧
      History.Sends (fun past sql => ∃ r, g.registry.lookup? q.resource = some r ∧
        g.BindsFitting q (Target.make r (g.space q) O.dialect) past sql) [] run.2 ∧
      ∃ e, run.1 = .ok (.done (.entity e)) ∧ e.values = [.integer 7, .text "tea", .null] ∧
        e.Reads g.registry := by
  intro O g q run
  have hbuild : Registry.build [notes] = .ok g.registry := rfl
  have hshown : (run.2.filterMap Exchange.statement?).map Sql.params =
      [[.integer 7], [.text "rye", .null, .integer 7]] ∧
      (entity? run.1).map Entity.values = some [.integer 7, .text "tea", .null] := by
    decide +kernel
  obtain ⟨ending, new, hrun, hsends, hreads⟩ := executeIn_kinds hbuild O q none .current []
  have hrun : run = (ending, [] ++ new) := hrun
  -- From here on only the theorem speaks of the run, which is not evaluated again.
  clear_value run
  subst hrun
  obtain ⟨e, he, hvalues⟩ := Option.map_eq_some_iff.1 hshown.2
  have hending : ending = .ok (.done (.entity e)) := eq_of_entity? he
  exact ⟨hshown.1, hsends nofun, e, hending, hvalues,
    hreads _ hending e (List.mem_singleton_self _)⟩

end Engine

end ResourceEngine
