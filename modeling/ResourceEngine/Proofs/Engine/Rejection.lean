import ResourceEngine.Engine.Basic
import ResourceEngine.Proofs.Engine.Asking
import ResourceEngine.Proofs.Engine.Join

/-!
# What is reported as a rejection

An error of kind bad request or forbidden says that the request itself is wrong. All that can be
wrong with a request is found before the store is asked for anything, and nothing that goes wrong
after that is reported so. The checks that execution repeats have passed already: `Checked` tells of
keys and media types, and the registry of the targets of relations.
-/

namespace ResourceEngine

/-- The error is not about the request itself. -/
def Error.IsOperational (e : Error) : Prop := e.kind = .notFound ∨ e.kind = .internal

/-! ### Endings -/

namespace Work

variable {σ α β : Type}

/-- The work ends so, from whichever state. -/
def Ends (Q : Except Stop α → Prop) (w : Work σ α) : Prop := ∀ t, Q (w.on t).1

/-- An error that the ending is, is operational. -/
def Operational (ending : Except Stop α) : Prop :=
  ∀ e, ending = .error (.error e) → e.IsOperational

/-- An error that the ending is or absorbs is operational. -/
def OperationalOutcome (ending : Except Stop (Outcome α)) : Prop :=
  Operational ending ∧ ∀ e, ending = .ok (.absorbed e) → e.IsOperational

theorem operational_ok (a : α) : Operational (.ok a) := fun _ h => nomatch h

theorem operational_panic (message : String) :
    Operational (.error (.panic message) : Except Stop α) := fun _ h => nomatch h

theorem operational_error {e : Error} (he : e.IsOperational) :
    Operational (.error (.error e) : Except Stop α) := by
  rintro _ ⟨⟩
  exact he

theorem operationalOutcome_absorbed {e : Error} (he : e.IsOperational) :
    OperationalOutcome (.ok (.absorbed e) : Except Stop (Outcome α)) := by
  refine ⟨operational_ok _, ?_⟩
  rintro _ ⟨⟩
  exact he

theorem operationalOutcome_done (a : α) :
    OperationalOutcome (.ok (.done a) : Except Stop (Outcome α)) :=
  ⟨operational_ok _, fun _ h => nomatch h⟩

theorem operationalOutcome_error {e : Error} (he : e.IsOperational) :
    OperationalOutcome (.error (.error e) : Except Stop (Outcome α)) :=
  ⟨operational_error he, fun _ h => nomatch h⟩

theorem operationalOutcome_panic (message : String) :
    OperationalOutcome (.error (.panic message) : Except Stop (Outcome α)) :=
  ⟨operational_panic message, fun _ h => nomatch h⟩

theorem ends_pure (a : α) : (pure a : Work σ α).Ends Operational := fun _ => operational_ok a

theorem ends_fail {e : Error} (he : e.IsOperational) : (fail e : Work σ α).Ends Operational :=
  fun _ => operational_error he

/-- A sequence of work ends with operational errors if its parts do. -/
theorem Ends.bind {w : Work σ α} {f : α → Work σ β} (hw : w.Ends Operational)
    (hf : ∀ a, (f a).Ends Operational) : (w >>= f).Ends Operational := by
  intro t
  have ha := hw t
  rw [on_bind]
  rcases hrun : w.on t with ⟨(e | message) | a, u⟩ <;> rw [hrun] at ha
  · exact operational_error (ha e rfl)
  · exact operational_panic message
  · exact hf a u

theorem Ends.map (g : α → β) {w : Work σ α} (hw : w.Ends Operational) :
    (g <$> w).Ends Operational := by
  rw [map_eq_pure_bind]
  exact hw.bind fun a => ends_pure (g a)

/-- Work after a result that has been found before. -/
theorem ends_ofExcept_bind {r : Except Problem α} {a : α} (hr : r = .ok a) {f : α → Work σ β}
    (hf : (f a).Ends Operational) : (ofExcept r >>= f).Ends Operational := by
  rw [hr]
  exact hf

/-- A problem that arises on the way is operational. -/
theorem ends_ofExcept {r : Except Problem α} (hr : ∀ p, r = .error p → p.arises = true) :
    (ofExcept r : Work σ α).Ends Operational := by
  cases r with
  | ok a => exact ends_pure a
  | error p => exact ends_fail (Problem.kind_of_arises (hr p rfl))

end Work

/-! ### Calls -/

/-- The store's own errors are operational. -/
structure Store.Reports {σ : Type} (s : Store σ) : Prop where
  connect : ∀ c t e, ((s.connect c).run t).1 = .error e → e.IsOperational
  control : ∀ k c t e, ((s.control k c).run t).1 = .error e → e.IsOperational
  query : ∀ k sql, (s.query k sql).Ends Work.Operational
  execute : ∀ k sql, (s.execute k sql).Ends Work.Operational

namespace Store

open Work

variable {σ α β : Type} {s : Store σ} (hs : s.Reports)

include hs

/-- A transaction that does not begin ends with an operational error. -/
theorem ends_begin (c : Context) : (s.begin c).Ends Operational := by
  intro t
  rw [begin_on]
  cases hc : c.problem? (s.moment t) with
  | some p => exact operational_error (.inr (Oracle.kind_of_problem? hc).2)
  | none =>
    have hconnect := hs.connect c t
    simp only
    rcases hrun : (s.connect c).run t with ⟨e | k, u⟩ <;> rw [hrun] at hconnect
    · exact operational_error (hconnect e rfl)
    · have hbegin := hs.control k .begin u
      simp only
      rcases hrun : (s.control k .begin).run u with ⟨e | _, v⟩ <;> rw [hrun] at hbegin
      · exact operational_error (hbegin e rfl)
      · exact operational_ok k

/-- A transaction that is not committed ends with an operational error. -/
theorem ends_finish (c : Context) (k : Connection) : (s.finish c k).Ends Operational := by
  intro t
  rw [finish_on]
  cases hc : c.problem? (s.moment t) with
  | some p => exact operational_error (.inr (Oracle.kind_of_problem? hc).2)
  | none =>
    have hcommit := hs.control k .commit t
    simp only
    rcases hrun : ((s.control k .commit).run t).1 with e | ⟨⟩ <;> rw [hrun] at hcommit
    · exact operational_error (hcommit e rfl)
    · exact operational_ok ()

variable {Q : Except Stop β → Prop} (hQ : ∀ e : Error, e.IsOperational → Q (.error (.error e)))
  {g : Connection → Work σ β} (hg : ∀ k, (g k).Ends Q)

include hQ hg

/-- A transaction of its own adds only operational errors to how the work in it ends. -/
theorem ends_runOwned (c : Context) : (s.runOwned c g).Ends Q := by
  intro t
  have hbegin := ends_begin hs c t
  have hcalm := s.begin_ne_panic c t
  rw [runOwned_on]
  rcases hrun : (s.begin c).on t with ⟨(e | message) | k, u⟩ <;> rw [hrun] at hbegin hcalm
  · exact hQ e (hbegin e rfl)
  · exact absurd rfl hcalm
  have hwork := hg k u
  simp only
  rcases hrun : (g k).on u with ⟨stop | b, v⟩ <;> rw [hrun] at hwork
  · exact hwork
  have hfinish := ends_finish hs c k v
  have hcalm := s.finish_ne_panic c k v
  simp only
  rcases hrun : ((s.finish c k).on v).1 with (e | message) | ⟨⟩ <;> rw [hrun] at hfinish hcalm
  · exact hQ e (hfinish e rfl)
  · exact absurd rfl hcalm
  · exact hwork

omit hs in
/-- Joining a transaction adds only that the context is done. -/
theorem ends_join (c : Context) (k : Connection) : (s.join c k g).Ends Q := by
  intro t
  rw [join_on]
  cases hc : c.problem? (s.moment t) with
  | some p => exact hQ p.error (.inr (Oracle.kind_of_problem? hc).2)
  | none => exact hg k _

omit hQ hg

variable {f : Connection → Work σ α} (hf : ∀ k, (f k).Ends Operational)

include hf

/-- A savepoint absorbs an operational error, of its own statements or of the work. -/
theorem ends_savepointOn (k : Connection) : (s.savepointOn k f).Ends OperationalOutcome := by
  intro t
  rw [savepointOn_on]
  rcases s.freshSavepoint.run t with ⟨p, u⟩
  have hset := hs.control k (.savepoint p) u
  simp only
  rcases hrun : (s.control k (.savepoint p)).run u with ⟨e | _, v⟩ <;> rw [hrun] at hset
  · exact operationalOutcome_absorbed (hset e rfl)
  have hwork := hf k v
  simp only
  rcases hrun : (f k).on v with ⟨(e | message) | a, w⟩ <;> rw [hrun] at hwork
  · exact operationalOutcome_absorbed (hwork e rfl)
  · exact operationalOutcome_panic message
  have hrelease := hs.control k (.release p) w
  simp only
  rcases hrun : (s.control k (.release p)).run w with ⟨e | _, x⟩ <;> rw [hrun] at hrelease
  · exact operationalOutcome_absorbed (hrelease e rfl)
  · exact operationalOutcome_done a

/-- Guarded work ends with, or absorbs, operational errors. -/
theorem ends_guarded (mode : Propagation) (k : Connection) :
    (s.guarded mode f k).Ends OperationalOutcome := by
  by_cases hmode : mode = .savepoint
  · subst hmode
    exact ends_savepointOn hs hf k
  · intro t
    have hwork := hf k t
    rw [guarded_of_ne s hmode, on_map]
    rcases hrun : ((f k).on t).1 with (e | message) | a <;> rw [hrun] at hwork
    · exact operationalOutcome_error (hwork e rfl)
    · exact operationalOutcome_panic message
    · exact operationalOutcome_done a

/-- A call ends with, or absorbs, operational errors if its work does. -/
theorem ends_propagate (c : Context) (ambient : Option Connection) (mode : Propagation) :
    (s.propagate c ambient mode f).Ends OperationalOutcome := by
  have hguarded k := ends_guarded hs hf mode k
  have herror (e : Error) (he : e.IsOperational) :
      OperationalOutcome (.error (.error e) : Except Stop (Outcome α)) :=
    operationalOutcome_error he
  rw [propagate_eq]
  cases mode.scope ambient with
  | refused => exact fun _ => operationalOutcome_error (.inr rfl)
  | joined k => exact ends_join herror hguarded c k
  | owned => exact ends_runOwned hs herror hguarded c

end Store

/-! ### Tasks -/

namespace Engine

open Work

section Tasks

variable {σ : Type} {s : Store σ} (hs : s.Reports) {g : Registry} {t : Target} (k : Connection)

include hs

theorem ends_firstRow (sql : Sql) {p : Problem} (hp : p.error.IsOperational) :
    (firstRow s k sql p).Ends Operational := by
  refine (hs.query k sql).bind fun rows => ?_
  cases rows with
  | nil => exact ends_fail hp
  | cons row rows => exact ends_pure row

/-- A written row fails with what the store reports, with no row, or with one that cannot be read.
-/
theorem ends_writtenRow (sql : Sql) {p : Problem} (hp : p.error.IsOperational) :
    (writtenRow s t k sql p).Ends Operational :=
  (ends_firstRow hs k sql hp).bind fun _ => ends_ofExcept fun _ => Entity.arises_of_ofRow

/-- Related rows fail with what the store reports, or with one that cannot be read. -/
theorem ends_relatedRows (column : String) (keys : List (List Value)) :
    (relatedRows s t k column keys).Ends Operational := by
  induction keys with
  | nil => exact ends_pure []
  | cons chunk keys ih =>
    refine (hs.query k _).bind fun rows => ?_
    refine (ends_ofExcept fun _ => Entity.arises_of_mapM_ofRow).bind fun found => ?_
    exact ih.bind fun others => ends_pure _

/-- The keys that a relation is joined on are there, since the registry was built. -/
theorem ends_loadRelation (hg : g.Consistent) (ht : t.resource ∈ g.resources) {relation : Relation}
    (hrelation : relation ∈ t.schema.relations) (entities : List Entity) :
    (loadRelation s g t k relation entities).Ends Operational := by
  obtain ⟨other, hother, hlink⟩ :=
    Registry.checkRelation_eq_ok_iff.1 (hg.relations t.resource ht relation hrelation)
  unfold loadRelation
  rw [hother]
  cases hkind : relation.link with
  | belongsTo field =>
    rw [hkind] at hlink
    obtain ⟨pk, hpk⟩ := Schema.exists_primaryKey_of_hasSingleKey hlink other.name
    refine ends_ofExcept_bind hpk ?_
    exact (ends_relatedRows hs k _ _).bind fun related => ends_pure _
  | hasMany field =>
    rw [hkind] at hlink
    obtain ⟨pk, hpk⟩ := Schema.exists_primaryKey_of_hasSingleKey hlink.2 t.resource.name
    refine ends_ofExcept_bind hpk ?_
    exact (ends_relatedRows hs k _ _).bind fun related => ends_pure _

/-- Relations fail with what the store reports, or with a row that cannot be read. -/
theorem ends_loadRelations (hg : g.Consistent) (ht : t.resource ∈ g.resources)
    {relations : List Relation} (hrelations : ∀ r ∈ relations, r ∈ t.schema.relations)
    (entities : List Entity) : (loadRelations s g t k relations entities).Ends Operational := by
  induction relations generalizing entities with
  | nil => cases entities <;> exact ends_pure _
  | cons relation relations ih =>
    cases entities with
    | nil => exact ends_pure []
    | cons e es =>
      rw [List.forall_mem_cons] at hrelations
      exact (ends_loadRelation hs k hg ht hrelations.1 (e :: es)).bind (ih hrelations.2)

/-- A fetch of one row fails operationally, since its key has been parsed. -/
theorem ends_fetchOne (hg : g.Consistent) (ht : t.resource ∈ g.resources) {pk : Field × Nat}
    (hpk : t.resource.primaryKey = .ok pk) {relations : List Relation}
    (hrelations : ∀ r ∈ relations, r ∈ t.schema.relations) (key : Value) (projection : List Nat) :
    (fetchOne s g t k key projection relations).Ends Operational := by
  obtain ⟨sql, hsql⟩ : ∃ sql, t.selectOne projection key = .ok sql := by
    rw [Target.selectOne, Target.whereKey_eq hpk]
    exact ⟨_, rfl⟩
  refine ends_ofExcept_bind hsql ?_
  refine (ends_firstRow hs k sql (.inl rfl)).bind fun row => ?_
  refine (ends_ofExcept fun _ => Entity.arises_of_ofRow).bind fun e => ?_
  refine (ends_loadRelations hs k hg ht hrelations [e]).bind fun loaded => ?_
  cases loaded <;> exact ends_pure _

theorem ends_fetchCount (sql : Sql) : (fetchCount s k sql).Ends Operational := by
  refine (hs.query k sql).bind fun rows => ?_
  split
  · exact ends_pure _
  · exact ends_fail (.inr rfl)

/-- A fetch of a page fails operationally. -/
theorem ends_fetchPage (hg : g.Consistent) (ht : t.resource ∈ g.resources)
    {relations : List Relation} (hrelations : ∀ r ∈ relations, r ∈ t.schema.relations)
    (p : PageSelection) (projection : List Nat) :
    (fetchPage s g t k p projection relations).Ends Operational := by
  refine (ends_fetchCount hs k p.count).bind fun count => ?_
  by_cases hcount : count = 0
  · rw [if_pos hcount]
    exact ends_pure _
  · rw [if_neg hcount]
    refine (hs.query k p.select).bind fun rows => ?_
    refine (ends_ofExcept fun _ => Entity.arises_of_mapM_ofRow).bind fun entities => ?_
    exact (ends_loadRelations hs k hg ht hrelations entities).bind fun slice => ends_pure _

theorem ends_replace {pk : Field × Nat} (hpk : t.resource.primaryKey = .ok pk) (e : Entity) :
    (replace s t k e).Ends Operational :=
  ends_ofExcept_bind (Target.update_eq hpk e) (ends_writtenRow hs k _ (.inl rfl))

/-- An update in part fails operationally, since its key and its media type have been checked. -/
theorem ends_partialUpdate (hg : g.Consistent) (ht : t.resource ∈ g.resources) {pk : Field × Nat}
    (hpk : t.resource.primaryKey = .ok pk) {contentType : String} {format : MediaFormat}
    (hformat : MediaFormat.detect contentType = .ok format) (key : Value) (body : List UInt8) :
    (partialUpdate s g t k key body contentType).Ends Operational := by
  refine ends_ofExcept_bind hpk ?_
  refine (ends_fetchOne hs k hg ht hpk (List.forall_mem_nil _) key _).bind fun stored => ?_
  refine (ends_ofExcept fun _ hp => ?_).bind fun _ => ends_replace hs k hpk _
  exact (Entity.arises_of_decode hp).resolve_right fun h => nomatch hformat.symm.trans h

/-- A deletion fails operationally, since its key has been parsed. -/
theorem ends_delete {pk : Field × Nat} (hpk : t.resource.primaryKey = .ok pk) (key : Value) :
    (delete s t k key).Ends Operational := by
  obtain ⟨sql, hsql⟩ : ∃ sql, t.delete key = .ok sql := by
    rw [Target.delete, Target.whereKey_eq hpk]
    exact ⟨_, rfl⟩
  exact ends_ofExcept_bind hsql (ends_writtenRow hs k _ (.inl rfl))

/-- What a checked request does on its transaction ends with no error about the request. -/
theorem ends_run {g : Engine} {q : Query} {plan : Plan} (hg : g.registry.Consistent)
    (ht : plan.target.resource ∈ g.registry.resources)
    (hchecked : g.Checked q plan.target plan.task) : (g.run s plan k).Ends Operational := by
  obtain ⟨t, task⟩ := plan
  unfold run
  cases hchecked with
  | fetchOne hfields hrelations hkey =>
    obtain ⟨pk, hpk⟩ := exists_primaryKey_of_parseKey hkey
    have hresolved := Target.resolved_of_relations hfields hrelations
    exact (ends_fetchOne hs k hg ht hpk hresolved.declared _ _).map Output.entity
  | fetchPage hfields hrelations hpage =>
    have hresolved := Target.resolved_of_relations hfields hrelations
    exact (ends_fetchPage hs k hg ht hresolved.declared _ _).map Output.page
  | create hbody => exact (ends_writtenRow hs k _ (.inr rfl)).map Output.entity
  | replace hkey hpk hbody => exact (ends_replace hs k hpk _).map Output.entity
  | partialUpdate hformat hkey =>
    obtain ⟨pk, hpk⟩ := exists_primaryKey_of_parseKey hkey
    exact (ends_partialUpdate hs k hg ht hpk hformat _ _).map Output.entity
  | delete hkey =>
    obtain ⟨pk, hpk⟩ := exists_primaryKey_of_parseKey hkey
    exact (ends_delete hs k hpk _).map Output.entity

end Tasks

/-! ### Requests -/

/-- To put an error into other words does not change its kind. -/
theorem kind_finalError (q : Query) (e : Error) : (finalError q e).kind = e.kind := by
  unfold finalError
  split_ifs <;> rfl

/-- Requests that are rejected do not reach the store, and nothing else is reported as a rejection.
A request ends with an error of kind bad request or forbidden only if its check has found so, and
then nothing has been called. An error that is absorbed, and any error after a call, is of kind not
found or internal, if the store's own errors are. -/
theorem executeIn_rejects {definitions : List Resource} {g : Engine} {O : Oracle}
    (hg : Registry.build definitions = .ok g.registry) (hO : O.store.Reports) (q : Query)
    (ambient : Option Connection) (mode : Propagation) (h : History) :
    let (ending, h') := (g.executeIn O.store q ambient mode).on h
    (∀ e, ending = .error (.error e) → e.kind = .badRequest ∨ e.kind = .forbidden →
      h' = h ∧ ∃ p, g.prepare O.dialect q = .error p ∧ e = finalError q p.error) ∧
    (∀ e, ending = .error (.error e) → h' ≠ h → e.kind = .notFound ∨ e.kind = .internal) ∧
    ∀ e, ending = .ok (.absorbed e) → e.kind = .notFound ∨ e.kind = .internal := by
  rw [executeIn_on]
  -- What the check refuses is refused before any call. Whatever passes it runs, and ends
  -- operationally.
  cases hprepare : g.prepare O.store.dialect q with
  | error p =>
    refine ⟨?_, fun _ _ hne => absurd rfl hne, fun _ habsorbed => nomatch habsorbed⟩
    rintro _ ⟨⟩ -
    exact ⟨rfl, p, hprepare, rfl⟩
  | ok plan =>
    obtain ⟨r, hr, htarget, hchecked⟩ := checked_of_prepare hprepare
    have ht : plan.target.resource ∈ g.registry.resources := by
      rw [htarget]
      exact hr
    have hrun k := ends_run hO k (Registry.consistent_of_build hg) ht hchecked
    obtain ⟨herror, habsorbed⟩ := Store.ends_propagate hO hrun q.context ambient mode h
    simp only
    rcases hends : (O.store.propagate q.context ambient mode (g.run O.store plan)).on h with
      ⟨(e | message) | (output | e), h'⟩ <;> rw [hends] at herror habsorbed
    · have hkind : (finalError q e).IsOperational := by
        rw [Error.IsOperational, kind_finalError]
        exact herror e rfl
      refine ⟨?_, ?_, fun _ heq => nomatch heq⟩
      · rintro _ ⟨⟩ hrejection
        rcases hkind with hkind | hkind <;> rw [hkind] at hrejection <;> simp at hrejection
      · rintro _ ⟨⟩ -
        exact hkind
    · exact ⟨fun _ heq => (nomatch heq), fun _ heq => (nomatch heq), fun _ heq => (nomatch heq)⟩
    · exact ⟨fun _ heq => (nomatch heq), fun _ heq => (nomatch heq), fun _ heq => (nomatch heq)⟩
    · refine ⟨fun _ heq => (nomatch heq), fun _ heq => (nomatch heq), ?_⟩
      rintro _ ⟨⟩
      rw [kind_finalError]
      exact habsorbed e rfl

/-- Answers the first query with a row, and interrupts those after it. -/
def interrupting (row : Row) : Oracle :=
  { Oracle.accepting [] with
    query := fun h _ _ =>
      if h.any (· matches .query ..) then .error (.error DriverFailure.interrupted.error)
      else .ok [row] }

/-- An interruption is reported as internal. -/
theorem reports_interrupting (row : Row) : (interrupting row).store.Reports where
  connect _ _ _ h := nomatch h
  control _ _ _ _ h := nomatch h
  query k sql t e h := by
    have hanswer : (if t.any (· matches .query ..) then
        .error (.error DriverFailure.interrupted.error) else .ok [row] : Except Stop (List Row)) =
        .error (.error e) := h
    split_ifs at hanswer
    cases hanswer
    exact .inr rfl
  execute _ _ _ _ h := nomatch h

/-- The row of a person is read, and then the query for the boss is interrupted. -/
theorem executeIn_rejects_interrupted :
    let g : Engine := ⟨⟨[staff]⟩, .default⟩
    let O := interrupting [.integer 2, .text "bob", .integer 1]
    let q : Query := ⟨"staff", .fetch, "2", 0, none, [], ["boss"], [], none, "", "", "", [], false,
      .background⟩
    let r := (g.executeIn O.store q (some ⟨1⟩) .savepoint).on []
    (r.1 matches .ok (.absorbed _)) = true ∧ r.2.length = 8 ∧
      ∀ e, r.1 = .ok (.absorbed e) → e.kind = .notFound ∨ e.kind = .internal := by
  intro g O q r
  have hrun : (r.1 matches .ok (.absorbed _)) = true ∧ r.2.length = 8 := by decide +kernel
  refine ⟨hrun.1, hrun.2, ?_⟩
  have hbuild : Registry.build [staff] = .ok g.registry := rfl
  exact (executeIn_rejects hbuild (reports_interrupting _) q (some ⟨1⟩) .savepoint []).2.2

end Engine

end ResourceEngine
