import ResourceEngine.Proofs.Engine.Commitment
import ResourceEngine.Proofs.Store.Parallel

/-!
# What a driver says is kept

Two stores answer a request alike until a call fails, and then both drivers report an error, each in
its own words. The responses are the same. Each action runs side by side on the two stores, because
it stops with the first call that fails, and what it stops with shows in the response by its kind
alone.
-/

namespace ResourceEngine

/-- The driver found no row where there had to be one. -/
def DriverFailure.isNoRows : DriverFailure → Bool
  | .noRows => true
  | _ => false

/-- The stops are failures of a driver, and both that no row was found, or neither. -/
def Stop.IsReworded (stop stop' : Stop) : Prop :=
  ∃ failure failure' : DriverFailure, failure.isNoRows = failure'.isNoRows ∧
    stop = .error failure.error ∧ stop' = .error failure'.error

namespace Engine

section

variable {differ : Stop → Stop → Prop} {O O' : Oracle} {h : History} (hO : O.Alike differ O' h)
  (g : Registry) (t : Target) (k : Connection)

include hO

/-- A first row is asked for side by side. -/
theorem parallel_firstRow (sql : Sql) (p : Problem) :
    Parallel differ O h (firstRow O.store k sql p) (firstRow O'.store k sql p) := by
  refine (hO.parallel_query k sql).bind fun rows => ?_
  cases rows with
  | nil => exact parallel_fail p.error
  | cons row rows => exact parallel_pure row

theorem parallel_writtenRow (sql : Sql) (p : Problem) :
    Parallel differ O h (writtenRow O.store t k sql p) (writtenRow O'.store t k sql p) :=
  (parallel_firstRow hO k sql p).bind fun _ => parallel_ofExcept _

/-- Related rows are asked for side by side, chunk by chunk. -/
theorem parallel_relatedRows (column : String) (keys : List (List Value)) :
    Parallel differ O h (relatedRows O.store t k column keys)
      (relatedRows O'.store t k column keys) := by
  induction keys with
  | nil => exact parallel_pure []
  | cons chunk keys ih =>
    exact (hO.parallel_query k _).bind fun rows => (parallel_ofExcept _).bind fun found =>
      ih.bind fun others => parallel_pure _

/-- A count is asked for side by side. -/
theorem parallel_fetchCount (sql : Sql) :
    Parallel differ O h (fetchCount O.store k sql) (fetchCount O'.store k sql) := by
  refine (hO.parallel_query k sql).bind fun rows => ?_
  split
  · exact parallel_pure _
  · exact parallel_fail _

/-- A relation is loaded side by side. -/
theorem parallel_loadRelation (relation : Relation) (entities : List Entity) :
    Parallel differ O h (loadRelation O.store g t k relation entities)
      (loadRelation O'.store g t k relation entities) := by
  unfold loadRelation
  cases g.lookup? relation.target with
  | none => exact parallel_fail _
  | some other =>
    cases relation.link with
    | belongsTo field =>
      exact (parallel_ofExcept _).bind fun _ =>
        (parallel_relatedRows hO _ k _ _).bind fun _ => parallel_pure _
    | hasMany field =>
      exact (parallel_ofExcept _).bind fun _ =>
        (parallel_relatedRows hO _ k _ _).bind fun _ => parallel_pure _

/-- Relations are loaded side by side, by induction on their list. -/
theorem parallel_loadRelations (relations : List Relation) (entities : List Entity) :
    Parallel differ O h (loadRelations O.store g t k relations entities)
      (loadRelations O'.store g t k relations entities) := by
  induction relations generalizing entities with
  | nil => cases entities <;> exact parallel_pure _
  | cons relation relations ih =>
    cases entities with
    | nil => exact parallel_pure []
    | cons e es => exact (parallel_loadRelation hO g t k relation (e :: es)).bind ih

/-- One row is fetched side by side. -/
theorem parallel_fetchOne (key : Value) (projection : List Nat) (relations : List Relation) :
    Parallel differ O h (fetchOne O.store g t k key projection relations)
      (fetchOne O'.store g t k key projection relations) := by
  refine (parallel_ofExcept _).bind fun sql => ?_
  refine (parallel_firstRow hO k sql _).bind fun row => (parallel_ofExcept _).bind fun e => ?_
  refine (parallel_loadRelations hO g t k relations [e]).bind fun loaded => ?_
  cases loaded <;> exact parallel_pure _

/-- A page is fetched side by side. -/
theorem parallel_fetchPage (p : PageSelection) (projection : List Nat)
    (relations : List Relation) :
    Parallel differ O h (fetchPage O.store g t k p projection relations)
      (fetchPage O'.store g t k p projection relations) := by
  refine (parallel_fetchCount hO k _).bind fun count => ?_
  by_cases hzero : count = 0
  · rw [if_pos hzero, if_pos hzero]
    exact parallel_pure _
  · rw [if_neg hzero, if_neg hzero]
    exact (hO.parallel_query k _).bind fun rows => (parallel_ofExcept _).bind fun entities =>
      (parallel_loadRelations hO g t k relations entities).bind fun slice => parallel_pure _

theorem parallel_replace (e : Entity) :
    Parallel differ O h (replace O.store t k e) (replace O'.store t k e) :=
  (parallel_ofExcept _).bind fun sql => parallel_writtenRow hO t k sql _

theorem parallel_partialUpdate (key : Value) (body : List UInt8) (contentType : String) :
    Parallel differ O h (partialUpdate O.store g t k key body contentType)
      (partialUpdate O'.store g t k key body contentType) :=
  (parallel_ofExcept _).bind fun _ =>
    (parallel_fetchOne hO g t k key _ []).bind fun _ =>
      (parallel_ofExcept _).bind fun _ => parallel_replace hO t k _

theorem parallel_delete (key : Value) :
    Parallel differ O h (delete O.store t k key) (delete O'.store t k key) :=
  (parallel_ofExcept _).bind fun sql => parallel_writtenRow hO t k sql _

/-- Whatever a request does on its transaction, it does side by side on the two stores. -/
theorem parallel_run (g : Engine) (plan : Plan) (k : Connection) :
    Parallel differ O h (g.run O.store plan k) (g.run O'.store plan k) := by
  obtain ⟨t, task⟩ := plan
  unfold run
  cases task with
  | fetchOne key projection relations =>
    exact (parallel_fetchOne hO g.registry t k key projection relations).map Output.entity
  | fetchPage page projection relations =>
    exact (parallel_fetchPage hO g.registry t k page projection relations).map Output.page
  | create e => exact (parallel_writtenRow hO t k _ _).map Output.entity
  | replace e => exact (parallel_replace hO t k e).map Output.entity
  | partialUpdate key body contentType =>
    exact (parallel_partialUpdate hO g.registry t k key body contentType).map Output.entity
  | delete key => exact (parallel_delete hO t k key).map Output.entity

end

/-! ### Responses -/

/-- The response to every internal error. -/
def hidden : Response :=
  ⟨500, Encoded.jsonType, Text.toUtf8 "\x7b\"error\":\"internal error\",\"status\":500\x7d"⟩

/-- An internal error has one response, whatever its message. -/
theorem response_of_internal {e : Error} (he : e.kind = .internal) : e.response = hidden := by
  have hbody : Json.writeRecord [("error", Json.quote ErrorKind.internal.name),
      ("status", toString ErrorKind.internal.status)] =
        "\x7b\"error\":\"internal error\",\"status\":500\x7d" := by decide +kernel
  rw [Error.response, Error.publicMessage, Error.status, he, hidden, ← hbody]
  rfl

/-- An internal error is not put into other words. -/
theorem finalError_of_internal (q : Query) {e : Error} (he : e.kind = .internal) :
    finalError q e = e := by
  simp [finalError, Error.isNotFound, he]

/-- A failure of the driver other than for no rows is internal. -/
theorem kind_error_of_not_isNoRows {failure : DriverFailure} (h : failure.isNoRows = false) :
    failure.error.kind = .internal := by
  cases failure with
  | noRows => exact nomatch h
  | interrupted | other text => rfl

theorem eq_of_isNoRows {failure : DriverFailure} (h : failure.isNoRows = true) :
    failure = .noRows := by
  cases failure with
  | noRows => rfl
  | interrupted | other text => exact nomatch h

/-- A failure of the driver other than for no rows is hidden in the response. -/
theorem response_finalError (q : Query) {failure : DriverFailure}
    (h : failure.isNoRows = false) : (finalError q failure.error).response = hidden := by
  have hkind := kind_error_of_not_isNoRows h
  rw [finalError_of_internal q hkind, response_of_internal hkind]

/-- Failures of a driver that are both that no row was found, or neither, have one response. -/
theorem response_eq_of_isNoRows (q : Query) {failure failure' : DriverFailure}
    (h : failure.isNoRows = failure'.isNoRows) :
    (finalError q failure.error).response = (finalError q failure'.error).response := by
  cases hrows : failure'.isNoRows with
  | false => rw [response_finalError q (h.trans hrows), response_finalError q hrows]
  | true =>
    rw [eq_of_isNoRows (h.trans hrows), eq_of_isNoRows hrows]

variable {O O' : Oracle} {h : History}

/-- Stores that answer alike up to a failure lead to the same response. -/
theorem respond_congr (hO : O.Alike Stop.IsReworded O' h) (g : Engine) (q : Query) :
    ((g.respond O.store q).on h).1 = ((g.respond O'.store q).on h).1 := by
  have hdialect : O'.store.dialect = O.store.dialect := hO.dialect.symm
  rw [respond_on, respond_on, execute_on, execute_on, hdialect]
  cases g.prepare O.store.dialect q with
  | error p => rfl
  | ok plan =>
    have hends := (hO.runOwned (parallel_run hO g plan) q.context).endings
    simp only
    generalize (O.store.runOwned q.context (g.run O.store plan)).on h = run,
      (O'.store.runOwned q.context (g.run O'.store plan)).on h = run' at hends
    obtain ⟨ending, u⟩ := run
    obtain ⟨ending', u'⟩ := run'
    obtain rfl | ⟨_, _, ⟨failure, failure', hrows, rfl, rfl⟩, rfl, rfl⟩ := hends
    · rcases ending with (e | message) | output
      · rfl
      · rfl
      · simp only
        cases output.encode (g.accept q) <;> rfl
    · exact congrArg Except.ok (response_eq_of_isNoRows q hrows)

/-- What a call fails with while a request is answered, other than a rollback, is what it is
answered with. -/
theorem respond_of_refusal (g : Engine) (q : Query) (O : Oracle) (h : History) :
    ∃ new, ((g.respond O.store q).on h).2 = h ++ new ∧
      ∀ x ∈ new, ∀ e, x.refusal? = some e → x.isRollback = true ∨
        ((g.respond O.store q).on h).1 = .ok (finalError q e).response := by
  rw [respond_on, execute_on]
  cases hplan : g.prepare O.store.dialect q with
  | error p => exact ⟨[], (List.append_nil h).symm, List.forall_mem_nil _⟩
  | ok plan =>
    have hO : O.Alike Eq O h := O.alike_self (fun _ => rfl) h
    have hrefusals := (hO.runOwned (parallel_run hO g plan) q.context).refusals
    simp only
    generalize (O.store.runOwned q.context (g.run O.store plan)).on h = run at hrefusals
    obtain ⟨ending, u⟩ := run
    obtain ⟨new, rfl, hnew⟩ := hrefusals
    refine ⟨new, ?_, fun x hx e he => (hnew x hx e he).imp_right ?_⟩
    · rcases ending with (e | message) | output
      · rfl
      · rfl
      · simp only
        cases output.encode (g.accept q) <;> rfl
    · rintro rfl
      rfl

/-- What a driver says does not get into a response. Two stores that answer alike until a call fails,
and fail then with two failures of a driver that are both that no row was found, or neither, have
the same response to a request, whatever they answer afterwards. Any other failure than that no row
was found, of any call but a rollback, has the one response to internal errors. -/
theorem respond_hides (g : Engine) (q : Query) (h : History) :
    (∀ O O' : Oracle, O.Alike Stop.IsReworded O' h →
      ((g.respond O.store q).on h).1 = ((g.respond O'.store q).on h).1) ∧
    ∀ O : Oracle, ∃ new, ((g.respond O.store q).on h).2 = h ++ new ∧
      ∀ x ∈ new, ∀ failure : DriverFailure, x.refusal? = some failure.error →
        failure.isNoRows = false → x.isRollback = false →
          ((g.respond O.store q).on h).1 = .ok hidden := by
  refine ⟨fun O O' hO => respond_congr hO g q, fun O => ?_⟩
  obtain ⟨new, hnew, hrefusals⟩ := respond_of_refusal g q O h
  refine ⟨new, hnew, fun x hx failure hfailure hrows hrollback => ?_⟩
  obtain hundone | hresponse := hrefusals x hx _ hfailure
  · exact absurd hundone (by simp [hrollback])
  · rw [hresponse, response_finalError q hrows]

/-- A driver that fails every query, and after that every control statement. -/
def failing (failure : DriverFailure) : Oracle :=
  { Oracle.accepting [] with
    control := fun h _ _ => if h.any (·.refusal?.isSome) then .error failure.error else .ok ()
    query := fun _ _ _ => .error (.error failure.error) }

/-- Two failures, both for no rows or both not, are answered alike. -/
theorem alike_failing {failure failure' : DriverFailure}
    (hrows : failure.isNoRows = failure'.isNoRows) :
    (failing failure).Alike Stop.IsReworded (failing failure') [] where
  dialect := rfl
  moment _ := rfl
  connect _ _ := .value _
  control := fun {g} hg k c => by
    obtain ⟨new, hnew, hnone⟩ := hg.exists_append
    rw [List.nil_append] at hnew
    have hany : g.any (·.refusal?.isSome) = false := by
      rw [hnew, List.any_eq_false]
      exact fun x hx => by simp [hnone x hx]
    simp only [failing, hany]
    exact .value ()
  query _ _ _ := .failure ⟨failure, failure', hrows, rfl, rfl⟩

/-- Neither the text of the one driver nor the interruption of the other shows. -/
theorem respond_hides_interrupted :
    let O := failing (.other "disk image is malformed")
    let O' := failing .interrupted
    O.Alike Stop.IsReworded O' [] ∧
      ((todos.respond O.store deletion).on []).1 = .ok hidden ∧
      ((todos.respond O'.store deletion).on []).1 = .ok hidden := by
  intro O O'
  have halike : O.Alike Stop.IsReworded O' [] := alike_failing rfl
  obtain ⟨hsame, hfixed⟩ := respond_hides todos deletion []
  obtain ⟨new, hnew, hrefusals⟩ := hfixed O
  have hquery : ((todos.respond O.store deletion).on []).2.any (fun x =>
      decide (x.refusal? = some (DriverFailure.other "disk image is malformed").error) &&
        !x.isRollback) = true := by decide +kernel
  rw [hnew, List.nil_append, List.any_eq_true] at hquery
  obtain ⟨x, hx, hfailed⟩ := hquery
  rw [Bool.and_eq_true, decide_eq_true_eq, Bool.not_eq_true'] at hfailed
  have hhidden := hrefusals x hx _ hfailed.1 rfl hfailed.2
  exact ⟨halike, hhidden, (hsame O O' halike).symm.trans hhidden⟩

end Engine

end ResourceEngine
