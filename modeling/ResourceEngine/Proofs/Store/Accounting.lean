import ResourceEngine.Proofs.Store.Bracketing

/-!
# Accounting for calls

Work that runs queries can be accounted for: `Queries` says which statements it sends and what can
stop it. A call under a propagation adds no statement on data to those of its work, and an error
that it ends with or absorbs is an answer of the store, a problem of the work, or one that the call
itself finds before the work begins or after it has ended.
-/

namespace ResourceEngine

open History

namespace Exchange

/-- The error that the call is answered with. -/
def refusal? : Exchange → Option Error
  | .connect _ (.error e) | .control _ _ (.error e) | .query _ _ (.error (.error e))
  | .execute _ _ (.error (.error e)) => some e
  | _ => none

end Exchange

/-- What a call finds wrong besides its work: a context is done, or there is no transaction. -/
def Problem.isAround : Problem → Bool
  | .cancelled | .deadlineExceeded | .ambientRequired => true
  | _ => false

/-- The error is an answer of the store, or that of a problem of the sort. -/
def Blamed (raises : Problem → Prop) (new : History) (e : Error) : Prop :=
  (∃ x ∈ new, x.refusal? = some e) ∨ ∃ p, raises p ∧ e = p.error

/-- The statements on data are of the one sort, and an error, if there is one, is an answer or a
problem of the other sort. -/
structure Accounts (sends : Sql → Prop) (raises : Problem → Prop) (error? : Option Error)
    (new : History) : Prop where
  sent : ∀ x ∈ new, ∀ sql, x.statement? = some sql → sends sql
  blamed : ∀ e, error? = some e → Blamed raises new e

section

variable {sends : Sql → Prop} {raises : Problem → Prop} {error? : Option Error}
  {before inside after : History} {e : Error}

/-- Calls without statements on data stand around those that are accounted for. -/
theorem Accounts.sent_around (h : Accounts sends raises error? inside)
    (hbefore : ∀ x ∈ before, x.statement? = none) (hafter : ∀ x ∈ after, x.statement? = none) :
    ∀ x ∈ before ++ inside ++ after, ∀ sql, x.statement? = some sql → sends sql := by
  intro x hx sql hsql
  rw [List.mem_append, List.mem_append] at hx
  obtain (hx | hx) | hx := hx
  · exact nomatch (hbefore x hx).symm.trans hsql
  · exact h.sent x hx sql hsql
  · exact nomatch (hafter x hx).symm.trans hsql

/-- Calls without statements on data change nothing in the account. -/
theorem Accounts.around (h : Accounts sends raises error? inside)
    (hbefore : ∀ x ∈ before, x.statement? = none) (hafter : ∀ x ∈ after, x.statement? = none) :
    Accounts sends raises error? (before ++ inside ++ after) :=
  ⟨h.sent_around hbefore hafter, fun e he => (h.blamed e he).imp_left
    fun ⟨x, hx, hrefusal⟩ => ⟨x, by simp [hx], hrefusal⟩⟩

/-- Without statements on data only the error has to be accounted for. -/
theorem accounts_of_none (h : ∀ x ∈ inside, x.statement? = none)
    (hblamed : ∀ e, error? = some e → Blamed raises inside e) :
    Accounts sends raises error? inside :=
  ⟨fun x hx _ hsql => (nomatch (h x hx).symm.trans hsql), hblamed⟩

/-- An error that a call has been answered with is accounted for. -/
theorem blamed_of_mem {x : Exchange} (hx : x ∈ inside) (hrefusal : x.refusal? = some e) :
    ∀ e', some e = some e' → Blamed raises inside e' := by
  rintro _ ⟨⟩
  exact .inl ⟨x, hx, hrefusal⟩

/-- An error of a problem of the sort is accounted for. -/
theorem blamed_of_raises {p : Problem} (hp : raises p) :
    ∀ e, some p.error = some e → Blamed raises inside e := by
  rintro _ ⟨⟩
  exact .inr ⟨p, hp, rfl⟩

end

/-! ### Work that runs queries -/

/-- On its connection the work runs queries with statements of the one sort, and makes no other
calls. What stops it is an answer to one of them or a problem of the other sort. -/
def Queries {α : Type} (O : Oracle) (sends : Sql → Prop) (raises : Problem → Prop) (k : Connection)
    (w : Work History α) : Prop :=
  ∀ h, ∃ ending new, w.on h = (ending, h ++ new) ∧
    (∀ x ∈ new, ∃ sql g, x = .query k sql (O.query g k sql) ∧ sends sql) ∧
    ∀ stop, ending = .error stop →
      (∃ sql, .query k sql (.error stop) ∈ new) ∨ ∃ p, raises p ∧ stop = .error p.error

section

variable {α β : Type} {O : Oracle} {sends : Sql → Prop} {raises : Problem → Prop} {k : Connection}

theorem queries_pure (a : α) : Queries O sends raises k (pure a) :=
  fun h => ⟨.ok a, [], by simp, by simp, by simp⟩

theorem queries_fail {p : Problem} (hp : raises p) :
    Queries O sends raises k (Work.fail p.error : Work History α) := by
  refine fun h => ⟨.error (.error p.error), [], by simp, by simp, ?_⟩
  rintro _ ⟨⟩
  exact .inr ⟨p, hp, rfl⟩

theorem queries_query {sql : Sql} (hsql : sends sql) :
    Queries O sends raises k (O.store.query k sql) := by
  refine fun h => ⟨O.query h k sql, [.query k sql (O.query h k sql)], rfl, ?_, fun stop hstop => ?_⟩
  · rw [List.forall_mem_singleton]
    exact ⟨sql, h, rfl, hsql⟩
  · exact .inl ⟨sql, by rw [hstop]; exact List.mem_singleton_self _⟩

/-- The queries of a sequence of work are those of its parts, and the first part that stops stops
it. -/
theorem Queries.bind {w : Work History α} {f : α → Work History β}
    (hw : Queries O sends raises k w) (hf : ∀ a, Queries O sends raises k (f a)) :
    Queries O sends raises k (w >>= f) := by
  intro h
  obtain ⟨ending, a, hrun, ha, hstop⟩ := hw h
  rw [Work.on_bind, hrun]
  rcases ending with stop | v
  · refine ⟨.error stop, a, rfl, ha, ?_⟩
    rintro _ ⟨⟩
    exact hstop stop rfl
  · obtain ⟨ending, b, hrun, hb, hstop⟩ := hf v (h ++ a)
    refine ⟨ending, a ++ b, by simp only [hrun, List.append_assoc],
      List.forall_mem_append.2 ⟨ha, hb⟩, fun stop heq => ?_⟩
    exact (hstop stop heq).imp_left fun ⟨_, hsql⟩ => ⟨_, List.mem_append_right a hsql⟩

/-- Work that begins with a result that has been computed. -/
theorem queries_ofExcept_bind {r : Except Problem α} {f : α → Work History β}
    (herror : ∀ p, r = .error p → raises p)
    (hok : ∀ a, r = .ok a → Queries O sends raises k (f a)) :
    Queries O sends raises k (Work.ofExcept r >>= f) := by
  cases r with
  | error p => exact queries_fail (herror p rfl)
  | ok a => exact hok a rfl

/-- A result that has been computed sends nothing. -/
theorem queries_ofExcept {r : Except Problem α} (herror : ∀ p, r = .error p → raises p) :
    Queries O sends raises k (Work.ofExcept r) := by
  cases r with
  | error p => exact queries_fail (herror p rfl)
  | ok a => exact queries_pure a

/-- What is done with the value of the work sends nothing. -/
theorem Queries.map {w : Work History α} (g : α → β) (hw : Queries O sends raises k w) :
    Queries O sends raises k (g <$> w) := by
  rw [map_eq_pure_bind]
  exact hw.bind fun a => queries_pure (g a)

/-- A problem of the narrower sort is one of the wider sort. -/
theorem Queries.mono {raises' : Problem → Prop} {w : Work History α}
    (hw : Queries O sends raises k w) (hraises : ∀ p, raises p → raises' p) :
    Queries O sends raises' k w := by
  intro h
  obtain ⟨ending, new, hrun, hnew, hstop⟩ := hw h
  exact ⟨ending, new, hrun, hnew, fun stop heq =>
    (hstop stop heq).imp_right fun ⟨p, hp, heq⟩ => ⟨p, hraises p hp, heq⟩⟩

end

/-! ### Calls -/

/-- The error that a piece of work stops with. -/
def Stop.error? {α : Type} : Except Stop α → Option Error
  | .error (.error e) => some e
  | _ => none

/-- The error that a call stops with or absorbs. -/
def Outcome.error? {α : Type} : Except Stop (Outcome α) → Option Error
  | .error (.error e) | .ok (.absorbed e) => some e
  | _ => none

/-- However the call goes, it is accounted for. -/
def Accounted {α : Type} (sends : Sql → Prop) (raises : Problem → Prop)
    (w : Work History (Outcome α)) : Prop :=
  ∀ h, ∃ ending new, w.on h = (ending, h ++ new) ∧
    Accounts sends raises (Outcome.error? ending) new

namespace Oracle

variable {α : Type} (O : Oracle) {sends : Sql → Prop} {raises : Problem → Prop} {c : Context}
  {k : Connection} {f : Connection → Work History α} {mode : Propagation}

/-- The problem of a context that is done is one around the work. -/
theorem isAround_of_problem? {m : Moment} {p : Problem} (hp : c.problem? m = some p) :
    p.isAround = true := by
  unfold Context.problem? at hp
  split_ifs at hp <;> cases hp <;> rfl

/-- The calls of work that runs queries are accounted for. -/
theorem accounts_query {ending : Except Stop α} {new : History}
    (hnew : ∀ x ∈ new, ∃ sql g, x = .query k sql (O.query g k sql) ∧ sends sql)
    (hstop : ∀ stop, ending = .error stop →
      (∃ sql, .query k sql (.error stop) ∈ new) ∨ ∃ p, raises p ∧ stop = .error p.error) :
    Accounts sends raises (Stop.error? ending) new := by
  refine ⟨fun x hx sql hsql => ?_, fun e he => ?_⟩
  · obtain ⟨sql', g, rfl, hsends⟩ := hnew x hx
    cases hsql
    exact hsends
  · rcases ending with (e' | message) | a <;> cases he
    obtain ⟨sql, hmem⟩ | ⟨p, hp, heq⟩ := hstop _ rfl
    · exact .inl ⟨_, hmem, rfl⟩
    · exact .inr ⟨p, hp, Stop.error.inj heq⟩

theorem statement?_takenBack {p : Savepoint} {tail : History} (htail : TakenBack k p tail) :
    ∀ x ∈ tail, x.statement? = none := by
  cases htail <;> simp [Exchange.statement?]

/-- Behind a savepoint the statements are those of the work; the error is that of the work, or that
of a savepoint or a release that is rejected. -/
theorem accounted_savepointOn (hf : Queries O sends raises k (f k)) :
    Accounted sends raises (O.store.savepointOn k f) := by
  intro h
  obtain ⟨p, hp⟩ : ∃ p : Savepoint, p = ⟨savepoints h⟩ := ⟨_, rfl⟩
  have hdraw : O.store.freshSavepoint.run h = (p, h ++ [.draw p]) := by
    rw [hp]
    rfl
  rw [Store.savepointOn_on, hdraw]
  rcases hanswer : O.control (h ++ [.draw p]) k (.savepoint p) with e | ⟨⟩ <;>
    simp only [control_run, hanswer, List.append_assoc]
  · refine ⟨_, _, rfl, accounts_of_none (by simp [Exchange.statement?]) ?_⟩
    exact blamed_of_mem (List.mem_append_right _ (List.mem_singleton_self _)) rfl
  obtain ⟨ending, inside, hrun, hnew, hstop⟩ :=
    hf (h ++ ([.draw p] ++ [.control k (.savepoint p) (.ok ())]))
  have hinside := O.accounts_query hnew hstop
  have hset : ∀ x ∈ ([.draw p] ++ [.control k (.savepoint p) (.ok ())] : History),
      x.statement? = none := by simp [Exchange.statement?]
  rw [hrun]
  -- However the work has ended, what closes the savepoint sends no statement.
  rcases ending with stop | a
  · obtain ⟨tail, hback, htail⟩ := O.takenBack_rollbackTo k p
      (h ++ ([.draw p] ++ [.control k (.savepoint p) (.ok ())]) ++ inside)
    have haround := hinside.around hset (statement?_takenBack htail)
    cases stop <;> exact ⟨_, _, Prod.ext rfl (hback.trans (by simp)), haround⟩
  · simp only
    rcases O.control _ k (.release p) with e | ⟨⟩ <;> simp only
    · obtain ⟨tail, hback, htail⟩ := O.takenBack_rollbackTo k p _
      rw [hback, List.append_assoc, List.append_assoc, List.append_assoc,
        ← List.append_assoc _ inside]
      refine ⟨_, _, rfl, hinside.sent_around hset ?_,
        blamed_of_mem (x := .control k (.release p) (.error e)) (by simp) rfl⟩
      rw [List.forall_mem_append]
      exact ⟨by simp [Exchange.statement?], statement?_takenBack htail⟩
    · rw [List.append_assoc, List.append_assoc, ← List.append_assoc _ inside]
      exact ⟨_, _, rfl, hinside.around hset (by simp [Exchange.statement?])⟩

/-- Work as a propagation runs it on its transaction. -/
theorem accounted_guarded (mode : Propagation) (hf : Queries O sends raises k (f k)) :
    Accounted sends raises (O.store.guarded mode f k) := by
  by_cases hmode : mode = .savepoint
  · subst hmode
    exact O.accounted_savepointOn hf
  · intro h
    obtain ⟨ending, new, hrun, hnew, hstop⟩ := hf h
    have haccounts := O.accounts_query hnew hstop
    refine ⟨ending.map Outcome.done, new, ?_, ?_⟩
    · rw [Store.guarded_of_ne _ hmode, Work.on_map, hrun]
    · rcases ending with (e | message) | a <;> exact haccounts

section

variable (haround : ∀ p : Problem, p.isAround = true → raises p)
  {g : Connection → Work History (Outcome α)} (hg : ∀ k, Accounted sends raises (g k))

include haround hg

/-- A call that joins a transaction sends the statements of its work. -/
theorem accounted_join (c : Context) (k : Connection) :
    Accounted sends raises (O.store.join c k g) := by
  intro h
  rw [Store.join_on]
  cases hc : c.problem? (O.store.moment h) with
  | some p =>
    refine ⟨_, [], by rw [List.append_nil], accounts_of_none (List.forall_mem_nil _) ?_⟩
    exact blamed_of_raises (haround p (isAround_of_problem? hc))
  | none =>
    obtain ⟨ending, inside, hrun, hinside⟩ := hg k (h ++ [.bind k (some c)])
    refine ⟨ending, [.bind k (some c)] ++ inside ++ [.bind k (watcher k h)], ?_,
      hinside.around (by simp [Exchange.statement?]) (by simp [Exchange.statement?])⟩
    show (((g k).on (h ++ [.bind k (some c)])).1,
      ((g k).on (h ++ [.bind k (some c)])).2 ++ [.bind k (watcher k h)]) = _
    rw [hrun]
    simp

/-- A call that owns its transaction sends the statements of its work; the error may also be that of
the beginning or of the end. -/
theorem accounted_runOwned (c : Context) : Accounted sends raises (O.store.runOwned c g) := by
  intro h
  rw [Store.runOwned_on, Store.begin_on]
  cases hc : c.problem? (O.store.moment h) with
  | some p =>
    refine ⟨_, [], by rw [List.append_nil], accounts_of_none (List.forall_mem_nil _) ?_⟩
    exact blamed_of_raises (haround p (isAround_of_problem? hc))
  | none =>
  rcases hconnect : O.connect h c with e | k <;> simp only [connect_run, hconnect]
  · exact ⟨_, _, rfl, accounts_of_none (by simp [Exchange.statement?])
      (blamed_of_mem (List.mem_singleton_self _) rfl)⟩
  rcases hbegin : O.control (h ++ [.connect c (.ok k)]) k .begin with e | ⟨⟩ <;>
    simp only [control_run, hbegin, List.append_assoc]
  · refine ⟨_, _, rfl, accounts_of_none (by simp [Exchange.statement?]) ?_⟩
    exact blamed_of_mem (List.mem_append_right _ (List.mem_singleton_self _)) rfl
  obtain ⟨ending, inside, hrun, hinside⟩ :=
    hg k (h ++ ([.connect c (.ok k)] ++ [.control k .begin (.ok ())]))
  have hopening : ∀ x ∈ ([.connect c (.ok k)] ++ [.control k .begin (.ok ())] : History),
      x.statement? = none := by simp [Exchange.statement?]
  have hend (fin : Control) (answer : Except Error Unit) :
      ∀ x ∈ ([.control k fin answer] : History), x.statement? = none := by
    simp [Exchange.statement?]
  -- The transaction is open, and the statements of the work stand between its beginning and its
  -- end. After an error of the work the answer to the rollback is dropped.
  rw [hrun]
  rcases ending with stop | outcome <;> simp only
  · rw [List.append_assoc, List.append_assoc, ← List.append_assoc _ inside]
    exact ⟨_, _, rfl, hinside.around hopening (hend _ _)⟩
  rw [Store.finish_on]
  cases hc : c.problem? (O.store.moment _) with
  | some p =>
    simp only [control_run]
    rw [List.append_assoc, List.append_assoc, ← List.append_assoc _ inside]
    exact ⟨_, _, rfl, hinside.sent_around hopening (hend _ _),
      blamed_of_raises (haround p (isAround_of_problem? hc))⟩
  | none =>
    simp only [control_run]
    rcases O.control _ k .commit with e | ⟨⟩ <;>
      rw [List.append_assoc, List.append_assoc, ← List.append_assoc _ inside]
    · exact ⟨_, _, rfl, hinside.sent_around hopening (hend _ _),
        blamed_of_mem (x := .control k .commit (.error e)) (by simp) rfl⟩
    · exact ⟨_, _, rfl, hinside.around hopening (hend _ _)⟩

end

/-- A call around work that runs queries sends their statements, and what it reports is accounted
for. -/
theorem accounted_propagate (haround : ∀ p : Problem, p.isAround = true → raises p)
    (hf : ∀ k, Queries O sends raises k (f k)) (c : Context) (ambient : Option Connection)
    (mode : Propagation) : Accounted sends raises (O.store.propagate c ambient mode f) := by
  have hguarded := fun k => O.accounted_guarded mode (hf k)
  rw [Store.propagate_eq]
  cases mode.scope ambient with
  | refused =>
    intro h
    refine ⟨_, [], by rw [List.append_nil]; rfl, accounts_of_none (List.forall_mem_nil _) ?_⟩
    exact blamed_of_raises (haround .ambientRequired rfl)
  | joined k => exact O.accounted_join haround hguarded c k
  | owned => exact O.accounted_runOwned haround hguarded c

/-! ### Where the work stands -/

section

variable {makes : Connection → History → Prop} {h new : History}

/-- The statements on data are those of one piece of work on a connection, if there are any. -/
inductive Encloses (makes : Connection → History → Prop) : History → Prop where
  | mk {before inside after : History} (hbefore : ∀ x ∈ before, x.statement? = none)
    (hinside : inside = [] ∨ ∃ k, makes k inside) (hafter : ∀ x ∈ after, x.statement? = none) :
    Encloses makes (before ++ inside ++ after)

theorem encloses_of_none (hnew : ∀ x ∈ new, x.statement? = none) : Encloses makes new := by
  rw [← List.append_nil new, ← List.append_nil (new ++ [])]
  exact .mk hnew (.inl rfl) (List.forall_mem_nil _)

/-- Calls without statements on data may stand around. -/
theorem Encloses.around {before after : History} (hnew : Encloses makes new)
    (hbefore : ∀ x ∈ before, x.statement? = none) (hafter : ∀ x ∈ after, x.statement? = none) :
    Encloses makes (before ++ new ++ after) := by
  obtain ⟨hbefore', hinside, hafter'⟩ := hnew
  rw [List.append_assoc _ _ after, List.append_assoc _ _ after, ← List.append_assoc,
    ← List.append_assoc before]
  exact .mk (List.forall_mem_append.2 ⟨hbefore, hbefore'⟩) hinside
    (List.forall_mem_append.2 ⟨hafter', hafter⟩)

theorem Encloses.mono {makes' : Connection → History → Prop} (hnew : Encloses makes new)
    (h : ∀ k inside, makes k inside → makes' k inside) : Encloses makes' new := by
  obtain ⟨hbefore, hinside, hafter⟩ := hnew
  exact .mk hbefore (hinside.imp_right fun ⟨k, hmakes⟩ => ⟨k, h k _ hmakes⟩) hafter

/-- The statements that close a savepoint are none on data. -/
theorem statement?_closing {p : Savepoint} {ended : Ending} {tail : History}
    (htail : Closing k p ended tail) : ∀ x ∈ tail, x.statement? = none := by
  cases htail with
  | released => simp [Exchange.statement?]
  | unreleased e htail => exact List.forall_mem_cons.2 ⟨rfl, statement?_takenBack htail⟩
  | failed hended htail => exact statement?_takenBack htail

variable (hf : ∀ k h, ∃ inside, ((f k).on h).2 = h ++ inside ∧ (∀ x ∈ inside, x.isPlain) ∧
  makes k inside)

include hf

/-- A savepoint adds no statement on data to those of the work behind it. -/
theorem encloses_guarded (mode : Propagation) (k : Connection) (h : History) :
    ∃ new, O.works mode f k h new ∧ Encloses makes new := by
  by_cases hmode : mode = .savepoint
  · subst hmode
    obtain ⟨inside, hrun, hplain, hmakes⟩ := hf k (h ++ setting k h)
    obtain ⟨new, hcall, hbracket⟩ := O.bracket_savepointOn hrun fun x hx => by
      rw [Exchange.savepoint?_of_isPlain (hplain x hx)]
      exact nofun
    refine ⟨new, hcall, ?_⟩
    cases hbracket with
    | rejected e => exact encloses_of_none (by simp [Exchange.statement?])
    | closed hruns _ htail =>
      -- The work runs only once, so these are the calls that it has made.
      obtain ⟨ending, hon, -⟩ := hruns
      obtain rfl := List.append_cancel_left ((congrArg Prod.snd hon).symm.trans hrun)
      exact .mk (by simp [Exchange.statement?]) (.inr ⟨k, hmakes⟩) (statement?_closing htail)
  · obtain ⟨inside, hrun, -, hmakes⟩ := hf k h
    refine ⟨inside, ?_, ?_⟩
    · rw [works, Store.guarded_of_ne _ hmode, Work.on_map]
      exact hrun
    · rw [← List.nil_append inside, ← List.append_nil ([] ++ inside)]
      exact .mk (List.forall_mem_nil _) (.inr ⟨k, hmakes⟩) (List.forall_mem_nil _)

/-- The statements on data of a call are those of its work, in their order, and those of no more
than one run of it. -/
theorem encloses_propagate (c : Context) (ambient : Option Connection) (mode : Propagation)
    (h : History) : ∃ new, ((O.store.propagate c ambient mode f).on h).2 = h ++ new ∧
      Encloses makes new := by
  have hcall : ∃ new, ((O.store.propagate c ambient mode f).on h).2 = h ++ new ∧
      Conduct c ambient (O.works mode f) h new :=
    O.conduct_propagate fun k a _ => (O.encloses_guarded hf mode k (h ++ a)).imp fun _ => And.left
  obtain ⟨new, hrun, hconduct⟩ := hcall
  refine ⟨new, hrun, ?_⟩
  have hworks {k : Connection} {g inside : History} (hinside : O.works mode f k g inside) :
      Encloses makes inside := by
    obtain ⟨inside', hworks, hencloses⟩ := O.encloses_guarded hf mode k g
    exact List.append_cancel_left (hworks.symm.trans hinside) ▸ hencloses
  cases hconduct with
  | idle | refused | unbegun => exact encloses_of_none (by simp [Exchange.statement?])
  | joined _ hinside =>
    exact (hworks hinside).around (by simp [Exchange.statement?]) (by simp [Exchange.statement?])
  | owned hinside =>
    exact (hworks hinside).around (by simp [opening, Exchange.statement?])
      (by simp [Exchange.statement?])

end

end Oracle

end ResourceEngine
