import ResourceEngine.Proofs.Store.Oracle

/-!
# Who finishes a transaction

Every transaction that is opened is finished once, by the call that opened it, whatever the store
answers, whenever contexts are done and however closures end. `IsTidy` says of work that it leaves
the transactions around it open and those inside of it finished; a call keeps this, whichever scope
it runs its closure in. `OwnedCall` says how a call goes that owns its transaction.
-/

namespace ResourceEngine

open History

/-- The second history goes on from the first one with calls that are tidy. -/
def TidyTo {n : Nat} (u : Surrounding n) (h h' : History) : Prop :=
  ∃ new, h' = h ++ new ∧ Tidy u h new

/-- The calls that the work makes are tidy. -/
def IsTidy {n : Nat} {α : Type} (u : Surrounding n) (w : Work History α) : Prop :=
  ∀ h, Within u h → TidyTo u h (w.on h).2

section

variable {n : Nat} {u : Surrounding n} {h h' h'' : History}

theorem TidyTo.refl (u : Surrounding n) (h : History) : TidyTo u h h :=
  ⟨[], (List.append_nil h).symm, .nil u h⟩

theorem Within.of_tidyTo (hu : Within u h) (ha : TidyTo u h h') : Within u h' := by
  obtain ⟨a, rfl, -⟩ := ha
  exact hu.append a

/-- Calls that are tidy one after another are tidy together. -/
theorem TidyTo.trans (hu : Within u h) (ha : TidyTo u h h') (hb : TidyTo u h' h'') :
    TidyTo u h h'' := by
  obtain ⟨a, rfl, ha⟩ := ha
  obtain ⟨b, rfl, hb⟩ := hb
  exact ⟨a ++ b, List.append_assoc .., ha.append hu hb⟩

theorem Tidy.tidyTo {new : History} (hnew : Tidy u h new) : TidyTo u h (h ++ new) :=
  ⟨new, rfl, hnew⟩

end

/-! ### Tidy work -/

section

variable {n : Nat} {α β : Type} {u : Surrounding n}

theorem isTidy_resume (ending : Except Stop α) : IsTidy u (Work.resume ending) :=
  fun h _ => .refl u h

/-- Work that goes on, whatever the ending of its first part, is tidy if its parts are. -/
theorem isTidy_bind {w : Work History α} {g : Except Stop α → Work History β} (hw : IsTidy u w)
    (hg : ∀ ending, IsTidy u (g ending)) : IsTidy u (w.attempt >>= g) := by
  intro h hu
  have ha := hw h hu
  rw [Work.on_bind, Work.on_attempt]
  exact ha.trans hu (hg _ _ (hu.of_tidyTo ha))

/-- Work in a transaction that is around already is work in the transactions around. -/
theorem IsTidy.of_push {i : Fin n} {w : Work History α} (hw : IsTidy (u.push (u i)) w) :
    IsTidy u w := by
  intro h hu
  obtain ⟨new, hrun, htidy⟩ := hw h (hu.push (hu i))
  exact ⟨new, hrun, htidy.of_push⟩

theorem isTidy_map (g : α → β) {w : Work History α} (hw : IsTidy u w) : IsTidy u (g <$> w) := by
  intro h hu
  rw [Work.on_map]
  exact hw h hu

theorem isTidy_pass : IsTidy u (liftM Oracle.pass : Work History Unit) :=
  fun _ hu => (Tidy.aside hu (fun _ => rfl) rfl).tidyTo

end

namespace Oracle

variable {n : Nat} {α : Type} {u : Surrounding n} (O : Oracle)

theorem isTidy_query (i : Fin n) (sql : Sql) : IsTidy u (O.store.query (u i) sql) :=
  fun _ hu => (Tidy.statement hu i (fun _ => eq_of_beq) rfl).tidyTo

theorem isTidy_execute (i : Fin n) (sql : Sql) : IsTidy u (O.store.execute (u i) sql) :=
  fun _ hu => (Tidy.statement hu i (fun _ => eq_of_beq) rfl).tidyTo

/-! ### Savepoints -/

theorem control_run (k : Connection) (c : Control) (h : History) :
    (O.store.control k c).run h = (O.control h k c, h ++ [.control k c (O.control h k c)]) := rfl

/-- A statement about a savepoint neither begins nor ends a transaction. -/
theorem tidyTo_control {h : History} (hu : Within u h) (i : Fin n) {c : Control}
    (hc : (Exchange.control (u i) c (O.control h (u i) c)).isBoundary = false) :
    TidyTo u h ((O.store.control (u i) c).run h).2 :=
  (Tidy.statement hu i (fun _ => eq_of_beq) hc).tidyTo

/-- To roll back to a savepoint, and to release it then, is tidy. -/
theorem tidyTo_rollbackTo {h : History} (hu : Within u h) (i : Fin n) (p : Savepoint) :
    TidyTo u h ((O.store.rollbackTo (u i) p).run h).2 := by
  have hback := O.tidyTo_control (c := .rollbackTo p) hu i rfl
  rw [Store.rollbackTo_run]
  rcases hrun : (O.store.control (u i) (.rollbackTo p)).run h with ⟨e | _, h₁⟩ <;>
    rw [hrun] at hback
  · exact hback
  · exact hback.trans hu (O.tidyTo_control (hu.of_tidyTo hback) i rfl)

/-- Work behind a savepoint is tidy if the work is. -/
theorem isTidy_savepointOn (i : Fin n) {f : Connection → Work History α}
    (hf : IsTidy u (f (u i))) : IsTidy u (O.store.savepointOn (u i) f) := by
  intro h hu
  have hdraw : TidyTo u h (O.store.freshSavepoint.run h).2 :=
    (Tidy.aside hu (fun _ => rfl) rfl).tidyTo
  rw [Store.savepointOn_on]
  rcases hrun : O.store.freshSavepoint.run h with ⟨p, h₁⟩
  rw [hrun] at hdraw
  have hset := hdraw.trans hu (O.tidyTo_control (c := .savepoint p) (hu.of_tidyTo hdraw) i rfl)
  simp only
  rcases hrun : (O.store.control (u i) (.savepoint p)).run h₁ with ⟨e | _, h₂⟩ <;>
    rw [hrun] at hset
  · exact hset
  have hbody := hset.trans hu (hf h₂ (hu.of_tidyTo hset))
  -- However the closure ends, what follows is a statement or two on the same connection.
  simp only
  rcases hrun : (f (u i)).on h₂ with ⟨(e | message) | a, h₃⟩ <;> rw [hrun] at hbody
  · exact hbody.trans hu (O.tidyTo_rollbackTo (hu.of_tidyTo hbody) i p)
  · exact hbody.trans hu (O.tidyTo_rollbackTo (hu.of_tidyTo hbody) i p)
  have hend := hbody.trans hu (O.tidyTo_control (c := .release p) (hu.of_tidyTo hbody) i rfl)
  simp only
  rcases hrun : (O.store.control (u i) (.release p)).run h₃ with ⟨e | _, h₄⟩ <;>
    rw [hrun] at hend
  · exact hend.trans hu (O.tidyTo_rollbackTo (hu.of_tidyTo hend) i p)
  · exact hend

/-- Work is as tidy guarded as it is itself. -/
theorem isTidy_guarded (mode : Propagation) (i : Fin n) {f : Connection → Work History α}
    (hf : IsTidy u (f (u i))) : IsTidy u (O.store.guarded mode f (u i)) := by
  cases mode with
  | savepoint => exact O.isTidy_savepointOn i hf
  | current | mandatory | requiredNew => exact isTidy_map _ hf

/-! ### Scopes -/

/-- A call that joins is tidy if its closure is; the contexts that it binds are no statements. -/
theorem isTidy_join (c : Context) (i : Fin n) {f : Connection → Work History α}
    (hf : IsTidy u (f (u i))) : IsTidy u (O.store.join c (u i) f) := by
  intro h hu
  rw [Store.join_on]
  cases c.problem? (O.store.moment h) with
  | some p => exact .refl u h
  | none =>
    have hbind {h' : History} (hu' : Within u h') (d : Option Context) :
        TidyTo u h' ((O.store.bindContext (u i) d).run h').2 :=
      (Tidy.aside hu' (fun _ => rfl) rfl).tidyTo
    have hfirst := hbind hu (some c)
    have hbody := hfirst.trans hu (hf _ (hu.of_tidyTo hfirst))
    exact hbody.trans hu (hbind (hu.of_tidyTo hbody) _)

/-- The next connection. -/
def next (h : History) : Connection := ⟨connections h + 1⟩

/-- The calls that open a transaction. -/
def opening (c : Context) (h : History) : History :=
  [.connect c (.ok (next h)), .control (next h) .begin (.ok ())]

/-- How the closure of a call ends that runs on a connection after a history. A call whose savepoint
is rejected does not run its closure. -/
def closing (mode : Propagation) (f : Connection → Work History α) (k : Connection) (h : History) :
    Option Ending :=
  match mode with
  | .savepoint =>
    match (O.store.freshSavepoint).run h with
    | (p, h₁) =>
      match (O.store.control k (.savepoint p)).run h₁ with
      | (.error _, _) => none
      | (.ok (), h₂) => some (.of ((f k).on h₂).1)
  | _ => some (.of ((f k).on h).1)

/-- The closure of a call ends in such a way that a transaction of the call is committed. -/
def Approved (mode : Propagation) (f : Connection → Work History α) (k : Connection)
    (h : History) : Prop :=
  ∀ ended ∈ O.closing mode f k h, mode.commitsOn ended

/-- A closure is approved exactly if the guarded work gives an outcome back. -/
theorem approved_iff (mode : Propagation) (f : Connection → Work History α) (k : Connection)
    (h : History) :
    O.Approved mode f k h ↔ ∃ o, ((O.store.guarded mode f k).on h).1 = .ok o := by
  by_cases hmode : mode = .savepoint
  · subst hmode
    show _ ↔ ∃ o, ((O.store.savepointOn k f).on h).1 = .ok o
    rw [Approved, closing, Store.savepointOn_on]
    rcases O.store.freshSavepoint.run h with ⟨p, h₁⟩
    simp only
    rcases (O.store.control k (.savepoint p)).run h₁ with ⟨e | _, h₂⟩
    -- Without a savepoint the closure does not run, and the error is absorbed.
    · simp
    simp only
    rcases (f k).on h₂ with ⟨(e | message) | a, h₃⟩
    · simp [Propagation.commitsOn]
    · simp [Propagation.commitsOn]
    simp only
    rcases (O.store.control k (.release p)).run h₃ with ⟨e | _, h₄⟩ <;>
      simp [Propagation.commitsOn]
  · have hclosing : O.closing mode f k h = some (.of ((f k).on h).1) := by
      cases mode <;> first | rfl | exact absurd rfl hmode
    rw [Store.guarded_of_ne _ hmode, Work.on_map, ← Propagation.settle_of_ne hmode,
      ← Propagation.commitsOn_iff_settle]
    unfold Approved
    rw [hclosing]
    simp

/-- How a call goes that owns its transaction: what it gives back, and the calls of the store that
it makes after a history. -/
inductive OwnedCall (c : Context) (mode : Propagation) (f : Connection → Work History α)
    (h : History) : Except Stop (Outcome α) → History → Prop where
  /-- The context is done before anything happens. -/
  | done (e : Error) (hc : c.isDone (O.moment h)) (he : e.kind = .internal) :
    OwnedCall c mode f h (.error (.error e)) []
  | refused (e : Error) : OwnedCall c mode f h (.error (.error e)) [.connect c (.error e)]
  | rejected (e : Error) :
    OwnedCall c mode f h (.error (.error e))
      [.connect c (.ok (next h)), .control (next h) .begin (.error e)]
  /-- The calls of the closure, with those for its savepoint if it has one, stand between the
  beginning and the end. -/
  | finished (ending : Except Stop (Outcome α)) (inside : History) (fin : Control)
    (answer : Except Error Unit)
    (hrun : ((O.store.guarded mode f (next h)).on (h ++ opening c h)).2 =
      h ++ opening c h ++ inside)
    (hinside : ∀ x ∈ on (next h) inside, ¬x.isBoundary)
    (hfin : fin = .commit ∨ fin = .rollback)
    (hcommit : fin = .commit ↔ c.isDone (O.moment (h ++ opening c h ++ inside)) = false ∧
      O.Approved mode f (next h) (h ++ opening c h))
    (hdone : c.isDone (O.moment (h ++ opening c h ++ inside)) →
      O.Approved mode f (next h) (h ++ opening c h) →
        ∃ e : Error, ending = .error (.error e) ∧ e.kind = .internal)
    (hending : (∃ o, ending = .ok o) ↔ fin = .commit ∧ answer = .ok ()) :
    OwnedCall c mode f h ending (opening c h ++ inside ++ [.control (next h) fin answer])

/-- A problem of a context means that the context is done, and it is reported as internal. -/
theorem kind_of_problem? {c : Context} {m : Moment} {p : Problem} (h : c.problem? m = some p) :
    c.isDone m = true ∧ p.error.kind = .internal := by
  refine ⟨by rw [← Context.isSome_problem?, h]; rfl, ?_⟩
  unfold Context.problem? at h
  split at h
  · cases h
    rfl
  · split at h
    · cases h
      rfl
    · exact nomatch h

/-- A context without a problem is not done. -/
theorem isDone_of_problem? {c : Context} {m : Moment} (h : c.problem? m = none) :
    c.isDone m = false := by
  rw [← Context.isSome_problem?, h]
  rfl

theorem connect_run (c : Context) (h : History) :
    (O.store.connect c).run h = (O.connect h c, h ++ [.connect c (O.connect h c)]) := rfl

/-- What is made of work in a new transaction: it is tidy with the calls around it. -/
theorem tidy_opening {c : Context} {h inside : History} {fin : Control}
    (hinside : Tidy (u.push (next h)) (h ++ opening c h) inside)
    (hfin : fin = .commit ∨ fin = .rollback) (answer : Except Error Unit) :
    Tidy u h (opening c h ++ inside ++ [.control (next h) fin answer]) := by
  have hone : connections (h ++ opening c h) = connections (h ++ [.connect c (.ok (next h))]) := by
    rw [connections_append, connections_append]
    rfl
  refine Tidy.opened (a := inside) (k := next h) rfl c ?_ (fun j hj => ?_) ?_ (hinside.congr hone)
  · show connections (Exchange.control (next h) .begin (.ok ()) :: (inside ++ _)) = _
    simp [connections, Exchange.isConnect]
  · show on j (Exchange.control (next h) .begin (.ok ()) :: (inside ++ _)) = _
    rw [on_control_of_ne hj.symm, on_append, on_control_of_ne hj.symm, on_nil, List.append_nil]
  · show Finished (next h)
      (on (next h) (Exchange.control (next h) .begin (.ok ()) :: (inside ++ _)))
    rw [on_control_self, on_append, on_control_self, on_nil]
    refine .ended _ fin answer (hinside.inside (next h) ?_) hfin
    rw [connections_append]
    exact Nat.le_refl _

/-- How the beginning of a transaction goes. -/
theorem begin_cases (c : Context) (h : History) :
    (∃ e, (O.store.begin c).on h = (.error (.error e), h) ∧
      c.isDone (O.moment h) ∧ e.kind = .internal) ∨
    (∃ e, (O.store.begin c).on h = (.error (.error e), h ++ [.connect c (.error e)])) ∨
    (∃ e, (O.store.begin c).on h = (.error (.error e),
      h ++ [.connect c (.ok (next h)), .control (next h) .begin (.error e)])) ∨
    (O.store.begin c).on h = (.ok (next h), h ++ opening c h) := by
  rw [Store.begin_on]
  cases hc : c.problem? (O.store.moment h) with
  | some p => exact .inl ⟨p.error, rfl, kind_of_problem? hc⟩
  | none =>
    refine .inr ?_
    simp only [connect_run]
    cases hrefusal : O.refusal h c with
    | some e =>
      have hconnect : O.connect h c = .error e := by rw [connect, hrefusal]
      rw [hconnect]
      exact .inl ⟨e, rfl⟩
    | none =>
      have hconnect : O.connect h c = .ok (next h) := by
        rw [connect, hrefusal]
        rfl
      refine .inr ?_
      rw [hconnect]
      rcases hbegin : O.control (h ++ [.connect c (.ok (next h))]) (next h) .begin with e | ⟨⟩ <;>
        simp only [control_run, hbegin, List.append_assoc]
      · exact .inl ⟨e, rfl⟩
      · exact .inr rfl

/-- How the end of a transaction goes whose closure has come back with a value. -/
theorem finish_cases (c : Context) (k : Connection) (h : History) :
    (∃ e answer, (O.store.finish c k).on h =
        (.error (.error e), h ++ [.control k .rollback answer]) ∧
      c.isDone (O.moment h) ∧ e.kind = .internal) ∨
    (∃ answer, (O.store.finish c k).on h =
        (answer.mapError Stop.error, h ++ [.control k .commit answer]) ∧
      c.isDone (O.moment h) = false) := by
  rw [Store.finish_on]
  cases hc : c.problem? (O.store.moment h) with
  | some p => exact .inl ⟨p.error, _, rfl, kind_of_problem? hc⟩
  | none => exact .inr ⟨_, rfl, isDone_of_problem? hc⟩

/-- How a transaction ends that has been opened, by what the work in it comes back with. -/
theorem runOwned_of_begin {β : Type} {c : Context} {g : Connection → Work History β}
    {h h₁ h₂ : History} {k : Connection} {result : Except Stop β}
    (hbegin : (O.store.begin c).on h = (.ok k, h₁)) (hrun : (g k).on h₁ = (result, h₂)) :
    ∃ ending fin answer, (O.store.runOwned c g).on h = (ending, h₂ ++ [.control k fin answer]) ∧
      (fin = .commit ∨ fin = .rollback) ∧
      (fin = .commit ↔ c.isDone (O.moment h₂) = false ∧ ∃ b, result = .ok b) ∧
      (c.isDone (O.moment h₂) → (∃ b, result = .ok b) →
        ∃ e : Error, ending = .error (.error e) ∧ e.kind = .internal) ∧
      ((∃ b, ending = .ok b) ↔ fin = .commit ∧ answer = .ok ()) := by
  rw [Store.runOwned_on, hbegin]
  simp only [hrun]
  cases result with
  | error stop => exact ⟨_, .rollback, _, rfl, .inr rfl, by simp, by simp, by simp⟩
  | ok b =>
    obtain ⟨e, answer, hfinish, hdone, hkind⟩ | ⟨answer, hfinish, hdone⟩ :=
      O.finish_cases c k h₂ <;> simp only [hfinish]
    · exact ⟨_, .rollback, answer, rfl, .inr rfl, by simp [hdone], fun _ _ => ⟨e, rfl, hkind⟩,
        by simp [Except.map]⟩
    · refine ⟨_, .commit, answer, rfl, .inl rfl, by simp [hdone], by simp [hdone], ?_⟩
      cases answer with
      | error e => exact ⟨fun ⟨_, hok⟩ => (nomatch hok), fun ⟨_, hok⟩ => (nomatch hok)⟩
      | ok u => exact ⟨fun _ => ⟨rfl, rfl⟩, fun _ => ⟨b, rfl⟩⟩

/-- A call that owns its transaction finishes it. -/
theorem ownedCall_runOwned (c : Context) (mode : Propagation) {f : Connection → Work History α}
    {h : History} (hu : Within u h) (hf : IsTidy (u.push (next h)) (f (next h))) :
    ∃ ending new, (O.store.runOwned c (O.store.guarded mode f)).on h = (ending, h ++ new) ∧
      OwnedCall O c mode f h ending new ∧ Tidy u h new := by
  obtain ⟨e, hbegin, hdone, hkind⟩ | ⟨e, hbegin⟩ | ⟨e, hbegin⟩ | hbegin := O.begin_cases c h
  · refine ⟨_, [], ?_, .done e hdone hkind, .nil u h⟩
    rw [Store.runOwned_on, hbegin, List.append_nil]
  · refine ⟨_, _, ?_, .refused e, .aside hu (fun _ => rfl) rfl⟩
    rw [Store.runOwned_on, hbegin]
  · refine ⟨_, _, ?_, .rejected e, .opened (a := []) (k := next h) rfl c rfl ?_ ?_ (.nil _ _)⟩
    · rw [Store.runOwned_on, hbegin]
    · intro j hj
      rw [on_control_of_ne hj.symm]
    · rw [on_control_self]
      exact .rejected e
  -- The transaction is open, and the work in it sees one more connection.
  have hcount : connections (h ++ opening c h) = connections h + 1 := connections_append ..
  have hnew : (next h).id ≤ connections (h ++ opening c h) := Nat.le_of_eq hcount.symm
  obtain ⟨inside, hrun, htidy⟩ := O.isTidy_guarded mode 0 hf _ ((hu.append _).push hnew)
  rw [Surrounding.push_zero] at hrun
  obtain ⟨ending, fin, answer, hcall, hfin, hcommit, hdone, hending⟩ :=
    O.runOwned_of_begin hbegin (Prod.ext rfl hrun)
  rw [← O.approved_iff] at hcommit hdone
  refine ⟨ending, opening c h ++ inside ++ [.control (next h) fin answer], ?_, ?_, ?_⟩
  · rw [hcall]
    simp only [List.append_assoc]
  · exact .finished ending inside fin answer hrun (htidy.inside _ hnew) hfin hcommit hdone hending
  · exact tidy_opening htidy hfin answer

/-! ### Work of calls -/

/-- On some connection, and between the histories, the work has ended with the value. -/
def Ran (f : Connection → Work History α) (a : α) (h h' : History) : Prop :=
  ∃ k h₀ h₁, (f k).on h₀ = (.ok a, h₁) ∧ h <+: h₀ ∧ h₁ <+: h'

/-- On some connection the work has ended with the value, and what stands around it between the
histories is no statement on data. -/
def Made (f : Connection → Work History α) (a : α) (h h' : History) : Prop :=
  ∃ k h₀ h₁, (f k).on h₀ = (.ok a, h₁) ∧ Sent h h₀ [] ∧ Sent h₁ h' []

section Ran

variable {O : Oracle} {f : Connection → Work History α} {a : α} {c : Context} {k : Connection}
  {h h' : History}

/-- What a joining call has done its closure has done. -/
theorem made_of_join (hrun : (O.store.join c k f).on h = (.ok a, h')) : Made f a h h' := by
  rw [Store.join_on] at hrun
  split at hrun
  · exact nomatch hrun
  · obtain ⟨hending, rfl⟩ := Prod.mk.inj hrun
    exact ⟨k, _, _, Prod.ext hending rfl, sent_append _ rfl, sent_append _ rfl⟩

/-- What a call with a transaction of its own has done its closure has done, on the new connection.
-/
theorem made_of_runOwned (hrun : (O.store.runOwned c f).on h = (.ok a, h')) : Made f a h h' := by
  -- With a value at the end, the transaction has begun, the closure has ended with the value, and
  -- the commit was accepted.
  obtain ⟨e, hbegin, -⟩ | ⟨e, hbegin⟩ | ⟨e, hbegin⟩ | hbegin := O.begin_cases c h
  · rw [Store.runOwned_on, hbegin] at hrun
    exact nomatch hrun
  · rw [Store.runOwned_on, hbegin] at hrun
    exact nomatch hrun
  · rw [Store.runOwned_on, hbegin] at hrun
    exact nomatch hrun
  rcases hwork : (f (next h)).on (h ++ opening c h) with ⟨stop | b, h₁⟩ <;>
    rw [Store.runOwned_on, hbegin] at hrun <;> simp only [hwork] at hrun
  · exact nomatch hrun
  obtain ⟨e, answer, hfinish, -⟩ | ⟨answer, hfinish, -⟩ := O.finish_cases c (next h) h₁ <;>
    rw [hfinish] at hrun
  · exact nomatch hrun
  · cases answer with
    | error e => exact nomatch hrun
    | ok u =>
      cases hrun
      exact ⟨_, _, _, hwork, sent_append _ rfl, sent_append _ rfl⟩

/-- What a savepoint has kept the work behind it has done. -/
theorem made_of_savepointOn (hrun : (O.store.savepointOn k f).on h = (.ok (.done a), h')) :
    Made f a h h' := by
  have hdraw : O.store.freshSavepoint.run h =
      (⟨History.savepoints h⟩, h ++ [.draw ⟨History.savepoints h⟩]) := rfl
  rw [Store.savepointOn_on, hdraw] at hrun
  simp only [control_run, List.append_assoc] at hrun
  split at hrun
  · exact nomatch hrun
  next h₁ hset =>
    obtain ⟨-, rfl⟩ := Prod.mk.inj hset
    split at hrun
    · next b h₂ hwork =>
      split at hrun
      · next h₃ hrelease =>
        obtain ⟨-, rfl⟩ := Prod.mk.inj hrelease
        cases hrun
        exact ⟨k, _, _, hwork, sent_append _ rfl, sent_append _ rfl⟩
      · exact nomatch hrun
    · exact nomatch hrun
    · exact nomatch hrun

/-- What guarded work has done the work has done. -/
theorem made_of_guarded {mode : Propagation}
    (hrun : (O.store.guarded mode f k).on h = (.ok (.done a), h')) : Made f a h h' := by
  by_cases hmode : mode = .savepoint
  · subst hmode
    exact made_of_savepointOn hrun
  · rw [Store.guarded_of_ne _ hmode, Work.on_map] at hrun
    rcases hwork : (f k).on h with ⟨stop | b, h₁⟩ <;> rw [hwork] at hrun <;> cases hrun
    exact ⟨k, h, _, hwork, .refl h, .refl h₁⟩

/-- Work that a call has done has run on a transaction of the call, and the call itself has run no
statement on data. -/
theorem made_of_propagate {mode : Propagation} {ambient : Option Connection}
    (hrun : (O.store.propagate c ambient mode f).on h = (.ok (.done a), h')) : Made f a h h' := by
  have hguarded : Made (O.store.guarded mode f) (.done a) h h' := by
    rw [Store.propagate_eq] at hrun
    cases hscope : mode.scope ambient <;> rw [hscope] at hrun
    · exact nomatch hrun
    · exact made_of_join hrun
    · exact made_of_runOwned hrun
  obtain ⟨k, h₀, h₁, hwork, hfirst, hlast⟩ := hguarded
  obtain ⟨j, h₂, h₃, hinside, hbefore, hafter⟩ := made_of_guarded hwork
  exact ⟨j, h₂, h₃, hinside, hfirst.trans hbefore, hafter.trans hlast⟩

/-- What a call has done its closure has done, on some connection and within the history of the
call. -/
theorem ran_of_propagate {mode : Propagation} {ambient : Option Connection}
    (hrun : (O.store.propagate c ambient mode f).on h = (.ok (.done a), h')) : Ran f a h h' := by
  obtain ⟨k, h₀, h₁, hwork, hfirst, hlast⟩ := made_of_propagate hrun
  exact ⟨k, h₀, h₁, hwork, hfirst.isPrefix, hlast.isPrefix⟩

end Ran

/-! ### Calls and procedures -/

/-- A call under any propagation is tidy if its closure is. -/
theorem isTidy_propagate (c : Context) (mode : Propagation) (ambient : Option (Fin n))
    {f : Connection → Work History α} (hf : ∀ k, IsTidy (u.push k) (f k)) :
    IsTidy u (O.store.propagate c (ambient.map u) mode f) := by
  intro h hu
  rw [Store.propagate_eq]
  cases hscope : mode.scope (ambient.map u) with
  | refused => exact .refl u h
  | joined k =>
    obtain ⟨i, -, rfl⟩ := Option.map_eq_some_iff.1 (Propagation.eq_some_of_scope hscope)
    -- The closure gets a transaction that is around already, as if it were one more.
    exact O.isTidy_join c i (O.isTidy_guarded mode 0 (hf (u i))).of_push h hu
  | owned =>
    obtain ⟨_, new, hrun, -, htidy⟩ := O.ownedCall_runOwned c mode hu (hf (next h))
    exact ⟨new, congrArg Prod.snd hrun, htidy⟩

/-- Procedures are tidy, by induction on the tree. -/
theorem isTidy_run (p : Procedure α n) (u : Surrounding n) : IsTidy u (p.run O.store pass u) := by
  induction p with
  | give a => exact isTidy_resume (.ok a)
  | fail e => exact isTidy_resume (.error (.error e))
  | panic message => exact isTidy_resume (.error (.panic message))
  | execute i sql next ih => exact isTidy_bind (O.isTidy_execute i sql) fun answer => ih answer u
  | query i sql next ih => exact isTidy_bind (O.isTidy_query i sql) fun answer => ih answer u
  | wait next ih =>
    intro h hu
    have hpass : TidyTo u h (pass.run h).2 := isTidy_pass h hu
    rw [Procedure.run_wait_on]
    exact hpass.trans hu (ih _ u _ (hu.of_tidyTo hpass))
  | call c mode ambient body next ihbody ihnext =>
    exact isTidy_bind (O.isTidy_propagate c mode ambient fun k => ihbody (u.push k))
      fun answer => ihnext answer u

/-- Every call finishes what it opens, and nothing else, whatever its closure does, wherever it
stands in a tree of calls and whatever has happened before. A call that joins a transaction neither
begins nor ends one on its connection; a call that owns one ends it as `OwnedCall` says; and each
transaction that is opened inside is finished, which is what `Tidy` says. -/
theorem propagate_finishes (c : Context) (mode : Propagation) (ambient : Option (Fin n))
    (body : Procedure α (n + 1)) (u : Surrounding n) (h : History)
    (hu : ∀ i, (u i).id ≤ connections h) :
    let closure := fun k => body.run O.store pass (u.push k)
    ∃ ending new,
      (O.store.propagate c (ambient.map u) mode closure).on h = (ending, h ++ new) ∧
      Tidy u h new ∧
      (∀ k, mode.scope (ambient.map u) = .joined k → ∀ x ∈ on k new, ¬x.isBoundary) ∧
      (mode.scope (ambient.map u) = .owned → O.OwnedCall c mode closure h ending new) := by
  intro closure
  have hclosure k : IsTidy (u.push k) (closure k) := O.isTidy_run body (u.push k)
  -- A call that owns its transaction is the only one to begin and to end one; for the others it is
  -- enough that they are tidy.
  by_cases howned : mode.scope (ambient.map u) = .owned
  · obtain ⟨ending, new, hrun, hcall, htidy⟩ := O.ownedCall_runOwned c mode hu (hclosure (next h))
    refine ⟨ending, new, ?_, htidy, ?_, fun _ => hcall⟩
    · rw [Store.propagate_eq, howned]
      exact hrun
    · intro k hk
      rw [howned] at hk
      exact nomatch hk
  · obtain ⟨new, hrun, htidy⟩ := O.isTidy_propagate c mode ambient hclosure h hu
    refine ⟨_, new, Prod.ext rfl hrun, htidy, ?_, fun ho => absurd ho howned⟩
    intro k hk
    obtain ⟨i, -, rfl⟩ := Option.map_eq_some_iff.1 (Propagation.eq_some_of_scope hk)
    exact htidy.inside (u i) (hu i)

/-- Accepts everything, and answers every query with the same rows. -/
def accepting (rows : List Row) : Oracle where
  dialect := .sqlite
  moment _ := ⟨[], 0⟩
  refusal _ _ := none
  control _ _ _ := .ok ()
  query _ _ _ := .ok rows
  execute _ _ _ := .ok 0

/-- A closure that joins the first transaction, and fails in one of its own. -/
theorem propagate_finishes_inner :
    let O := accepting []
    let h := opening .background []
    let u : Surrounding 1 := fun _ => next []
    let body : Procedure Unit 2 :=
      .call .background .requiredNew none
        (.execute 0 [.raw "a"] fun _ => .fail (Error.internal "refused"))
        fun _ => .give ()
    (∀ i, (u i).id ≤ connections h) ∧ ∃ ending new,
      (O.store.propagate .background (some (next [])) .savepoint fun k =>
        body.run O.store pass (u.push k)).on h = (ending, h ++ new) ∧
      (∀ x ∈ on (next []) new, ¬x.isBoundary) ∧ Finished (next h) (on (next h) new) := by
  intro O h u body
  have hu : ∀ i, (u i).id ≤ connections h := fun _ => Nat.le_refl 1
  obtain ⟨ending, new, hrun, htidy, hjoined, -⟩ :=
    O.propagate_finishes .background .savepoint (some 0) body u h hu
  exact ⟨hu, ending, new, hrun, hjoined (next []) rfl, htidy.finished (next h) (Nat.lt_succ_self 1)⟩

end Oracle

end ResourceEngine
