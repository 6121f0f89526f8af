import ResourceEngine.Proofs.Engine.Asking

/-!
# What a status tells

A request whose response has a success status has been committed, and one with the status of an
error has not. On its transaction the engine asks for rows and does nothing else, which is what
`Asks` says, so the end of the transaction is the only call that can commit; and what comes after it
cannot fail, since the format of the answer has been found before.
-/

namespace ResourceEngine

open History

/-- The statement begins a transaction, whether or not it is accepted. -/
def Exchange.isBegin : Exchange → Bool
  | .control _ .begin _ => true
  | _ => false

/-- A transaction has been committed. -/
def Committed (h : History) : Prop := ∃ k, .control k .commit (.ok ()) ∈ h

/-- No query panics. -/
def Oracle.Calm (O : Oracle) : Prop := ∀ h k sql message, O.query h k sql ≠ .error (.panic message)

/-- The only calls that the work makes are queries on a connection, and it does not panic. -/
def Asks {α : Type} (k : Connection) (w : Work History α) : Prop :=
  ∀ h, ∃ ending new, w.on h = (ending, h ++ new) ∧
    (∀ x ∈ new, ∃ sql answer, x = .query k sql answer) ∧ Ending.of ending ≠ .panic

/-! ### Work that asks for rows -/

section

variable {α β : Type} {k : Connection}

theorem asks_pure (a : α) : Asks k (pure a) :=
  fun h => ⟨.ok a, [], by simp, by simp, by simp⟩

/-- A sequence of work asks if its parts do. -/
theorem Asks.bind {w : Work History α} {f : α → Work History β} (hw : Asks k w)
    (hf : ∀ a, Asks k (f a)) : Asks k (w >>= f) := by
  intro h
  obtain ⟨ending, a, hrun, ha, hcalm⟩ := hw h
  rw [Work.on_bind, hrun]
  rcases ending with stop | v
  · refine ⟨.error stop, a, rfl, ha, ?_⟩
    cases stop with
    | error e => simp
    | panic message => exact hcalm
  · obtain ⟨ending, b, hrun, hb, hcalm⟩ := hf v (h ++ a)
    refine ⟨ending, a ++ b, by simp only [hrun, List.append_assoc], ?_, hcalm⟩
    intro x hx
    rcases List.mem_append.1 hx with hx | hx
    · exact ha x hx
    · exact hb x hx

theorem Asks.map {w : Work History α} (g : α → β) (hw : Asks k w) : Asks k (g <$> w) := by
  rw [map_eq_pure_bind]
  exact hw.bind fun a => asks_pure (g a)

/-- Where no query panics, work that runs queries does not. -/
theorem Queries.asks {O : Oracle} (hO : O.Calm) {sends : Sql → Prop} {raises : Problem → Prop}
    {w : Work History α} (hw : Queries O sends raises k w) : Asks k w := by
  intro h
  obtain ⟨ending, new, hrun, hnew, hstop⟩ := hw h
  refine ⟨ending, new, hrun, fun x hx => ?_, ?_⟩
  · obtain ⟨sql, g, rfl, -⟩ := hnew x hx
    exact ⟨sql, _, rfl⟩
  · rcases ending with (e | message) | a
    · simp
    · obtain ⟨sql, hmem⟩ | ⟨p, -, heq⟩ := hstop _ rfl
      · obtain ⟨sql', g, heq, -⟩ := hnew _ hmem
        injection heq with _ _ hanswer
        exact absurd hanswer.symm (hO _ _ _ _)
      · exact nomatch heq
    · simp

/-- Queries in a transaction leave the transactions around it alone. -/
theorem tidy_queries {n : Nat} {u : Surrounding n} {i : Fin n} {h new : History}
    (hu : Within u h) (hnew : ∀ x ∈ new, ∃ sql answer, x = .query (u i) sql answer) :
    Tidy u h new := by
  induction new generalizing h with
  | nil => exact .nil u h
  | cons x new ih =>
    obtain ⟨sql, answer, rfl⟩ := hnew x List.mem_cons_self
    have hone : Tidy u h [.query (u i) sql answer] := .statement hu i (fun _ => eq_of_beq) rfl
    have hrest : ∀ y ∈ new, ∃ sql answer, y = .query (u i) sql answer :=
      fun y hy => hnew y (List.mem_cons_of_mem _ hy)
    exact hone.append hu (ih (hu.append _) hrest)

/-- Work that only asks on one transaction is tidy. -/
theorem Asks.isTidy {n : Nat} {u : Surrounding n} {i : Fin n} {w : Work History α}
    (hw : Asks (u i) w) : IsTidy u w := by
  intro h hu
  obtain ⟨ending, new, hrun, hnew, -⟩ := hw h
  exact ⟨new, congrArg Prod.snd hrun, tidy_queries hu hnew⟩

end

/-- On its transaction a request that has been checked asks for rows and does nothing else, whatever
its task is. -/
theorem Engine.asks_run {O : Oracle} (hO : O.Calm) {g : Engine} {q : Query} {plan : Plan}
    (hchecked : g.Checked q plan.target plan.task) (k : Connection) :
    Asks k (g.run O.store plan k) :=
  (queries_run O hchecked k).asks hO

/-! ### The transaction of a request -/

theorem within_none (h : History) : Within .none h := fun i => i.elim0

section

variable {α : Type} {O : Oracle} {c : Context} {f : Connection → Work History α}

/-- Around work that asks for rows, the end of the transaction is what commits it, if anything does.
-/
theorem Oracle.OwnedCall.committed {h new : History} {ending : Except Stop (Outcome α)}
    (hf : ∀ k, Asks k (f k)) (hcall : O.OwnedCall c .current f h ending new) :
    new.countP Exchange.isBegin ≤ 1 ∧ ((∃ o, ending = .ok o) ↔ Committed new) := by
  cases hcall with
  | done e => simp [Committed]
  | refused e => simp [Committed, Exchange.isBegin]
  | rejected e => simp [Committed, Exchange.isBegin]
  | finished _ inside fin answer hrun _ hfin _ _ hending =>
    obtain ⟨_, queries, hqueries, hnew, -⟩ :=
      (hf (Oracle.next h)).map Outcome.done (h ++ Oracle.opening c h)
    have happend : h ++ Oracle.opening c h ++ queries = h ++ Oracle.opening c h ++ inside := by
      rw [← hrun]
      exact (congrArg Prod.snd hqueries).symm
    obtain rfl := List.append_cancel_left happend
    constructor
    · have hnone : queries.countP Exchange.isBegin = 0 := by
        refine List.countP_eq_zero.2 fun x hx => ?_
        obtain ⟨sql, rows, rfl⟩ := hnew x hx
        exact Bool.false_ne_true
      rw [List.countP_append, List.countP_append, hnone]
      rcases hfin with rfl | rfl <;> simp [Oracle.opening, Exchange.isBegin]
    · rw [hending]
      -- Neither the opening nor a query commits, so an accepted commit is the last call.
      constructor
      · rintro ⟨rfl, rfl⟩
        exact ⟨Oracle.next h, by simp⟩
      · rintro ⟨k, hk⟩
        rcases List.mem_append.1 hk with hk | hk
        · rcases List.mem_append.1 hk with hk | hk
          · simp [Oracle.opening] at hk
          · obtain ⟨sql, rows, hx⟩ := hnew _ hk
            cases hx
        · cases List.mem_singleton.1 hk
          exact ⟨rfl, rfl⟩

/-- A call around work that asks for rows opens at most one transaction, and gives back a value
exactly if that has been committed. -/
theorem runOwned_asks (O : Oracle) (c : Context) (hf : ∀ k, Asks k (f k)) (h : History) :
    ∃ ending new, (O.store.runOwned c f).on h = (ending, h ++ new) ∧
      new.countP Exchange.isBegin ≤ 1 ∧ ((∃ a, ending = .ok a) ↔ Committed new) ∧
      Ending.of ending ≠ .panic := by
  have hcalm : Ending.of ((O.store.runOwned c f).on h).1 ≠ .panic := by
    refine O.store.runOwned_ne_panic c (fun k t => ?_) h
    obtain ⟨ending, new, hrun, -, hcalm⟩ := hf k t
    rwa [hrun]
  have htidy : IsTidy (Surrounding.none.push (Oracle.next h)) (f (Oracle.next h)) :=
    Asks.isTidy (i := 0) (hf (Oracle.next h))
  obtain ⟨ending, new, hrun, hcall, -⟩ := O.ownedCall_runOwned c .current (within_none h) htidy
  obtain ⟨hbegins, hcommitted⟩ := hcall.committed hf
  -- An owned call is known by its guarded work, which marks the value as done.
  have hmap : Outcome.done <$> O.store.runOwned c f =
      O.store.runOwned c (O.store.guarded .current f) := O.store.map_runOwned Outcome.done c f
  rw [← hmap, Work.on_map] at hrun
  obtain ⟨hending, hnew⟩ := Prod.mk.inj hrun
  refine ⟨_, new, Prod.ext rfl hnew, hbegins, ?_, hcalm⟩
  rw [← hcommitted, ← hending]
  rcases (O.store.runOwned c f).on h with ⟨stop | a, h'⟩ <;> simp [Except.map]

end

/-! ### Responses -/

namespace Engine

/-- No error has the status of a success. -/
theorem status_ne_successStatus (k : ErrorKind) (a : Action) : k.status ≠ a.successStatus := by
  cases k <;> cases a <;> decide

/-- The format of the answer is found before the store is asked for anything. -/
theorem exists_ofAccept_of_prepare {g : Engine} {d : Dialect} {q : Query} {plan : Plan}
    (h : g.prepare d q = .ok plan) : ∃ f, MediaFormat.ofAccept (g.accept q) = .ok f := by
  rw [prepare_eq_check] at h
  obtain ⟨r, hcheck, -⟩ := Filter.exists_of_bind h
  obtain ⟨-, -, -, haccept, -⟩ := check_eq_ok_iff.1 hcheck
  exact haccept

/-- Every output of a request that has been checked can be written for it. -/
theorem exists_encode_of_prepare {g : Engine} {d : Dialect} {q : Query} {plan : Plan}
    (h : g.prepare d q = .ok plan) (output : Output) :
    ∃ e, output.encode (g.accept q) = .ok e := by
  obtain ⟨f, hf⟩ := exists_ofAccept_of_prepare h
  unfold Output.encode
  rw [hf]
  cases f <;> exact ⟨_, rfl⟩

section

variable {σ : Type} (g : Engine) (s : Store σ) (q : Query) (t : σ)

/-- A success has the status of its action. -/
theorem status_success (e : Encoded) : (success q e).status = q.action.successStatus := by
  unfold success
  split <;> rfl

/-- How a request goes that has a transaction of its own. -/
theorem execute_on :
    (g.execute s q).on t =
      match g.prepare s.dialect q with
      | .error p => (.error (.error (finalError q p.error)), t)
      | .ok plan =>
        match (s.runOwned q.context (g.run s plan)).on t with
        | (.ok output, u) => (.ok output, u)
        | (.error (.error e), u) => (.error (.error (finalError q e)), u)
        | (.error (.panic message), u) => (.error (.panic message), u) := by
  rw [execute, Work.on_bind, executeIn]
  cases g.prepare s.dialect q with
  | error p => rfl
  | ok plan =>
    have hcall : s.propagate q.context none .current (g.run s plan) =
        Outcome.done <$> s.runOwned q.context (g.run s plan) := rfl
    simp only [hcall, Work.on_bind, Work.on_attempt, Work.on_map]
    rcases (s.runOwned q.context (g.run s plan)).on t with ⟨(e | message) | output, u⟩ <;> rfl

/-- The response to a request is that of its output, of the problem in encoding it, or of the error.
-/
theorem respond_on :
    (g.respond s q).on t =
      match (g.execute s q).on t with
      | (.ok output, u) =>
        match output.encode (g.accept q) with
        | .ok e => (.ok (success q e), u)
        | .error p => (.ok p.error.response, u)
      | (.error (.error e), u) => (.ok e.response, u)
      | (.error (.panic message), u) => (.error (.panic message), u) := by
  rw [respond, Work.on_bind, Work.on_attempt, Work.on_bind]
  rcases (g.execute s q).on t with ⟨(e | message) | output, u⟩
  · rfl
  · rfl
  · simp only
    cases output.encode (g.accept q) <;> rfl

end

variable {O : Oracle}

/-- A request gives back an output exactly if it has been committed, and an output that is given
back can be written. -/
theorem execute_committed (hO : O.Calm) (g : Engine) (q : Query) (h : History) :
    ∃ ending new, (g.execute O.store q).on h = (ending, h ++ new) ∧
      new.countP Exchange.isBegin ≤ 1 ∧ ((∃ output, ending = .ok output) ↔ Committed new) ∧
      Ending.of ending ≠ .panic ∧
      ∀ output, ending = .ok output → ∃ e, output.encode (g.accept q) = .ok e := by
  rw [execute_on]
  cases hplan : g.prepare O.store.dialect q with
  | error p => exact ⟨_, [], by rw [List.append_nil], by simp [Committed]⟩
  | ok plan =>
    obtain ⟨r, -, -, hchecked⟩ := checked_of_prepare hplan
    obtain ⟨ending, new, hrun, hbegins, hcommitted, hcalm⟩ :=
      runOwned_asks O q.context (asks_run hO hchecked) h
    simp only [hrun]
    rcases ending with (e | message) | output
    · refine ⟨_, new, rfl, hbegins, ?_, by simp, fun output hok => nomatch hok⟩
      rw [← hcommitted]
      simp
    · exact absurd rfl hcalm
    · exact ⟨_, new, rfl, hbegins, hcommitted, hcalm,
        fun output _ => exists_encode_of_prepare hplan output⟩

/-- A request is answered with a success status exactly if it has been committed, whatever the store
answers and whenever the context is done; otherwise it is answered with the error that it ended
with. It opens at most one transaction, and nothing can fail after the commit. -/
theorem respond_status (hO : O.Calm) (g : Engine) (q : Query) (h : History) :
    ∃ r new, (g.respond O.store q).on h = (.ok r, h ++ new) ∧
      new.countP Exchange.isBegin ≤ 1 ∧
      (r.status = q.action.successStatus ↔ Committed new) ∧
      (¬Committed new → ∃ e : Error, ((g.execute O.store q).on h).1 = .error (.error e) ∧
        r = e.response ∧ r.status = e.kind.status) ∧
      ∀ plan, g.prepare O.dialect q = .ok plan →
        ∀ output : Output, ∃ e, output.encode (g.accept q) = .ok e := by
  obtain ⟨ending, new, hrun, hbegins, hcommitted, hcalm, hwritten⟩ := execute_committed hO g q h
  rw [respond_on]
  simp only [hrun]
  rcases ending with (e | message) | output
  · have hnot : ¬Committed new := by
      rw [← hcommitted]
      simp
    refine ⟨e.response, new, rfl, hbegins, ?_, fun _ => ⟨e, rfl, rfl, rfl⟩,
      fun plan hplan => exists_encode_of_prepare hplan⟩
    exact iff_of_false (status_ne_successStatus e.kind q.action) hnot
  · exact absurd rfl hcalm
  · have hyes : Committed new := hcommitted.1 ⟨output, rfl⟩
    obtain ⟨e, he⟩ := hwritten output rfl
    simp only [he]
    exact ⟨success q e, new, rfl, hbegins, iff_of_true (status_success q e) hyes,
      fun hnot => absurd hyes hnot, fun plan hplan => exists_encode_of_prepare hplan⟩

/-- An engine with one resource. -/
def todos : Engine where
  registry := ⟨[⟨"todo", ⟨"todos",
    [⟨"id", .integer, false, true, true⟩, ⟨"title", .text, true, false, false⟩], []⟩, .all⟩]⟩
  config := .default

/-- The deletion of a todo. -/
def deletion : Query :=
  ⟨"todo", .delete, "7", 0, none, [], [], [], none, "", "", "", [], false, .background⟩

/-- A row that is given back as deleted has been deleted. -/
theorem respond_status_deletion :
    let O := Oracle.accepting [[.integer 7, .null]]
    O.Calm ∧ ∃ r new, (todos.respond O.store deletion).on [] = (.ok r, new) ∧ r.status = 204 ∧
      Committed new := by
  intro O
  have hO : O.Calm := fun _ _ _ _ hpanic => nomatch hpanic
  obtain ⟨r, new, hrun, -, hstatus, -⟩ := respond_status hO todos deletion []
  have hdeleted : ((todos.respond O.store deletion).on []).1.toOption.map Response.status =
      some 204 := by decide +kernel
  rw [hrun] at hdeleted
  have hcode : r.status = 204 := Option.some.inj hdeleted
  exact ⟨hO, r, new, hrun, hcode, hstatus.1 hcode⟩

end Engine

end ResourceEngine
