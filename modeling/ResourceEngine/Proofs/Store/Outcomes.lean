import ResourceEngine.Proofs.Store.Absorption
import ResourceEngine.Proofs.Store.Bracketing

/-!
# What a call gives back

Several statements around a closure can be rejected, and the context can be done before or after it.
`Oracle.Settles` says what a call behind a savepoint comes to: the first that fails of setting the
savepoint, the closure and releasing the savepoint. A call that owns its transaction fails besides
only where the transaction cannot be opened or committed.
-/

namespace ResourceEngine

open History

namespace Oracle

variable {α : Type} (O : Oracle)

/-- A new transaction can be opened for the context. -/
structure Opens (c : Context) (h : History) : Prop where
  isLive : c.isDone (O.moment h) = false
  connect : O.connect h c = .ok (next h)
  begin : O.control (h ++ [.connect c (.ok (next h))]) (next h) .begin = .ok ()

/-- The transaction can be committed for the context. -/
structure Commits (c : Context) (k : Connection) (h : History) : Prop where
  isLive : c.isDone (O.moment h) = false
  commit : O.control h k .commit = .ok ()

/-- What a call behind a savepoint comes to that is set after a history. The first failure is
absorbed; what a rollback to the savepoint is answered does not matter. -/
inductive Settles (k : Connection) (f : Connection → Work History α) (h : History) :
    Outcome α → Prop where
  | unset {e : Error} (hset : O.answerToSet k h = .error e) : Settles k f h (.absorbed e)
  | failed {e : Error} {g : History} (hset : O.answerToSet k h = .ok ())
    (hrun : (f k).on (h ++ setting k h) = (.error (.error e), g)) : Settles k f h (.absorbed e)
  | unreleased {a : α} {e : Error} {g : History} (hset : O.answerToSet k h = .ok ())
    (hrun : (f k).on (h ++ setting k h) = (.ok a, g))
    (hrelease : O.control g k (.release ⟨savepoints h⟩) = .error e) : Settles k f h (.absorbed e)
  | released {a : α} {g : History} (hset : O.answerToSet k h = .ok ())
    (hrun : (f k).on (h ++ setting k h) = (.ok a, g))
    (hrelease : O.control g k (.release ⟨savepoints h⟩) = .ok ()) : Settles k f h (.done a)

section

variable {c : Context} {k : Connection} {f : Connection → Work History α} {h : History}

/-- What work behind a savepoint ends with, by the answers that it gets. -/
theorem savepointOn_ending :
    ((O.store.savepointOn k f).on h).1 =
      match O.answerToSet k h with
      | .error e => .ok (.absorbed e)
      | .ok () =>
        match (f k).on (h ++ setting k h) with
        | (.error (.error e), _) => .ok (.absorbed e)
        | (.error (.panic message), _) => .error (.panic message)
        | (.ok a, g) =>
          match O.control g k (.release ⟨savepoints h⟩) with
          | .error e => .ok (.absorbed e)
          | .ok () => .ok (.done a) := by
  have hdraw : O.store.freshSavepoint.run h =
      (⟨savepoints h⟩, h ++ [.draw ⟨savepoints h⟩]) := rfl
  rw [Store.savepointOn_on, hdraw, answerToSet, setting]
  simp only [control_run]
  rcases hset : O.control (h ++ [.draw ⟨savepoints h⟩]) k (.savepoint ⟨savepoints h⟩) with e | ⟨⟩
  · simp only [hset]
  simp only [hset, List.append_assoc, List.singleton_append]
  rcases (f k).on _ with ⟨(e | message) | a, g⟩
  · rfl
  · rfl
  rcases hrelease : O.control g k (.release ⟨savepoints h⟩) with e | ⟨⟩ <;> simp only [hrelease]

/-- The outcomes that `Settles` allows are those that work behind a savepoint ends with. -/
theorem savepointOn_eq_ok_iff (o : Outcome α) :
    ((O.store.savepointOn k f).on h).1 = .ok o ↔ O.Settles k f h o := by
  rw [savepointOn_ending]
  constructor
  · intro ho
    split at ho
    next e hset =>
      cases ho
      exact .unset hset
    next hset =>
    split at ho
    next e g hrun =>
      cases ho
      exact .failed hset hrun
    next => exact nomatch ho
    next a g hrun =>
    split at ho <;> cases ho
    next e hrelease => exact .unreleased hset hrun hrelease
    next hrelease => exact .released hset hrun hrelease
  · rintro (hset | ⟨hset, hrun⟩ | ⟨hset, hrun, hrelease⟩ | ⟨hset, hrun, hrelease⟩)
    · rw [hset]
    · rw [hset]
      simp only [hrun]
    · rw [hset]
      simp only [hrun, hrelease]
    · rw [hset]
      simp only [hrun, hrelease]

/-- Work behind a savepoint ends with an outcome or with the panic of its closure. -/
theorem exists_settles (hf : ∀ k h, Ending.of ((f k).on h).1 ≠ .panic) (k : Connection)
    (h : History) : ∃ o, O.Settles k f h o := by
  rcases hset : O.answerToSet k h with e | ⟨⟩
  · exact ⟨_, .unset hset⟩
  have hclosure := hf k (h ++ setting k h)
  rcases hrun : (f k).on (h ++ setting k h) with ⟨(e | message) | a, g⟩ <;> rw [hrun] at hclosure
  · exact ⟨_, .failed hset hrun⟩
  · exact absurd rfl hclosure
  rcases hrelease : O.control g k (.release ⟨savepoints h⟩) with e | ⟨⟩
  · exact ⟨_, .unreleased hset hrun hrelease⟩
  · exact ⟨_, .released hset hrun hrelease⟩

/-! ### Calls that own their transaction -/

/-- A connection that is given is the next one. -/
theorem eq_next_of_connect (hconnect : O.connect h c = .ok k) : k = next h := by
  rw [connect] at hconnect
  split at hconnect <;> cases hconnect
  rfl

/-- How the beginning of a transaction goes, by the answers that it gets. -/
theorem begin_steps (c : Context) (h : History) :
    (∃ e, c.isDone (O.moment h) = true ∧ (O.store.begin c).on h = (.error (.error e), h)) ∨
      (∃ e, c.isDone (O.moment h) = false ∧ O.connect h c = .error e ∧
        (O.store.begin c).on h = (.error (.error e), h ++ [.connect c (.error e)])) ∨
      (∃ e, c.isDone (O.moment h) = false ∧ O.connect h c = .ok (next h) ∧
        O.control (h ++ [.connect c (.ok (next h))]) (next h) .begin = .error e ∧
        (O.store.begin c).on h = (.error (.error e),
          h ++ ([.connect c (.ok (next h))] ++ [.control (next h) .begin (.error e)]))) ∨
      O.Opens c h ∧ (O.store.begin c).on h = (.ok (next h), h ++ opening c h) := by
  rw [Store.begin_on]
  cases hc : c.problem? (O.store.moment h) with
  | some p => exact .inl ⟨p.error, (kind_of_problem? hc).1, rfl⟩
  | none =>
  have hlive : c.isDone (O.moment h) = false := isDone_of_problem? hc
  simp only [connect_run]
  rcases hconnect : O.connect h c with e | k
  · exact .inr (.inl ⟨e, hlive, rfl, rfl⟩)
  obtain rfl := O.eq_next_of_connect hconnect
  simp only [control_run, List.append_assoc]
  rcases hbegin : O.control (h ++ [.connect c (.ok (next h))]) (next h) .begin with e | ⟨⟩
  · exact .inr (.inr (.inl ⟨e, hlive, trivial, hbegin, by rw [hbegin]⟩))
  · exact .inr (.inr (.inr ⟨⟨hlive, hconnect, hbegin⟩, by rw [hbegin]; rfl⟩))

/-- A transaction is begun exactly if it can be opened. -/
theorem begin_opens (c : Context) (h : History) :
    O.Opens c h ∧ (O.store.begin c).on h = (.ok (next h), h ++ opening c h) ∨
      ¬O.Opens c h ∧ ∃ e g, (O.store.begin c).on h = (.error (.error e), g) := by
  obtain ⟨e, hdone, hbegin⟩ | ⟨e, -, hconnect, hbegin⟩ | ⟨e, -, -, hanswer, hbegin⟩ | hopens :=
    O.begin_steps c h
  · exact .inr ⟨fun hopens => by simp [hopens.isLive] at hdone, e, _, hbegin⟩
  · exact .inr ⟨fun hopens => by simp [hopens.connect] at hconnect, e, _, hbegin⟩
  · exact .inr ⟨fun hopens => by simp [hopens.begin] at hanswer, e, _, hbegin⟩
  · exact .inl hopens

/-- A transaction is finished without an error exactly if it can be committed. -/
theorem finish_commits (c : Context) (k : Connection) (h : History) :
    O.Commits c k h ∧ (O.store.finish c k).on h = (.ok (), h ++ [.control k .commit (.ok ())]) ∨
      ¬O.Commits c k h ∧ ∃ e g, (O.store.finish c k).on h = (.error (.error e), g) := by
  rw [Store.finish_on]
  cases hc : c.problem? (O.store.moment h) with
  | some p =>
    have hdone : c.isDone (O.moment h) = true := (kind_of_problem? hc).1
    exact .inr ⟨fun hcommits => by simp [hcommits.isLive] at hdone, p.error, _, rfl⟩
  | none =>
    rcases hcommit : O.control h k .commit with e | ⟨⟩ <;> simp only [control_run, hcommit]
    · exact .inr ⟨fun hcommits => by simp [hcommits.commit] at hcommit, e, _, rfl⟩
    · exact .inl ⟨⟨isDone_of_problem? hc, hcommit⟩, rfl⟩

section

variable {w : Connection → Work History α} {g : History}

/-- Work that has come to a value in a transaction of the call is given back after the commit. -/
theorem runOwned_of_value {a : α} (hrun : (w (next h)).on (h ++ opening c h) = (.ok a, g)) :
    O.Opens c h ∧ O.Commits c (next h) g ∧
        (O.store.runOwned c w).on h = (.ok a, g ++ [.control (next h) .commit (.ok ())]) ∨
      (¬O.Opens c h ∨ ¬O.Commits c (next h) g) ∧
        ∃ e g', (O.store.runOwned c w).on h = (.error (.error e), g') := by
  rw [Store.runOwned_on]
  obtain ⟨hopens, hbegin⟩ | ⟨hopens, e, g', hbegin⟩ := O.begin_opens c h <;> rw [hbegin]
  · simp only [hrun]
    obtain ⟨hcommits, hfinish⟩ | ⟨hcommits, e, g', hfinish⟩ := O.finish_commits c (next h) g <;>
      rw [hfinish]
    · exact .inl ⟨hopens, hcommits, rfl⟩
    · exact .inr ⟨.inr hcommits, e, g', rfl⟩
  · exact .inr ⟨.inl hopens, e, g', rfl⟩

/-- Work that has stopped is rolled back, and stops the call as it has stopped. -/
theorem runOwned_of_stop {stop : Stop} (hopens : O.Opens c h)
    (hrun : (w (next h)).on (h ++ opening c h) = (.error stop, g)) :
    (O.store.runOwned c w).on h =
      (.error stop, g ++ [.control (next h) .rollback (O.control g (next h) .rollback)]) := by
  obtain ⟨-, hbegin⟩ | ⟨hopens', -⟩ := O.begin_opens c h
  · rw [Store.runOwned_on, hbegin]
    simp only [hrun, control_run]
  · exact absurd hopens hopens'

end

/-! ### Calls -/

/-- Without a savepoint there is nothing but the value of the work. -/
theorem propagate_ne_absorbed {mode : Propagation} (hmode : mode ≠ .savepoint)
    (ambient : Option Connection) (e : Error) :
    ((O.store.propagate c ambient mode f).on h).1 ≠ .ok (.absorbed e) := by
  obtain ⟨w, hw⟩ : ∃ w : Work History α, O.store.propagate c ambient mode f = Outcome.done <$> w := by
    cases mode with
    | savepoint => exact absurd rfl hmode
    | current | mandatory | requiredNew => exact ⟨_, rfl⟩
  rw [hw, Work.on_map]
  rcases (w.on h).1 with stop | a <;> exact fun habsorbed => nomatch habsorbed

theorem propagate_savepoint_some (k : Connection) (f : Connection → Work History α) :
    O.store.propagate c (some k) .savepoint f =
      O.store.join c k fun k => O.store.savepointOn k f := rfl

/-- A call that joins with a context that is done does nothing, whatever its closure. -/
theorem propagate_of_done (hdone : c.isDone (O.moment h) = true) (k : Connection) :
    ∃ e, ∀ f : Connection → Work History α,
      (O.store.propagate c (some k) .savepoint f).on h = (.error (.error e), h) := by
  obtain ⟨p, hp⟩ : ∃ p, c.problem? (O.store.moment h) = some p := by
    rw [← Option.isSome_iff_exists, Context.isSome_problem?]
    exact hdone
  refine ⟨p.error, fun f => ?_⟩
  rw [propagate_savepoint_some, Store.join_on, hp]

/-- A call that joins with a context that is not done ends as the work behind its savepoint. -/
theorem propagate_of_live (hlive : c.isDone (O.moment h) = false) (k : Connection) :
    ((O.store.propagate c (some k) .savepoint f).on h).1 =
      ((O.store.savepointOn k f).on (h ++ [.bind k (some c)])).1 := by
  have hproblem : c.problem? (O.store.moment h) = none := by
    rw [← Option.isNone_iff_eq_none, ← Option.isSome_eq_false_iff, Context.isSome_problem?]
    exact hlive
  rw [propagate_savepoint_some, Store.join_on, hproblem]
  rfl

/-- A closure that stops in a transaction of the call, and not behind a savepoint, stops the call. -/
theorem propagate_of_stop {mode : Propagation} {ambient : Option Connection} {stop : Stop}
    {g : History} (hmode : mode ≠ .savepoint) (hscope : mode.scope ambient = .owned)
    (hopens : O.Opens c h) (hrun : (f (next h)).on (h ++ opening c h) = (.error stop, g)) :
    (O.store.propagate c ambient mode f).on h =
      (.error stop, g ++ [.control (next h) .rollback (O.control g (next h) .rollback)]) := by
  have hwork : (O.store.guarded mode f (next h)).on (h ++ opening c h) = (.error stop, g) := by
    rw [Store.guarded_of_ne _ hmode, Work.on_map, hrun]
    rfl
  rw [Store.propagate_eq, hscope]
  exact O.runOwned_of_stop hopens hwork

/-- What a call gives back whose closure does not panic, whatever the store answers. Without a
savepoint nothing is absorbed. Behind a savepoint on the ambient transaction the call fails exactly
if its context is done, before it does anything; otherwise it comes to what `Settles` says. Without
an ambient transaction it comes to the same once that has been committed, and fails exactly if its
transaction cannot be opened or committed. The error of a closure in a transaction of its own is
given back as it is, whatever the rollback is answered. -/
theorem propagate_returns (c : Context) (f : Connection → Work History α)
    (hf : ∀ k h, Ending.of ((f k).on h).1 ≠ .panic) (h : History) :
    (∀ mode ambient, mode ≠ .savepoint → ∀ e,
      ((O.store.propagate c ambient mode f).on h).1 ≠ .ok (.absorbed e)) ∧
    (∀ k,
      let call := (O.store.propagate c (some k) .savepoint f).on h
      ((∃ e, call.1 = .error (.error e)) ↔ c.isDone (O.moment h)) ∧
      (c.isDone (O.moment h) → ∃ e, ∀ f' : Connection → Work History α,
        (O.store.propagate c (some k) .savepoint f').on h = (.error (.error e), h)) ∧
      (c.isDone (O.moment h) = false → (∃ o, call.1 = .ok o) ∧
        ∀ o, call.1 = .ok o ↔ O.Settles k f (h ++ [.bind k (some c)]) o)) ∧
    (let call := (O.store.propagate c none .savepoint f).on h
      let g := ((O.store.savepointOn (next h) f).on (h ++ opening c h)).2
      (∀ o, call.1 = .ok o ↔
        O.Opens c h ∧ O.Settles (next h) f (h ++ opening c h) o ∧ O.Commits c (next h) g) ∧
      (∀ o, call.1 = .ok o → call.2 = g ++ [.control (next h) .commit (.ok ())]) ∧
      ((∃ e, call.1 = .error (.error e)) ↔ ¬O.Opens c h ∨ ¬O.Commits c (next h) g)) ∧
    (∀ mode ambient, mode = .requiredNew ∨ mode = .current ∧ ambient = none → ∀ e g,
      O.Opens c h → (f (next h)).on (h ++ opening c h) = (.error (.error e), g) →
      (O.store.propagate c ambient mode f).on h =
        (.error (.error e),
          g ++ [.control (next h) .rollback (O.control g (next h) .rollback)])) := by
  have hsettles (k : Connection) (h : History) : ∃ o, ((O.store.savepointOn k f).on h).1 = .ok o :=
    (O.exists_settles hf k h).imp fun o => (O.savepointOn_eq_ok_iff o).2
  -- The parts are those of the statement: no savepoint, a savepoint on the ambient transaction, one
  -- in a transaction of the call, and a closure that fails in a transaction of its own.
  refine ⟨fun mode ambient hmode e => O.propagate_ne_absorbed hmode ambient e, ?_, ?_, ?_⟩
  · intro k call
    by_cases hdone : c.isDone (O.moment h) = true
    · obtain ⟨e, hcall⟩ := O.propagate_of_done (α := α) hdone k
      have hfails : call = (.error (.error e), h) := hcall f
      exact ⟨by simp [hfails, hdone], fun _ => ⟨e, hcall⟩, by simp [hdone]⟩
    · have hlive : c.isDone (O.moment h) = false := Bool.eq_false_iff.2 hdone
      have hcall : call.1 = _ := O.propagate_of_live hlive k
      obtain ⟨o, ho⟩ := hsettles k (h ++ [.bind k (some c)])
      refine ⟨?_, fun h => absurd h hdone, fun _ => ⟨⟨o, hcall.trans ho⟩, fun o' => ?_⟩⟩
      · simp [hcall, ho, hlive]
      · rw [hcall, savepointOn_eq_ok_iff]
  · intro call g
    have hcall : call = (O.store.runOwned c fun k => O.store.savepointOn k f).on h :=
      congrArg (Work.on · h) (O.store.savepoint_none c f)
    -- The work comes to one outcome, so the call fails only for its transaction.
    obtain ⟨o, ho⟩ := hsettles (next h) (h ++ opening c h)
    have hiff (o' : Outcome α) : O.Settles (next h) f (h ++ opening c h) o' ↔ o = o' := by
      rw [← savepointOn_eq_ok_iff, ho, Except.ok.injEq]
    obtain ⟨hopens, hcommits, hrun⟩ | ⟨hnot, e, g', hrun⟩ :=
      O.runOwned_of_value (w := fun k => O.store.savepointOn k f) (Prod.ext ho rfl) <;>
      rw [← hcall] at hrun
    · refine ⟨fun o' => ?_, fun _ _ => congrArg Prod.snd hrun, ?_⟩
      · simp [hrun, hiff, hopens, hcommits, g]
      · simp [hrun, hopens, hcommits, g]
    · refine ⟨fun o' => ?_, ?_, ?_⟩
      · simp only [hrun, reduceCtorEq, false_iff]
        rintro ⟨hopens, -, hcommits⟩
        exact hnot.elim (· hopens) (· hcommits)
      · simp [hrun]
      · exact iff_of_true ⟨e, congrArg Prod.fst hrun⟩ hnot
  · intro mode ambient hmode e g hopens hrun
    refine O.propagate_of_stop ?_ ?_ hopens hrun
    · rcases hmode with rfl | ⟨rfl, -⟩ <;> exact Propagation.noConfusion
    · rcases hmode with rfl | ⟨rfl, rfl⟩ <;> rfl

end

/-- A closure that writes and then fails, where every rollback is rejected. -/
theorem propagate_returns_rejected :
    let O := rejecting fun c => c matches .rollback | .rollbackTo _
    let f : Connection → Work History Unit := fun k => do
      let _ ← O.store.execute k [.raw "a"]
      Work.fail (Error.badRequest "nested")
    let k := next []
    let h := opening .background []
    let g := h ++ [.execute k [.raw "a"] (.ok 0)]
    (∀ k h, Ending.of ((f k).on h).1 ≠ .panic) ∧
      ((O.store.propagate .background (some k) .savepoint f).on h).1 =
        .ok (.absorbed (Error.badRequest "nested")) ∧
      ((O.store.propagate .background none .savepoint f).on []).1 =
        .ok (.absorbed (Error.badRequest "nested")) ∧
      (O.store.propagate .background none .requiredNew f).on [] =
        (.error (.error (Error.badRequest "nested")),
          g ++ [.control k .rollback (.error (Error.internal "rejected"))]) := by
  intro O f k h g
  have hf (k : Connection) (h : History) : Ending.of ((f k).on h).1 ≠ .panic :=
    Ending.noConfusion
  have hopens : O.Opens .background [] := ⟨rfl, rfl, rfl⟩
  refine ⟨hf, ?_, ?_, ?_⟩
  · obtain ⟨-, hjoined, -⟩ := O.propagate_returns .background f hf h
    obtain ⟨-, -, hlive⟩ := hjoined k
    exact ((hlive rfl).2 _).2 (.failed rfl rfl)
  · obtain ⟨-, -, ⟨hdone, -⟩, -⟩ := O.propagate_returns .background f hf []
    exact (hdone _).2 ⟨hopens, .failed rfl rfl, ⟨rfl, rfl⟩⟩
  · obtain ⟨-, -, -, howned⟩ := O.propagate_returns .background f hf []
    exact howned .requiredNew none (.inl rfl) _ g hopens rfl

end Oracle

end ResourceEngine
