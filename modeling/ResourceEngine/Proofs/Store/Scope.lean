import ResourceEngine.Store.Transaction

/-!
# Calls in their scopes

`Work.on` runs work from a state. A call under a propagation is refused, joins the ambient
transaction, or owns a transaction of its own; whether its work runs behind a savepoint is another
matter. `Store.propagate_eq` says so, and the other equations give each part step by step.
-/

namespace ResourceEngine

namespace Work

variable {σ α β : Type}

/-- How work ends that is started in a state, and in which state it leaves. -/
def on (w : Work σ α) (t : σ) : Except Stop α × σ := w.run.run t

theorem ext_on {v w : Work σ α} (h : ∀ t, v.on t = w.on t) : v = w := by
  funext t
  exact h t

@[simp] theorem on_pure (a : α) (t : σ) : (pure a : Work σ α).on t = (.ok a, t) := rfl

@[simp] theorem on_fail (e : Error) (t : σ) : (fail e : Work σ α).on t = (.error (.error e), t) :=
  rfl

@[simp] theorem on_attempt (w : Work σ α) (t : σ) : w.attempt.on t = (.ok (w.on t).1, (w.on t).2) :=
  rfl

@[simp] theorem on_lift (m : StateM σ α) (t : σ) :
    (liftM m : Work σ α).on t = (.ok (m.run t).1, (m.run t).2) := rfl

@[simp] theorem on_get (t : σ) : (get : Work σ σ).on t = (.ok t, t) := rfl

/-- A sequence of work stops with its first part, or goes on with the second from the state that the
first has left. -/
theorem on_bind (w : Work σ α) (f : α → Work σ β) (t : σ) :
    (w >>= f).on t =
      match w.on t with
      | (.ok a, u) => (f a).on u
      | (.error stop, u) => (.error stop, u) := by
  rw [on, ExceptT.run_bind, StateT.run_bind]
  -- The library matches on the ending inside of the state; here both are matched at once.
  show _ = match w.run.run t with | (.ok a, u) => (f a).on u | (.error stop, u) => (.error stop, u)
  rcases w.run.run t with ⟨stop | a, u⟩ <;> rfl

theorem on_map (g : α → β) (w : Work σ α) (t : σ) :
    (g <$> w).on t = ((w.on t).1.map g, (w.on t).2) := by
  rw [map_eq_pure_bind, on_bind]
  rcases w.on t with ⟨_ | _, u⟩ <;> rfl

/-- What answers with an error of the store ends with that error. -/
theorem on_answer (m : StateM σ (Except Error α)) (t : σ) :
    (answer m).on t = ((m.run t).1.mapError Stop.error, (m.run t).2) := by
  rw [answer, on_bind, on_lift]
  rcases m.run t with ⟨_ | _, u⟩ <;> rfl

/-- What a sequence of work does that ends with a value. -/
theorem exists_of_on_bind {w : Work σ α} {f : α → Work σ β} {b : β}
    (h : (w >>= f).on t = (.ok b, u)) : ∃ a v, w.on t = (.ok a, v) ∧ (f a).on v = (.ok b, u) := by
  rw [on_bind] at h
  rcases hrun : w.on t with ⟨stop | a, v⟩ <;> rw [hrun] at h
  · exact nomatch h
  · exact ⟨a, v, rfl, h⟩

theorem of_on_ofExcept {r : Except Problem α} {a : α} {t u : σ}
    (h : (ofExcept r : Work σ α).on t = (.ok a, u)) : r = .ok a ∧ u = t := by
  cases r with
  | error p => exact nomatch h
  | ok a' =>
    cases h
    exact ⟨rfl, rfl⟩

theorem of_on_pure {a b : α} {t u : σ} (h : (pure a : Work σ α).on t = (.ok b, u)) :
    a = b ∧ u = t := by
  cases h
  exact ⟨rfl, rfl⟩

end Work

/-! ### Endings -/

/-- How a closure ended. -/
inductive Ending where
  | value
  | error
  | panic
  deriving DecidableEq

/-- The way that an outcome stands for. -/
def Ending.of {α : Type} : Except Stop α → Ending
  | .ok _ => .value
  | .error (.error _) => .error
  | .error (.panic _) => .panic

namespace Ending

variable {α : Type}

@[simp] theorem of_ok (a : α) : of (.ok a : Except Stop α) = .value := rfl

@[simp] theorem of_error (e : Error) : of (.error (.error e) : Except Stop α) = .error := rfl

@[simp] theorem of_panic (message : String) :
    of (.error (.panic message) : Except Stop α) = .panic := rfl

end Ending

namespace Propagation

/-- A call that owns a transaction commits it after this ending of its closure. -/
def commitsOn (mode : Propagation) (ended : Ending) : Bool :=
  match mode with
  | .savepoint => ended != .panic
  | _ => ended == .value

/-- What a call gives back whose closure has ended. -/
def settle {α : Type} (mode : Propagation) : Except Stop α → Except Stop (Outcome α)
  | .ok a => .ok (.done a)
  | .error (.panic message) => .error (.panic message)
  | .error (.error e) =>
    match mode with
    | .savepoint => .ok (.absorbed e)
    | _ => .error (.error e)

/-- A call that owns its transaction commits exactly when it gives an outcome back. -/
theorem commitsOn_iff_settle {α : Type} (mode : Propagation) (ending : Except Stop α) :
    mode.commitsOn (.of ending) = true ↔ ∃ o, mode.settle ending = .ok o := by
  rcases ending with (e | message) | a <;> cases mode <;> simp [commitsOn, settle]

/-- Without a savepoint a call gives back what its closure has ended with. -/
theorem settle_of_ne {α : Type} {mode : Propagation} (hmode : mode ≠ .savepoint)
    (ending : Except Stop α) : mode.settle ending = ending.map Outcome.done := by
  rcases ending with (e | message) | a <;> cases mode <;> first | rfl | exact absurd rfl hmode

end Propagation

/-! ### Scopes -/

/-- What becomes of the transaction that a call is given. -/
inductive Scope where
  | refused
  | joined (k : Connection)
  | owned
  deriving DecidableEq

/-- The scope of a call under a propagation. -/
def Propagation.scope : Propagation → Option Connection → Scope
  | .requiredNew, _ => .owned
  | .mandatory, none => .refused
  | .current, none | .savepoint, none => .owned
  | .current, some k | .mandatory, some k | .savepoint, some k => .joined k

theorem Propagation.eq_some_of_scope {mode : Propagation} {ambient : Option Connection}
    {k : Connection} (h : mode.scope ambient = .joined k) : ambient = some k := by
  cases mode <;> cases ambient <;> cases h <;> rfl

namespace Store

variable {σ α : Type} (s : Store σ)

/-- Work as a propagation runs it on the transaction it gets. -/
def guarded (mode : Propagation) (f : Connection → Work σ α) (k : Connection) :
    Work σ (Outcome α) :=
  match mode with
  | .savepoint => s.savepointOn k f
  | _ => Outcome.done <$> f k

/-- Only a savepoint call guards what it runs. -/
theorem guarded_of_ne {mode : Propagation} (hmode : mode ≠ .savepoint)
    (f : Connection → Work σ α) (k : Connection) :
    s.guarded mode f k = Outcome.done <$> f k := by
  cases mode <;> first | rfl | exact absurd rfl hmode

theorem check_on (c : Context) (t : σ) :
    (s.check c).on t =
      match c.problem? (s.moment t) with
      | some p => (.error (.error p.error), t)
      | none => (.ok (), t) := by
  rw [check, Work.on_bind, Work.on_get]
  simp only
  cases c.problem? (s.moment t) <;> rfl

/-- A transaction is begun by a check of the context, a connection and a BEGIN; the first of the
three that fails is the error. -/
theorem begin_on (c : Context) (t : σ) :
    (s.begin c).on t =
      match c.problem? (s.moment t) with
      | some p => (.error (.error p.error), t)
      | none =>
        match (s.connect c).run t with
        | (.error e, u) => (.error (.error e), u)
        | (.ok k, u) =>
          match (s.control k .begin).run u with
          | (.error e, v) => (.error (.error e), v)
          | (.ok (), v) => (.ok k, v) := by
  rw [begin, Work.on_bind, check_on]
  cases c.problem? (s.moment t) with
  | some p => rfl
  | none =>
    simp only [Work.on_bind, Work.on_answer]
    rcases (s.connect c).run t with ⟨e | k, u⟩
    · rfl
    · unfold Except.mapError
      simp only
      rcases (s.control k .begin).run u with ⟨e | _, v⟩ <;> rfl

/-- A transaction is finished by a check of the context: a context that is done means a ROLLBACK
whose answer is dropped, any other a COMMIT whose answer counts. -/
theorem finish_on (c : Context) (k : Connection) (t : σ) :
    (s.finish c k).on t =
      match c.problem? (s.moment t) with
      | some p => (.error (.error p.error), ((s.control k .rollback).run t).2)
      | none =>
        (((s.control k .commit).run t).1.mapError Stop.error, ((s.control k .commit).run t).2) := by
  rw [finish, Work.on_bind, Work.on_attempt, check_on]
  cases c.problem? (s.moment t) with
  | some p => rfl
  | none => exact Work.on_answer _ _

/-- A call that owns its transaction begins it, runs the closure on it, and rolls it back if the
closure fails; the error of the ROLLBACK is dropped. -/
theorem runOwned_on (c : Context) (f : Connection → Work σ α) (t : σ) :
    (s.runOwned c f).on t =
      match (s.begin c).on t with
      | (.error stop, u) => (.error stop, u)
      | (.ok k, u) =>
        match (f k).on u with
        | (.error stop, v) => (.error stop, ((s.control k .rollback).run v).2)
        | (.ok a, v) => (((s.finish c k).on v).1.map fun _ => a, ((s.finish c k).on v).2) := by
  rw [runOwned, Work.on_bind]
  rcases (s.begin c).on t with ⟨stop | k, u⟩
  · rfl
  · simp only [Work.on_bind, Work.on_attempt]
    rcases (f k).on u with ⟨stop | a, v⟩
    · rfl
    · simp only [Work.on_bind]
      rcases (s.finish c k).on v with ⟨stop | _, w⟩ <;> rfl

/-- A call that joins checks its context, and lends it to the connection while the closure runs. -/
theorem join_on (c : Context) (k : Connection) (f : Connection → Work σ α) (t : σ) :
    (s.join c k f).on t =
      match c.problem? (s.moment t) with
      | some p => (.error (.error p.error), t)
      | none =>
        let (previous, u) := (s.bindContext k (some c)).run t
        let (ending, v) := (f k).on u
        (ending, ((s.bindContext k previous).run v).2) := by
  rw [join, Work.on_bind, check_on]
  cases c.problem? (s.moment t) <;> rfl

/-- Work behind a savepoint: where the savepoint or its release is rejected the error is absorbed,
and a closure that fails is rolled back to the savepoint. -/
theorem savepointOn_on (k : Connection) (f : Connection → Work σ α) (t : σ) :
    (s.savepointOn k f).on t =
      let (p, u) := s.freshSavepoint.run t
      match (s.control k (.savepoint p)).run u with
      | (.error e, v) => (.ok (.absorbed e), v)
      | (.ok (), v) =>
        match (f k).on v with
        | (.ok a, w) =>
          match (s.control k (.release p)).run w with
          | (.ok (), x) => (.ok (.done a), x)
          | (.error e, x) => (.ok (.absorbed e), ((s.rollbackTo k p).run x).2)
        | (.error (.error e), w) => (.ok (.absorbed e), ((s.rollbackTo k p).run w).2)
        | (.error (.panic message), w) =>
          (.error (.panic message), ((s.rollbackTo k p).run w).2) := by
  rw [savepointOn, Work.on_bind, Work.on_lift]
  rcases s.freshSavepoint.run t with ⟨p, u⟩
  simp only [Work.on_bind, Work.on_lift]
  rcases (s.control k (.savepoint p)).run u with ⟨e | _, v⟩
  · rfl
  · simp only [Work.on_bind, Work.on_attempt]
    rcases (f k).on v with ⟨(e | message) | a, w⟩
    · rfl
    · rfl
    · simp only [Work.on_bind, Work.on_lift]
      rcases (s.control k (.release p)).run w with ⟨e | _, x⟩ <;> rfl

/-- A savepoint is released after a rollback to it, unless that rollback is rejected. -/
theorem rollbackTo_run (k : Connection) (p : Savepoint) (t : σ) :
    ((s.rollbackTo k p).run t).2 =
      match (s.control k (.rollbackTo p)).run t with
      | (.ok (), u) => ((s.control k (.release p)).run u).2
      | (.error _, u) => u := by
  rw [rollbackTo, StateT.run_bind]
  rcases (s.control k (.rollbackTo p)).run t with ⟨e | _, u⟩ <;> rfl

/-- What is done with the value of a call that owns its transaction can be done in its closure. -/
theorem map_runOwned {β : Type} (g : α → β) (c : Context) (f : Connection → Work σ α) :
    g <$> s.runOwned c f = s.runOwned c fun k => g <$> f k := by
  refine Work.ext_on fun t => ?_
  simp only [Work.on_map, runOwned_on]
  rcases (s.begin c).on t with ⟨stop | k, u⟩
  · rfl
  · simp only
    rcases (f k).on u with ⟨stop | a, v⟩
    · rfl
    · rcases h : (s.finish c k).on v with ⟨stop | _, w⟩ <;> simp [h, Except.map]

theorem map_join {β : Type} (g : α → β) (c : Context) (k : Connection)
    (f : Connection → Work σ α) : g <$> s.join c k f = s.join c k fun k => g <$> f k := by
  refine Work.ext_on fun t => ?_
  simp only [Work.on_map, join_on]
  cases c.problem? (s.moment t) <;> rfl

/-- A savepoint call without an ambient transaction owns one, and guards its closure in it. -/
theorem savepoint_none (c : Context) (f : Connection → Work σ α) :
    s.savepoint c none f = s.runOwned c fun k => s.savepointOn k f := by
  refine Work.ext_on fun t => ?_
  rw [runOwned_on]
  -- The call is written out in full where it has no ambient transaction.
  show Work.on (s.begin c >>= _) t = _
  rw [Work.on_bind]
  rcases (s.begin c).on t with ⟨stop | k, u⟩
  · rfl
  · simp only [Work.on_bind, Work.on_attempt]
    rcases (s.savepointOn k f).on u with ⟨stop | a, v⟩
    · rfl
    · simp only [Work.on_bind]
      rcases (s.finish c k).on v with ⟨stop | _, w⟩ <;> rfl

/-- A call runs its guarded work in its scope. -/
theorem propagate_eq (c : Context) (ambient : Option Connection) (mode : Propagation)
    (f : Connection → Work σ α) :
    s.propagate c ambient mode f =
      match mode.scope ambient with
      | .refused => Work.fail Problem.ambientRequired.error
      | .joined k => s.join c k (s.guarded mode f)
      | .owned => s.runOwned c (s.guarded mode f) := by
  cases mode <;> cases ambient <;>
    first
    | rfl
    | exact s.savepoint_none c f
    | exact s.map_runOwned _ c f
    | exact s.map_join _ c _ f

/-! ### Panics -/

/-- To begin a transaction never panics. -/
theorem begin_ne_panic (c : Context) (t : σ) : Ending.of ((s.begin c).on t).1 ≠ .panic := by
  rw [begin_on]
  cases c.problem? (s.moment t) with
  | some p => simp
  | none =>
    simp only
    rcases (s.connect c).run t with ⟨e | k, u⟩
    · simp
    · simp only
      rcases (s.control k .begin).run u with ⟨e | _, v⟩ <;> simp

/-- To finish a transaction never panics. -/
theorem finish_ne_panic (c : Context) (k : Connection) (t : σ) :
    Ending.of ((s.finish c k).on t).1 ≠ .panic := by
  rw [finish_on]
  cases c.problem? (s.moment t) with
  | some p => simp
  | none =>
    simp only
    rcases ((s.control k .commit).run t).1 with e | _ <;> exact Ending.noConfusion

/-- A call does not panic unless its closure does. -/
theorem runOwned_ne_panic (c : Context) {f : Connection → Work σ α}
    (hf : ∀ k t, Ending.of ((f k).on t).1 ≠ .panic) (t : σ) :
    Ending.of ((s.runOwned c f).on t).1 ≠ .panic := by
  -- Each of the three parts may only end with a panic by its own hypothesis, so the ending is split
  -- after each.
  have hbegin := s.begin_ne_panic c t
  rw [runOwned_on]
  rcases hrun : (s.begin c).on t with ⟨(e | message) | k, u⟩ <;> rw [hrun] at hbegin
  · simp
  · exact absurd rfl hbegin
  have hclosure := hf k u
  simp only
  rcases hrun : (f k).on u with ⟨(e | message) | a, v⟩ <;> rw [hrun] at hclosure
  · simp
  · exact absurd rfl hclosure
  have hfinish := s.finish_ne_panic c k v
  simp only
  rcases hrun : ((s.finish c k).on v).1 with (e | message) | _ <;> rw [hrun] at hfinish
  · simp [Except.map]
  · exact absurd rfl hfinish
  · simp [Except.map]

end Store

end ResourceEngine
