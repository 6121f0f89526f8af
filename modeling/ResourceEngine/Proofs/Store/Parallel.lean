import ResourceEngine.Proofs.Store.Accounting

/-!
# Stores side by side

Two stores that answer alike until a call fails, and that may answer anything after that. Work on
the one and the same work on the other make the same calls up to there, and they end in the same
way, unless a call has failed and both stop with what it was answered. A transaction around the work
asks for no more than a rollback after that, and passes over the answer.
-/

namespace ResourceEngine

/-- The call rolls a transaction back. -/
def Exchange.isRollback : Exchange → Bool
  | .control _ .rollback _ => true
  | _ => false

/-- Two answers are the same value, or errors that may differ in this way. -/
inductive Agree {ε α : Type} (differ : ε → ε → Prop) : Except ε α → Except ε α → Prop where
  | value (a : α) : Agree differ (.ok a) (.ok a)
  | failure {e e' : ε} (h : differ e e') : Agree differ (.error e) (.error e')

namespace Oracle

/-- The history comes of another one by calls that the oracle answers with values. -/
inductive Reaches (O : Oracle) (h : History) : History → Prop where
  | here : Reaches O h h
  | connect {g : History} {c : Context} {k : Connection} (hg : Reaches O h g)
    (hk : O.connect g c = .ok k) : Reaches O h (g ++ [.connect c (.ok k)])
  | control {g : History} {k : Connection} {c : Control} (hg : Reaches O h g)
    (hc : O.control g k c = .ok ()) : Reaches O h (g ++ [.control k c (.ok ())])
  | query {g : History} {k : Connection} {sql : Sql} {rows : List Row} (hg : Reaches O h g)
    (hrows : O.query g k sql = .ok rows) : Reaches O h (g ++ [.query k sql (.ok rows)])

/-- From a history on, two oracles answer alike until a call fails, which it does for both with
errors that may differ in this way. -/
structure Alike (differ : Stop → Stop → Prop) (O O' : Oracle) (h : History) : Prop where
  dialect : O.dialect = O'.dialect
  moment : ∀ {g}, O.Reaches h g → O.moment g = O'.moment g
  connect : ∀ {g}, O.Reaches h g → ∀ c,
    Agree (fun e e' => differ (.error e) (.error e')) (O.connect g c) (O'.connect g c)
  control : ∀ {g}, O.Reaches h g → ∀ k c,
    Agree (fun e e' => differ (.error e) (.error e')) (O.control g k c) (O'.control g k c)
  query : ∀ {g}, O.Reaches h g → ∀ k sql, Agree differ (O.query g k sql) (O'.query g k sql)

end Oracle

section

variable {α β : Type} {differ : Stop → Stop → Prop} {O O' : Oracle} {h : History}

/-- What has been reached extends the history, and no call on the way has failed. -/
theorem Oracle.Reaches.exists_append {g : History} (hg : O.Reaches h g) :
    ∃ new, g = h ++ new ∧ ∀ x ∈ new, x.refusal? = none := by
  induction hg with
  | here => exact ⟨[], (List.append_nil h).symm, List.forall_mem_nil _⟩
  | connect _ _ ih | control _ _ ih | query _ _ ih =>
    obtain ⟨new, rfl, hnew⟩ := ih
    refine ⟨new ++ [_], List.append_assoc .., List.forall_mem_append.2 ⟨hnew, ?_⟩⟩
    exact List.forall_mem_singleton.2 rfl

theorem agree_self {ε : Type} {differ : ε → ε → Prop} (hdiffer : ∀ e, differ e e)
    (answer : Except ε α) : Agree differ answer answer := by
  cases answer with
  | ok a => exact .value a
  | error e => exact .failure (hdiffer e)

/-- An oracle answers like itself. -/
theorem Oracle.alike_self (O : Oracle) (hdiffer : ∀ stop, differ stop stop) (h : History) :
    Alike differ O O h where
  dialect := rfl
  moment _ := rfl
  connect _ _ := agree_self (fun e => hdiffer (.error e)) _
  control _ _ _ := agree_self (fun e => hdiffer (.error e)) _
  query _ _ _ := agree_self hdiffer _

/-- Two runs that have come from a history: they are the same and no call has failed, or they stop
with errors that may differ, and the last call, if it has failed, with this error. -/
inductive Beside (differ : Stop → Stop → Prop) (O : Oracle) (h : History) :
    Except Stop α × History → Except Stop α × History → Prop where
  | same {ending : Except Stop α} {g : History} (hg : O.Reaches h g) :
    Beside differ O h (ending, g) (ending, g)
  | apart {stop stop' : Stop} {g : History} {x x' : Exchange} (hg : O.Reaches h g)
    (hx : ∀ e, x.refusal? = some e → stop = .error e) (hstops : differ stop stop') :
    Beside differ O h (.error stop, g ++ [x]) (.error stop', g ++ [x'])

/-- Two pieces of work run side by side, wherever they start before a call has failed. -/
def Parallel (differ : Stop → Stop → Prop) (O : Oracle) (h : History) (w w' : Work History α) :
    Prop :=
  ∀ g, O.Reaches h g → Beside differ O h (w.on g) (w'.on g)

/-! ### Work -/

theorem parallel_pure (a : α) : Parallel differ O h (pure a) (pure a) := fun _ hg => .same hg

theorem parallel_fail (e : Error) : Parallel differ O h (Work.fail e : Work History α) (Work.fail e) :=
  fun _ hg => .same hg

theorem parallel_ofExcept (r : Except Problem α) :
    Parallel differ O h (Work.ofExcept r) (Work.ofExcept r) := by
  cases r with
  | ok a => exact parallel_pure a
  | error p => exact parallel_fail p.error

/-- Work side by side may be followed by work side by side; where the runs have come apart both have
stopped, and nothing follows. -/
theorem Parallel.bind {w w' : Work History α} {f f' : α → Work History β}
    (hw : Parallel differ O h w w') (hf : ∀ a, Parallel differ O h (f a) (f' a)) :
    Parallel differ O h (w >>= f) (w' >>= f') := by
  intro g hg
  have hrun := hw g hg
  rw [Work.on_bind, Work.on_bind]
  generalize w.on g = run, w'.on g = run' at hrun
  cases hrun with
  | @same ending g hg =>
    cases ending with
    | ok a => exact hf a g hg
    | error stop => exact .same hg
  | apart hg hx hstops => exact .apart hg hx hstops

theorem Parallel.map {w w' : Work History α} (f : α → β) (hw : Parallel differ O h w w') :
    Parallel differ O h (f <$> w) (f <$> w') := by
  rw [map_eq_pure_bind, map_eq_pure_bind]
  exact hw.bind fun a => parallel_pure (f a)

namespace Oracle.Alike

variable (hO : Alike differ O O' h)

include hO

/-- A query runs side by side on stores that answer alike. -/
theorem parallel_query (k : Connection) (sql : Sql) :
    Parallel differ O h (O.store.query k sql) (O'.store.query k sql) := by
  intro g hg
  show Beside _ _ _ (O.query g k sql, g ++ [.query k sql (O.query g k sql)])
    (O'.query g k sql, g ++ [.query k sql (O'.query g k sql)])
  have hagree := hO.query hg k sql
  generalize ha : O.query g k sql = answer, O'.query g k sql = answer' at hagree
  cases hagree with
  | value rows => exact .same (hg.query ha)
  | @failure stop _ hstops =>
    refine .apart hg (fun e he => ?_) hstops
    cases stop with
    | error e' => exact congrArg Stop.error (Option.some.inj he)
    | panic message => exact nomatch he

/-- A connection is asked for side by side. -/
theorem parallel_connect (c : Context) :
    Parallel differ O h (Work.answer (O.store.connect c)) (Work.answer (O'.store.connect c)) := by
  intro g hg
  have hagree := hO.connect hg c
  rw [Work.on_answer, Work.on_answer, connect_run, connect_run]
  generalize ha : O.connect g c = answer, O'.connect g c = answer' at hagree
  cases hagree with
  | value k => exact .same (hg.connect ha)
  | failure hstops => exact .apart hg (fun e he => congrArg Stop.error (Option.some.inj he)) hstops

/-- A control statement is sent side by side. -/
theorem parallel_control (k : Connection) (c : Control) :
    Parallel differ O h (Work.answer (O.store.control k c)) (Work.answer (O'.store.control k c)) := by
  intro g hg
  have hagree := hO.control hg k c
  rw [Work.on_answer, Work.on_answer, control_run, control_run]
  generalize ha : O.control g k c = answer, O'.control g k c = answer' at hagree
  cases hagree with
  | value => exact .same (hg.control ha)
  | failure hstops => exact .apart hg (fun e he => congrArg Stop.error (Option.some.inj he)) hstops

/-- The context is looked at at the same moment. -/
theorem parallel_check (c : Context) :
    Parallel differ O h (O.store.check c) (O'.store.check c) := by
  intro g hg
  have hmoment : O'.store.moment g = O.store.moment g := (hO.moment hg).symm
  rw [Store.check_on, Store.check_on, hmoment]
  cases c.problem? (O.store.moment g) <;> exact .same hg

/-- Transactions begin side by side. -/
theorem parallel_begin (c : Context) :
    Parallel differ O h (O.store.begin c) (O'.store.begin c) :=
  (hO.parallel_check c).bind fun _ => (hO.parallel_connect c).bind fun k =>
    (hO.parallel_control k .begin).bind fun _ => parallel_pure k

end Oracle.Alike

/-! ### Transactions -/

/-- Two runs side by side, or with a rollback after them whose answers they pass over. -/
inductive Concluded (differ : Stop → Stop → Prop) (O : Oracle) (h : History) :
    Except Stop α × History → Except Stop α × History → Prop where
  | plain {run run' : Except Stop α × History} (hruns : Beside differ O h run run') :
    Concluded differ O h run run'
  | undone {ending ending' : Except Stop α} {g g' : History} {x x' : Exchange}
    (hruns : Beside differ O h (ending, g) (ending', g')) (hx : x.isRollback = true) :
    Concluded differ O h (ending, g ++ [x]) (ending', g' ++ [x'])

/-- Runs side by side end in the same way, or stop with errors that may differ. -/
theorem Beside.endings {run run' : Except Stop α × History} (hruns : Beside differ O h run run') :
    run.1 = run'.1 ∨
      ∃ stop stop', differ stop stop' ∧ run.1 = .error stop ∧ run'.1 = .error stop' := by
  cases hruns with
  | same => exact .inl rfl
  | apart _ _ hstops => exact .inr ⟨_, _, hstops, rfl, rfl⟩

/-- A call that has failed in a run is its last one, and the run stops with the error. -/
theorem Beside.refusals {run run' : Except Stop α × History} (hruns : Beside differ O h run run') :
    ∃ new, run.2 = h ++ new ∧
      ∀ x ∈ new, ∀ e, x.refusal? = some e → run.1 = .error (.error e) := by
  cases hruns with
  | same hg =>
    obtain ⟨new, rfl, hnew⟩ := hg.exists_append
    exact ⟨new, rfl, fun x hx e he => nomatch (hnew x hx).symm.trans he⟩
  | apart hg hx _ =>
    obtain ⟨new, rfl, hnew⟩ := hg.exists_append
    refine ⟨new ++ [_], List.append_assoc .., List.forall_mem_append.2 ⟨?_, ?_⟩⟩
    · exact fun x hx e he => nomatch (hnew x hx).symm.trans he
    · exact List.forall_mem_singleton.2 fun e he => congrArg Except.error (hx e he)

/-- The two runs end in the same way, or both stop with errors that may differ. -/
theorem Concluded.endings {run run' : Except Stop α × History}
    (hruns : Concluded differ O h run run') :
    run.1 = run'.1 ∨
      ∃ stop stop', differ stop stop' ∧ run.1 = .error stop ∧ run'.1 = .error stop' := by
  cases hruns with
  | plain hruns => exact hruns.endings
  | undone hruns => exact hruns.endings

/-- What a call has failed with, other than a rollback, is what the run stops with. -/
theorem Concluded.refusals {run run' : Except Stop α × History}
    (hruns : Concluded differ O h run run') :
    ∃ new, run.2 = h ++ new ∧
      ∀ x ∈ new, ∀ e, x.refusal? = some e → x.isRollback = true ∨ run.1 = .error (.error e) := by
  cases hruns with
  | plain hruns =>
    obtain ⟨new, hnew, hrefusals⟩ := hruns.refusals
    exact ⟨new, hnew, fun x hx e he => .inr (hrefusals x hx e he)⟩
  | @undone _ _ _ _ x _ hruns hx =>
    obtain ⟨new, rfl, hrefusals⟩ := hruns.refusals
    refine ⟨new ++ [x], List.append_assoc .., List.forall_mem_append.2 ⟨?_, ?_⟩⟩
    · exact fun y hy e he => .inr (hrefusals y hy e he)
    · exact List.forall_mem_singleton.2 fun _ _ => .inl hx

theorem Beside.map {run run' : Except Stop α × History} (f : α → β)
    (hruns : Beside differ O h run run') :
    Beside differ O h (run.1.map f, run.2) (run'.1.map f, run'.2) := by
  cases hruns with
  | same hg => exact .same hg
  | apart hg hx hstops => exact .apart hg hx hstops

theorem Concluded.map {run run' : Except Stop α × History} (f : α → β)
    (hruns : Concluded differ O h run run') :
    Concluded differ O h (run.1.map f, run.2) (run'.1.map f, run'.2) := by
  cases hruns with
  | plain hruns => exact .plain (hruns.map f)
  | undone hruns hx => exact .undone (hruns.map f) hx

/-- A transaction ends side by side, with a rollback where its context is done. -/
theorem Oracle.Alike.finish (hO : Alike differ O O' h) (c : Context) (k : Connection) {g : History}
    (hg : O.Reaches h g) :
    Concluded differ O h ((O.store.finish c k).on g) ((O'.store.finish c k).on g) := by
  have hmoment : O'.store.moment g = O.store.moment g := (hO.moment hg).symm
  rw [Store.finish_on, Store.finish_on, ← Work.on_answer, ← Work.on_answer, hmoment]
  cases c.problem? (O.store.moment g) with
  | some p => exact .undone (.same hg) rfl
  | none => exact .plain (hO.parallel_control k .commit g hg)

/-- A transaction around work that runs side by side. -/
theorem Oracle.Alike.runOwned (hO : Alike differ O O' h) {f f' : Connection → Work History α}
    (hf : ∀ k, Parallel differ O h (f k) (f' k)) (c : Context) :
    Concluded differ O h ((O.store.runOwned c f).on h) ((O'.store.runOwned c f').on h) := by
  have hbegin := hO.parallel_begin c h .here
  rw [Store.runOwned_on, Store.runOwned_on]
  generalize (O.store.begin c).on h = run, (O'.store.begin c).on h = run' at hbegin
  cases hbegin with
  | apart hg hx hstops => exact .plain (.apart hg hx hstops)
  | @same ending g hg =>
  cases ending with
  | error stop => exact .plain (.same hg)
  | ok k =>
  -- From here on the runs are the same up to the work, which may come apart; the rollback after it
  -- is passed over.
  have hwork := hf k g hg
  simp only
  generalize (f k).on g = run, (f' k).on g = run' at hwork
  cases hwork with
  | apart hg hx hstops => exact .undone (.apart hg hx hstops) rfl
  | @same ending g hg =>
  cases ending with
  | error stop => exact .undone (.same hg) rfl
  | ok a => exact (hO.finish c k hg).map fun _ => a

end

end ResourceEngine
