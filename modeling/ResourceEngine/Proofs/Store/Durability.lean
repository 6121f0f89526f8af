import Mathlib.Data.List.Nodup
import ResourceEngine.Proofs.Store.Ledger

/-!
# Which writes become durable

A write is durable in the end exactly if the call that opened its transaction commits it and every
savepoint call around it on that transaction has a closure that ends with a value. `Ledger.Advance`
says what a part of a run does to a ledger: on the connections that were open before it adds the
writes that are upheld, and it makes durable those that survive.
-/

namespace ResourceEngine

/-- The write is durable in the end. -/
def Entry.Survives (e : Entry) : Prop := e.Committed ∧ e.Upheld

instance : DecidablePred Entry.Survives := fun e =>
  inferInstanceAs (Decidable (e.Committed ∧ e.Upheld))

/-- The writes of the entries that have a property. -/
def Entry.writes (P : Entry → Prop) [DecidablePred P] (es : List Entry) : List Write :=
  (es.filter fun e => P e).map (·.write)

namespace Entry

variable {P Q : Entry → Prop} [DecidablePred P] [DecidablePred Q]

@[simp] theorem writes_nil : writes P [] = [] := rfl

@[simp] theorem writes_append (es es' : List Entry) :
    writes P (es ++ es') = writes P es ++ writes P es' := by
  simp [writes]

/-- A frame around the entries can be asked for in the property instead. -/
theorem writes_map_within (f : Frame) (es : List Entry) :
    writes P (es.map (·.within f)) = writes (fun e => P (e.within f)) es := by
  simp only [writes, List.filter_map, List.map_map]
  rfl

theorem writes_congr {es : List Entry} (h : ∀ e ∈ es, P e ↔ Q e) : writes P es = writes Q es := by
  have hes : (es.filter fun e => P e) = es.filter fun e => Q e :=
    List.filter_congr fun e he => decide_eq_decide.2 (h e he)
  rw [writes, writes, hes]

theorem writes_eq_nil {es : List Entry} (h : ∀ e ∈ es, ¬P e) : writes P es = [] := by
  rw [writes, List.filter_eq_nil_iff.2 fun e he => by simpa using h e he, List.map_nil]

/-- The entries with one of two properties that exclude each other. -/
theorem writes_or_perm {es : List Entry} (h : ∀ e ∈ es, P e → ¬Q e) :
    (writes (fun e => P e ∨ Q e) es).Perm (writes P es ++ writes Q es) := by
  induction es with
  | nil => rfl
  | cons e es ih =>
    have hes := ih fun e' he' => h e' (List.mem_cons_of_mem e he')
    have he := h e List.mem_cons_self
    simp only [writes, List.filter_cons] at hes ⊢
    by_cases hP : P e
    · simp only [hP, he hP, true_or, decide_true, decide_false, if_true, Bool.false_eq_true,
        if_false, List.map_cons, List.cons_append]
      exact hes.cons _
    · by_cases hQ : Q e
      · -- The write has to pass those of the entries with the first property.
        simp only [hP, hQ, or_true, decide_true, decide_false, if_true, Bool.false_eq_true,
          if_false, List.map_cons]
        exact (hes.cons _).trans List.perm_middle.symm
      · simpa [hP, hQ] using hes

/-! ### Frames around entries -/

variable (f : Frame) (e : Entry)

/-- A frame around an entry has its say if it is a savepoint call on the same connection. -/
theorem upheld_within :
    (e.within f).Upheld ↔ e.Upheld ∧ (f.on = e.on → f.mode = .savepoint → f.ended = .value) := by
  simp [Upheld, within, or_imp, forall_and]

/-- A frame around an entry commits it if it has opened the transaction and commits. -/
theorem committed_within :
    (e.within f).Committed ↔ e.Committed ∨ (f.on = e.on ∧ f.opens ∧ f.commits) := by
  simp [Committed, within, or_and_right, exists_or]

/-- A call that has opened no transaction commits nothing. -/
theorem committed_within_of_joined {f : Frame} (hopens : f.opens = false) (e : Entry) :
    (e.within f).Committed ↔ e.Committed := by
  rw [committed_within, hopens]
  simp

/-- The calls around the entries open transactions only on connections after the first `n`. -/
def OpenAfter (n : Nat) (es : List Entry) : Prop :=
  ∀ e ∈ es, ∀ f ∈ e.around, f.opens → n < f.on.id

variable {f}

/-- A frame may be put around the entries that opens nothing, or a connection after the first `n`.
-/
theorem OpenAfter.within {n : Nat} {es : List Entry} (h : OpenAfter n es)
    (hf : f.opens → n < f.on.id) : OpenAfter n (es.map (·.within f)) := by
  intro e' he' g hg ho
  obtain ⟨e, he, rfl⟩ := List.mem_map.1 he'
  rcases List.mem_append.1 hg with hg | hg
  · exact h e he g hg ho
  · obtain rfl := List.mem_singleton.1 hg
    exact hf ho

end Entry

/-! ### Parts of a run -/

/-- What a part of a run with these entries does to a ledger. -/
structure Ledger.Advance (l : Ledger) (es : List Entry) (m : Ledger) : Prop where
  connections_le : l.connections ≤ m.connections
  pending_eq : ∀ k, k.id ≤ l.connections →
    m.pending k = l.pending k ++ Entry.writes (fun e => e.on = k ∧ e.Upheld) es
  marks_eq : ∀ k, k.id ≤ l.connections → m.marks k = l.marks k
  durable_perm : m.durable.Perm (l.durable ++ Entry.writes Entry.Survives es)
  openAfter : Entry.OpenAfter l.connections es

namespace Ledger

open Entry

variable {l m m' : Ledger} {es es' : List Entry}

theorem Advance.refl (l : Ledger) : Advance l [] l where
  connections_le := Nat.le_refl _
  pending_eq _ _ := by simp
  marks_eq _ _ := rfl
  durable_perm := by simp
  openAfter e he := absurd he List.not_mem_nil

/-- One part of a run after another. -/
theorem Advance.trans (h : Advance l es m) (h' : Advance m es' m') :
    Advance l (es ++ es') m' where
  connections_le := Nat.le_trans h.connections_le h'.connections_le
  pending_eq k hk := by
    rw [h'.pending_eq k (Nat.le_trans hk h.connections_le), h.pending_eq k hk, writes_append,
      List.append_assoc]
  marks_eq k hk := by rw [h'.marks_eq k (Nat.le_trans hk h.connections_le), h.marks_eq k hk]
  durable_perm := by
    rw [writes_append, ← List.append_assoc]
    exact h'.durable_perm.trans (h.durable_perm.append_right _)
  openAfter e he f hf ho := by
    rcases List.mem_append.1 he with he | he
    · exact h.openAfter e he f hf ho
    · exact Nat.lt_of_le_of_lt h.connections_le (h'.openAfter e he f hf ho)

/-- No call has opened a transaction that was there before. -/
theorem Advance.not_committed (h : Advance l es m) {e : Entry} (he : e ∈ es)
    (hk : e.on.id ≤ l.connections) : ¬e.Committed := by
  rintro ⟨f, hf, hon, ho, -⟩
  -- The call that opened the transaction would be on a connection from before and on a new one.
  have hlt := h.openAfter e he f hf ho
  rw [hon] at hlt
  omega

/-- A rejected statement adds nothing. -/
theorem advance_step (l : Ledger) : Advance l [] l.step where
  connections_le := Nat.le_refl _
  pending_eq _ _ := by simp [step]
  marks_eq _ _ := rfl
  durable_perm := by simp [step]
  openAfter e he := absurd he List.not_mem_nil

/-- An accepted statement adds a write with no call around it, and makes nothing durable. -/
theorem advance_answered {α : Type} (l : Ledger) (k : Connection) (sql : Sql)
    (answer : Except Stop α) :
    Advance l (Entry.ofAnswer k ⟨l.connections, l.statements⟩ sql answer)
      (l.answered k sql answer) := by
  cases answer with
  | error stop => exact advance_step l
  | ok a =>
    have hup : Upheld ⟨k, ⟨l.statements, sql⟩, []⟩ := by simp [Upheld]
    have hco : ¬Survives ⟨k, ⟨l.statements, sql⟩, []⟩ := by simp [Survives, Committed]
    refine ⟨Nat.le_refl _, ?_, fun _ _ => rfl, ?_, ?_⟩
    · intro j _
      by_cases hj : j = k
      · subst hj
        simp [answered, write, ofAnswer, writes, hup]
      · simp [answered, write, ofAnswer, writes, hj, Ne.symm hj]
    · simp [answered, write, ofAnswer, writes, hco, step]
    · intro e he f hf
      rw [ofAnswer, List.mem_singleton] at he
      subst he
      exact absurd hf List.not_mem_nil

/-! ### Savepoints -/

/-- A call that neither opens a transaction nor rolls back to a savepoint leaves the entries in it
as they are. -/
theorem Advance.within {f : Frame} (h : Advance l es m) (hopens : f.opens = false)
    (hvalue : f.mode = .savepoint → f.ended = .value) : Advance l (es.map (·.within f)) m := by
  have hup (e : Entry) : (e.within f).Upheld ↔ e.Upheld := by
    rw [upheld_within]
    exact and_iff_left fun _ => hvalue
  refine ⟨h.connections_le, ?_, h.marks_eq, ?_, h.openAfter.within (by simp [hopens])⟩
  · intro k hk
    rw [h.pending_eq k hk, writes_map_within]
    congr 1
    exact writes_congr fun e _ => and_congr_right fun _ => (hup e).symm
  · refine h.durable_perm.trans (List.Perm.of_eq ?_)
    rw [writes_map_within]
    congr 1
    exact writes_congr fun e _ =>
      and_congr (committed_within_of_joined hopens e).symm (hup e).symm

/-- The ledger behind a new savepoint. -/
def mark (l : Ledger) (k : Connection) : Ledger :=
  { l with savepoints := l.savepoints + 1 }.control k (.savepoint ⟨l.savepoints⟩)

variable {k : Connection} {p : Savepoint} {n : Nat} {outer : List (Savepoint × Nat)}

/-- The release of the innermost savepoint drops its mark alone. -/
theorem control_release (h : m.marks k = (p, n) :: outer) :
    m.control k (.release p) = { m with marks := Function.update m.marks k outer } := by
  simp [control, h]

/-- The rollback to the innermost savepoint leaves the writes before its mark. -/
theorem control_rollbackTo (h : m.marks k = (p, n) :: outer) :
    m.control k (.rollbackTo p) =
      { m with
        pending := Function.update m.pending k ((m.pending k).take n)
        marks := Function.update m.marks k ((p, n) :: outer) } := by
  simp [control, h]

/-- A part of a run behind a new savepoint leaves its mark where it is. -/
theorem Advance.marks_of_mark (h : Advance (l.mark k) es m) (hk : k.id ≤ l.connections) :
    m.marks k = (⟨l.savepoints⟩, (l.pending k).length) :: l.marks k := by
  rw [h.marks_eq k hk]
  simp [mark, control]

/-- Released again, a savepoint has changed nothing on the connections from before. -/
theorem Advance.release (h : Advance (l.mark k) es m) (hk : k.id ≤ l.connections) :
    Advance l es (m.control k (.release ⟨l.savepoints⟩)) := by
  rw [control_release (h.marks_of_mark hk)]
  refine ⟨h.connections_le, h.pending_eq, ?_, h.durable_perm, h.openAfter⟩
  intro j hj
  by_cases hjk : j = k
  · subst hjk
    exact Function.update_self ..
  · show Function.update m.marks k _ j = l.marks j
    rw [Function.update_of_ne hjk, h.marks_eq j hj]
    exact Function.update_of_ne hjk ..

/-- Rolled back to a savepoint, the connection has the writes from before, and no entry inside is
upheld. -/
theorem Advance.rollbackTo {f : Frame} (h : Advance (l.mark k) es m) (hk : k.id ≤ l.connections)
    (hon : f.on = k) (hopens : f.opens = false) (hmode : f.mode = .savepoint)
    (hvalue : f.ended ≠ .value) :
    Advance l (es.map (·.within f))
      ((m.control k (.rollbackTo ⟨l.savepoints⟩)).control k (.release ⟨l.savepoints⟩)) := by
  have hup (e : Entry) : (e.within f).Upheld ↔ e.Upheld ∧ e.on ≠ k := by
    rw [upheld_within, hon]
    refine and_congr_right fun _ => ?_
    constructor
    · intro h hek
      exact hvalue (h hek.symm hmode)
    · intro h hek
      exact absurd hek.symm h
  rw [control_rollbackTo (h.marks_of_mark hk), control_release (Function.update_self ..)]
  refine ⟨h.connections_le, ?_, ?_, ?_, h.openAfter.within (by simp [hopens])⟩
  · intro j hj
    rw [writes_map_within]
    by_cases hjk : j = k
    · -- The mark is where the writes from before end.
      subst hjk
      rw [writes_eq_nil fun e _ he => ((hup e).1 he.2).2 he.1, List.append_nil]
      show Function.update m.pending j ((m.pending j).take _) j = l.pending j
      rw [Function.update_self, h.pending_eq j hk]
      exact List.take_left
    · show Function.update m.pending k _ j = _
      rw [Function.update_of_ne hjk, h.pending_eq j hj]
      congr 1
      refine writes_congr fun e _ => and_congr_right fun hej => ?_
      rw [hup, hej]
      exact (and_iff_left hjk).symm
  · intro j hj
    by_cases hjk : j = k
    · subst hjk
      exact Function.update_self ..
    · show Function.update (Function.update m.marks k _) k _ j = l.marks j
      rw [Function.update_of_ne hjk, Function.update_of_ne hjk, h.marks_eq j hj]
      exact Function.update_of_ne hjk ..
  · refine h.durable_perm.trans (List.Perm.of_eq ?_)
    rw [writes_map_within]
    show l.durable ++ _ = _
    congr 1
    refine writes_congr fun e he => ?_
    rw [Survives, Survives, committed_within_of_joined hopens, hup]
    -- A committed entry is on another connection, where the rollback takes nothing back.
    refine and_congr_right fun hc => (and_iff_left fun hek => ?_).symm
    exact h.not_committed he (by rw [hek]; exact hk) hc

/-! ### Transactions -/

/-- The ledger after the end of a transaction. -/
def settled (m : Ledger) (k : Connection) (commits : Bool) : Ledger :=
  m.control k (if commits then .commit else .rollback)

/-- The end of a transaction concerns the writes on its own connection only. -/
theorem settled_pending (commits : Bool) {j : Connection} (hj : j ≠ k) :
    (m.settled k commits).pending j = m.pending j := by
  cases commits <;> exact Function.update_of_ne hj ..

theorem settled_marks (commits : Bool) {j : Connection} (hj : j ≠ k) :
    (m.settled k commits).marks j = m.marks j := by
  cases commits <;> exact Function.update_of_ne hj ..

/-- The end of a transaction makes the writes on its connection durable if it is a COMMIT. -/
theorem settled_durable (commits : Bool) :
    (m.settled k commits).durable = m.durable ++ if commits then m.pending k else [] := by
  cases commits
  · exact (List.append_nil _).symm
  · rfl

/-- The call that opens a transaction makes durable what is upheld in it if it commits, and nothing
else otherwise. -/
theorem Advance.own {f : Frame} (h : Advance l.connect (es.map (·.within f)) m)
    (hon : f.on = ⟨l.connections + 1⟩) (hopens : f.opens = false) :
    Advance l (es.map (·.within { f with opens := true })) (m.settled f.on f.commits) := by
  have hup (e : Entry) : (e.within { f with opens := true }).Upheld ↔ (e.within f).Upheld := by
    rw [upheld_within, upheld_within]
  have hco (e : Entry) : (e.within { f with opens := true }).Committed ↔
      (e.within f).Committed ∨ (e.on = f.on ∧ f.commits) := by
    rw [committed_within, committed_within_of_joined hopens]
    refine or_congr_right ?_
    constructor
    · rintro ⟨hfe, -, hc⟩
      exact ⟨hfe.symm, hc⟩
    · rintro ⟨hef, hc⟩
      exact ⟨hef.symm, rfl, hc⟩
  have hne {j : Connection} (hj : j.id ≤ l.connections) : j ≠ f.on := by
    rintro rfl
    rw [hon] at hj
    simp only at hj
    omega
  have hnew : m.pending f.on =
      Entry.writes (fun e => e.on = f.on ∧ (e.within f).Upheld) es := by
    rw [h.pending_eq f.on (by rw [hon]; exact Nat.le_refl _), writes_map_within, hon]
    show Function.update l.pending _ [] _ ++ _ = _
    rw [Function.update_self, List.nil_append]
    rfl
  -- The connections from before are not the new one, so they keep what the inside has given them.
  -- What becomes durable is what the inside has made so, and with a COMMIT the writes of the new
  -- one.
  refine ⟨Nat.le_trans (Nat.le_succ _) ?_, ?_, ?_, ?_, ?_⟩
  · refine Nat.le_trans h.connections_le ?_
    cases f.commits <;> exact Nat.le_refl _
  · intro j hj
    rw [settled_pending _ (hne hj), h.pending_eq j (Nat.le_succ_of_le hj), writes_map_within,
      writes_map_within]
    show Function.update l.pending _ [] j ++ _ = _
    rw [Function.update_of_ne (hon ▸ hne hj)]
    congr 1
    exact writes_congr fun e _ => and_congr_right fun _ => (hup e).symm
  · intro j hj
    rw [settled_marks _ (hne hj), h.marks_eq j (Nat.le_succ_of_le hj)]
    exact Function.update_of_ne (hon ▸ hne hj) ..
  · rw [settled_durable, hnew]
    refine (h.durable_perm.append_right _).trans ?_
    rw [writes_map_within, writes_map_within, List.append_assoc]
    refine List.Perm.append_left _ ?_
    cases hc : f.commits with
    | false =>
      rw [if_neg Bool.false_ne_true, List.append_nil]
      refine List.Perm.of_eq (writes_congr fun e _ => ?_)
      rw [Survives, Survives, hco, hup, hc]
      simp
    | true =>
      rw [if_pos rfl]
      -- What was durable already is on other connections than what becomes so at the end.
      refine (writes_or_perm fun e he hs hk => ?_).symm.trans (List.Perm.of_eq ?_)
      · refine h.not_committed (List.mem_map_of_mem he) ?_ hs.1
        show e.on.id ≤ _
        rw [hk.1, hon]
        exact Nat.le_refl _
      · refine writes_congr fun e _ => ?_
        rw [Survives, Survives, hco, hup, hc, or_and_right]
        simp
  · have h' : OpenAfter l.connections es := by
      intro e he g hg ho
      have hlt := h.openAfter (e.within f) (List.mem_map_of_mem he) g (List.mem_append_left _ hg) ho
      exact Nat.lt_of_succ_lt hlt
    refine h'.within fun _ => ?_
    show l.connections < f.on.id
    rw [hon]
    exact Nat.lt_succ_self _

/-! ### Work on ledgers -/

def clock (l : Ledger) : Clock := ⟨l.connections, l.statements⟩

@[simp] theorem clock_control (l : Ledger) (k : Connection) (c : Control) :
    (l.control k c).clock = l.clock := by
  cases c with
  | release p => simp only [control]; split <;> rfl
  | rollbackTo p => simp only [control]; split <;> rfl
  | _ => rfl

/-- From every ledger at a time, the work takes the course. -/
def Does {α : Type} (w : Work Ledger α) (t : Clock) (c : Course α) : Prop :=
  ∀ l, l.clock = t → ∃ m, w.on l = (c.ending, m) ∧ m.clock = c.clock ∧ Advance l c.entries m

section Does

variable {α : Type} (r : Replies) {t : Clock} {f : Connection → Work Ledger α}

@[simp] theorem moment_store (l : Ledger) : (store r).moment l = r.moment := rfl

/-- Work that leaves every ledger as it is has no entries. -/
theorem does_of_on {w : Work Ledger α} {ending : Except Stop α} (hw : ∀ l, w.on l = (ending, l)) :
    Does w t ⟨ending, [], t⟩ := fun l hl => ⟨l, hw l, hl, .refl l⟩

theorem does_resume (ending : Except Stop α) : Does (Work.resume ending) t ⟨ending, [], t⟩ :=
  does_of_on fun _ => rfl

theorem Does.connections_le {w : Work Ledger α} {c : Course α} (h : Does w t c) :
    t.connections ≤ c.clock.connections := by
  obtain ⟨m, -, hclock, hadv⟩ :=
    h { empty with connections := t.connections, statements := t.statements } rfl
  rw [← hclock]
  exact hadv.connections_le

@[simp] theorem clock_answered (l : Ledger) (k : Connection) (sql : Sql) (answer : Except Stop α) :
    (l.answered k sql answer).clock = l.clock.step := by
  cases answer <;> rfl

/-- Work that is one statement has the entry of its answer. -/
theorem does_answered {w : Work Ledger α} (answer : Nat → Except Stop α) (k : Connection)
    (sql : Sql)
    (hw : ∀ l : Ledger, w.on l = (answer l.statements, l.answered k sql (answer l.statements))) :
    Does w t ⟨answer t.statements, Entry.ofAnswer k t sql (answer t.statements), t.step⟩ := by
  rintro l rfl
  exact ⟨_, hw l, clock_answered .., advance_answered ..⟩

theorem does_query (k : Connection) (sql : Sql) :
    Does ((store r).query k sql) t
      ⟨r.rows t.statements sql, Entry.ofAnswer k t sql (r.rows t.statements sql), t.step⟩ :=
  does_answered (r.rows · sql) k sql fun _ => rfl

theorem does_execute (k : Connection) (sql : Sql) :
    Does ((store r).execute k sql) t
      ⟨r.affected t.statements sql, Entry.ofAnswer k t sql (r.affected t.statements sql), t.step⟩ :=
  does_answered (r.affected · sql) k sql fun _ => rfl

/-- Work and what follows it, whatever its ending, have the entries of both. -/
theorem does_bind {β : Type} {w : Work Ledger α} {g : Except Stop α → Work Ledger β} {c : Course α}
    {d : Course β} (hw : Does w t c) (hg : Does (g c.ending) c.clock d) :
    Does (w.attempt >>= g) t { d with entries := c.entries ++ d.entries } := by
  intro l hl
  obtain ⟨m, hm, hclock, hadv⟩ := hw l hl
  obtain ⟨m', hm', hclock', hadv'⟩ := hg m hclock
  refine ⟨m', ?_, hclock', hadv.trans hadv'⟩
  rw [Work.on_bind, Work.on_attempt, hm]
  exact hm'

theorem control_run (l : Ledger) (k : Connection) (c : Control) :
    ((store r).control k c).run l = (.ok (), l.control k c) := rfl

theorem freshSavepoint_run (l : Ledger) :
    (store r).freshSavepoint.run l =
      (⟨l.savepoints⟩, { l with savepoints := l.savepoints + 1 }) := rfl

/-- Work behind a savepoint on a ledger: the savepoint is released after a value, and else rolled
back to and then released. -/
theorem savepointOn_on {ending : Except Stop α} (h : (f k).on (l.mark k) = (ending, m)) :
    ((store r).savepointOn k f).on l =
      (Propagation.savepoint.settle ending,
        if Ending.of ending = .value then m.control k (.release ⟨l.savepoints⟩)
        else (m.control k (.rollbackTo ⟨l.savepoints⟩)).control k (.release ⟨l.savepoints⟩)) := by
  rw [mark] at h
  rw [Store.savepointOn_on]
  simp only [freshSavepoint_run, control_run, Store.rollbackTo_run, h]
  rcases ending with (e | message) | a <;> rfl

/-- Guarded work has the entries of the work, each inside of the call. -/
theorem does_guarded (mode : Propagation) {d : Course α} (h : Does (f k) t d)
    (hk : k.id ≤ t.connections) :
    Does ((store r).guarded mode f k) t
      ⟨mode.settle d.ending, d.entries.map (·.within ⟨mode, k, false, .of d.ending⟩), d.clock⟩ := by
  intro l hl
  subst hl
  by_cases hmode : mode = .savepoint
  · subst hmode
    obtain ⟨m, hm, hclock, hadv⟩ := h (l.mark k) rfl
    have hrun := savepointOn_on r hm
    by_cases hvalue : Ending.of d.ending = .value
    · rw [if_pos hvalue] at hrun
      refine ⟨_, hrun, (clock_control ..).trans hclock, ?_⟩
      exact (hadv.release hk).within rfl fun _ => hvalue
    · rw [if_neg hvalue] at hrun
      refine ⟨_, hrun, ?_, hadv.rollbackTo hk rfl rfl rfl hvalue⟩
      rw [clock_control, clock_control, hclock]
  · obtain ⟨m, hm, hclock, hadv⟩ := h l rfl
    refine ⟨m, ?_, hclock, hadv.within rfl fun h => absurd h hmode⟩
    rw [Store.guarded_of_ne _ hmode, Work.on_map, hm, Propagation.settle_of_ne hmode]

/-- A call that joins takes the course of its closure, as a ledger keeps no contexts. -/
theorem does_join {c : Context} {d : Course α} (hc : c.problem? r.moment = none)
    (h : Does (f k) t d) : Does ((store r).join c k f) t d := by
  intro l hl
  obtain ⟨m, hm, hrest⟩ := h l hl
  refine ⟨m, ?_, hrest⟩
  rw [Store.join_on, moment_store, hc]
  show (((f k).on l).1, ((f k).on l).2) = _
  rw [hm]

theorem begin_on {c : Context} (hc : c.problem? r.moment = none) (l : Ledger) :
    ((store r).begin c).on l = (.ok ⟨l.connections + 1⟩, l.connect) := by
  rw [Store.begin_on, moment_store, hc]
  rfl

theorem finish_on {c : Context} (hc : c.problem? r.moment = none) (k : Connection) (l : Ledger) :
    ((store r).finish c k).on l = (.ok (), l.control k .commit) := by
  rw [Store.finish_on, moment_store, hc]
  rfl

/-- A call that owns its transaction runs its closure on a new connection; in the entries it then
has opened that connection. The frame commits exactly if the closure has ended with a value. -/
theorem does_runOwned {β : Type} {c : Context} {g : Connection → Work Ledger β} {d : Course β}
    {h : Frame} {es : List Entry} (hc : c.problem? r.moment = none)
    (hdoes : Does (g ⟨t.connections + 1⟩) { t with connections := t.connections + 1 } d)
    (hes : d.entries = es.map (·.within h)) (hon : h.on = ⟨t.connections + 1⟩)
    (hopens : h.opens = false) (hcommits : h.commits = true ↔ ∃ a, d.ending = .ok a) :
    Does ((store r).runOwned c g) t
      { d with entries := es.map (·.within { h with opens := true }) } := by
  intro l hl
  subst hl
  obtain ⟨m, hm, hclock, hadv⟩ := hdoes l.connect rfl
  rw [hes] at hadv
  refine ⟨m.settled h.on h.commits, ?_, (clock_control ..).trans hclock, hadv.own hon hopens⟩
  -- Here the connection of the clock becomes that of the ledger, on which the closure has run.
  have hm' : (g ⟨l.connections + 1⟩).on l.connect = (d.ending, m) := hm
  rw [Store.runOwned_on, begin_on r hc]
  simp only [hm', finish_on r hc]
  rw [settled, hon]
  -- A closure that has failed leads to a ROLLBACK, one that has not to a COMMIT: the control
  -- statement that the frame says.
  cases hd : d.ending with
  | error stop =>
    have hcommits' : h.commits = false :=
      Bool.eq_false_iff.2 fun hcom => by simpa [hd] using hcommits.1 hcom
    rw [hcommits']
    rfl
  | ok a =>
    rw [hcommits.2 ⟨a, hd⟩]
    rfl

/-- A call under a propagation takes the course of its scope. Refused, or with a context that is
done, it ends with that error and has no entries; joined, its closure runs on the ambient
connection, which was there before; with a transaction of its own, on the next connection, which the
clock counts from then on. -/
theorem does_propagate {ambient : Option Connection}
    (hambient : ∀ k ∈ ambient, k.id ≤ t.connections) {d : Connection → Clock → Course α}
    (h : ∀ k u, k.id ≤ u.connections → t.connections ≤ u.connections → Does (f k) u (d k u))
    (c : Context) (mode : Propagation) :
    Does ((store r).propagate c ambient mode f) t
      (match r.enter c t (mode.scope ambient) with
        | .error p => ⟨.error (.error p.error), [], t⟩
        | .ok (k, opens, u) =>
          ⟨mode.settle (d k u).ending,
            (d k u).entries.map (·.within ⟨mode, k, opens, .of (d k u).ending⟩),
            (d k u).clock⟩) := by
  -- The scope decides which connection the closure gets. In each scope the guarded work has its
  -- entries by `does_guarded`; joining adds nothing to them, and owning puts the frame that opens
  -- around them.
  rw [Store.propagate_eq]
  cases hscope : mode.scope ambient with
  | refused => exact does_resume _
  | joined k =>
    have hk : k.id ≤ t.connections := hambient k (Propagation.eq_some_of_scope hscope)
    cases hc : c.problem? r.moment with
    | some p =>
      simp only [Replies.enter, hc]
      refine does_of_on fun l => ?_
      rw [Store.join_on, moment_store, hc]
    | none =>
      simp only [Replies.enter, hc]
      exact does_join r hc (does_guarded r mode (h k t hk (Nat.le_refl _)) hk)
  | owned =>
    cases hc : c.problem? r.moment with
    | some p =>
      simp only [Replies.enter, hc]
      refine does_of_on fun l => ?_
      rw [Store.runOwned_on, Store.begin_on, moment_store, hc]
    | none =>
      simp only [Replies.enter, hc]
      have hbody := does_guarded r mode
        (h ⟨t.connections + 1⟩ { t with connections := t.connections + 1 } (Nat.le_refl _)
          (Nat.le_succ _)) (Nat.le_refl _)
      exact does_runOwned r hc hbody rfl rfl rfl (Propagation.commitsOn_iff_settle ..)

/-- A procedure takes its course on every ledger. -/
theorem does_run {n : Nat} (p : Procedure α n) (u : Surrounding n) (t : Clock)
    (hu : ∀ i, (u i).id ≤ t.connections) :
    Does (p.run (store r) (pure ()) u) t (p.course r u t) := by
  induction p generalizing t with
  | give a => exact does_resume _
  | fail e => exact does_resume _
  | panic message => exact does_resume _
  | execute i sql next ih =>
    exact does_bind (does_execute r (u i) sql) (ih _ u t.step hu)
  | query i sql next ih =>
    exact does_bind (does_query r (u i) sql) (ih _ u t.step hu)
  | wait next ih =>
    intro l hl
    rw [Procedure.run_wait_on]
    exact ih r.moment u t hu l hl
  | call c mode ambient body next ihbody ihnext =>
    have hambient : ∀ k ∈ ambient.map u, k.id ≤ t.connections := by
      intro k hk
      obtain ⟨i, -, rfl⟩ := Option.map_eq_some_iff.1 hk
      exact hu i
    have hcall := does_propagate r hambient (fun k v hk hle =>
      ihbody (u.push k) v (Fin.cases hk fun i => Nat.le_trans (hu i) hle)) c mode
    rw [Procedure.course]
    cases henter : r.enter c t (mode.scope (ambient.map u)) with
    | error p =>
      rw [henter] at hcall
      exact does_bind hcall (ihnext _ u t hu)
    | ok entered =>
      rw [henter] at hcall
      exact does_bind hcall (ihnext _ u _ fun i => Nat.le_trans (hu i) hcall.connections_le)

end Does

end Ledger

/-! ### Programs -/

/-- The entries have the numbers from `a` on and before `b`, in order. -/
structure Entry.Numbered (a : Nat) (es : List Entry) (b : Nat) : Prop where
  le : a ≤ b
  mem : ∀ e ∈ es, a ≤ e.write.number ∧ e.write.number < b
  pairwise : es.Pairwise fun e e' => e.write.number < e'.write.number

namespace Entry

theorem Numbered.nil {a b : Nat} (h : a ≤ b) : Numbered a [] b :=
  ⟨h, fun _ he => absurd he List.not_mem_nil, .nil⟩

/-- The numbers of one part of a run end where those of the next begin. -/
theorem Numbered.append {a b c : Nat} {es es' : List Entry} (h : Numbered a es b)
    (h' : Numbered b es' c) : Numbered a (es ++ es') c := by
  have hab := h.le
  have hbc := h'.le
  refine ⟨by omega, ?_, ?_⟩
  · intro e he
    rcases List.mem_append.1 he with he | he
    · have hmem := h.mem e he
      omega
    · have hmem := h'.mem e he
      omega
  · refine List.pairwise_append.2 ⟨h.pairwise, h'.pairwise, ?_⟩
    intro e he e' he'
    have hlt := (h.mem e he).2
    have hge := (h'.mem e' he').1
    omega

theorem Numbered.map_within {a b : Nat} {es : List Entry} (h : Numbered a es b) (f : Frame) :
    Numbered a (es.map (·.within f)) b := by
  refine ⟨h.le, ?_, List.pairwise_map.2 h.pairwise⟩
  intro e' he'
  obtain ⟨e, he, rfl⟩ := List.mem_map.1 he'
  exact h.mem e he

/-- A statement takes one number, whether it is accepted or not. -/
theorem numbered_ofAnswer {α : Type} (k : Connection) (t : Clock) (sql : Sql)
    (answer : Except Stop α) :
    Numbered t.statements (ofAnswer k t sql answer) t.step.statements := by
  cases answer with
  | error stop => exact .nil (Nat.le_succ _)
  | ok n =>
    refine ⟨Nat.le_succ _, ?_, List.pairwise_singleton ..⟩
    intro e he
    obtain rfl := List.mem_singleton.1 he
    constructor
    · exact Nat.le_refl _
    · exact Nat.lt_succ_self _

/-- Entries that are numbered are known by their writes. -/
theorem Numbered.write_injective {a b : Nat} {es : List Entry} (h : Numbered a es b)
    {e e' : Entry} (he : e ∈ es) (he' : e' ∈ es) (heq : e.write = e'.write) : e = e' := by
  have hnodup : (es.map (·.write)).Nodup :=
    List.pairwise_map.2 (h.pairwise.imp fun hlt heq => absurd (heq ▸ hlt) (Nat.lt_irrefl _))
  exact List.inj_on_of_nodup_map hnodup he he' heq

/-- Entries that are numbered make different writes. -/
theorem Numbered.nodup_writes {a b : Nat} {es : List Entry} (h : Numbered a es b)
    (P : Entry → Prop) [DecidablePred P] : (writes P es).Nodup := by
  refine List.pairwise_map.2 ((h.pairwise.filter _).imp fun hlt heq => ?_)
  exact absurd (heq ▸ hlt) (Nat.lt_irrefl _)

end Entry

/-- To enter a call takes no number of a statement. -/
theorem Replies.statements_of_enter (r : Replies) {c : Context} {t u : Clock} {scope : Scope}
    {k : Connection} {opens : Bool} (h : r.enter c t scope = .ok (k, opens, u)) :
    u.statements = t.statements := by
  cases scope with
  | refused => exact nomatch h
  | joined j | owned =>
    rw [enter] at h
    split at h
    · exact nomatch h
    · cases h
      rfl

namespace Procedure

variable {α : Type}

/-- The entries of a course have the numbers that the clock has counted, in order. -/
theorem numbered_course (r : Replies) {n : Nat} (p : Procedure α n) (u : Surrounding n)
    (t : Clock) :
    Entry.Numbered t.statements (p.course r u t).entries (p.course r u t).clock.statements := by
  induction p generalizing t with
  | give a => exact .nil (Nat.le_refl _)
  | fail e => exact .nil (Nat.le_refl _)
  | panic message => exact .nil (Nat.le_refl _)
  | execute i sql next ih => exact (Entry.numbered_ofAnswer ..).append (ih _ u t.step)
  | query i sql next ih => exact (Entry.numbered_ofAnswer ..).append (ih _ u t.step)
  | wait next ih => exact ih r.moment u t
  | call c mode ambient body next ihbody ihnext =>
    rw [course]
    -- The body has its numbers after those before the call, and the frame changes none of them.
    cases henter : r.enter c t (mode.scope (ambient.map u)) with
    | error p => exact ihnext _ u t
    | ok entered =>
      obtain ⟨k, opens, v⟩ := entered
      have hbody := ihbody (u.push k) v
      rw [r.statements_of_enter henter] at hbody
      exact (hbody.map_within _).append (ihnext _ u _)

/-- On an empty ledger a program ends as its course says. Of the writes in it, be they executed or
queried for their rows, exactly those are durable in the end whose transaction was committed by the
call that opened it, and around which every savepoint call on that transaction had a closure that
ended with a value; and nothing else is. -/
theorem mem_durable_iff (r : Replies) (p : Procedure α 0) :
    let c := p.course r .none ⟨0, 0⟩
    let (ending, m) := (p.run (Ledger.store r) (pure ()) .none).on .empty
    ending = c.ending ∧
      (∀ e ∈ c.entries, e.write ∈ m.durable ↔ e.Committed ∧ e.Upheld) ∧
      (∀ w ∈ m.durable, ∃ e ∈ c.entries, e.write = w) ∧ m.durable.Nodup := by
  have hnum := numbered_course r p .none ⟨0, 0⟩
  obtain ⟨m, hm, -, hadv⟩ :=
    Ledger.does_run r p .none ⟨0, 0⟩ (fun i => i.elim0) .empty rfl
  -- Nothing is durable to begin with, so all that is durable in the end is from the course.
  have hperm : m.durable.Perm (Entry.writes Entry.Survives (p.course r .none ⟨0, 0⟩).entries) :=
    hadv.durable_perm
  simp only [hm]
  refine ⟨trivial, ?_, ?_, hperm.nodup_iff.2 (hnum.nodup_writes _)⟩
  · intro e he
    rw [hperm.mem_iff]
    constructor
    · intro hw
      -- The number of a write tells which entry it is from.
      obtain ⟨e', he', hwrite⟩ := List.mem_map.1 hw
      obtain ⟨hmem, hsurvives⟩ := List.mem_filter.1 he'
      obtain rfl := hnum.write_injective hmem he hwrite
      exact of_decide_eq_true hsurvives
    · intro hsurvives
      exact List.mem_map_of_mem (List.mem_filter.2 ⟨he, decide_eq_true hsurvives⟩)
  · intro w hw
    obtain ⟨e, he, hwrite⟩ := List.mem_map.1 (hperm.mem_iff.1 hw)
    exact ⟨e, (List.mem_filter.1 he).1, hwrite⟩

/-- The second write fails behind a savepoint, and its caller goes on. The writes return rows. -/
example :
    let p : Procedure Unit 0 :=
      .call .background .requiredNew none
        (.query 0 [.raw "a"] fun _ =>
          .call .background .savepoint (some 0)
            (.query 0 [.raw "b"] fun _ => .fail (Error.internal "refused"))
            fun _ => .execute 0 [.raw "c"] fun _ => .give ())
        fun _ => .give ()
    let r : Replies := ⟨.sqlite, ⟨[], 0⟩, fun _ _ => .ok 1, fun _ _ => .ok []⟩
    ((p.run (Ledger.store r) (pure ()) .none).on .empty).2.durable.map (·.number) = [0, 2] := rfl

end Procedure

end ResourceEngine
