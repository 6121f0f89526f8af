import ResourceEngine.Proofs.Store.Durability
import ResourceEngine.Proofs.Store.Finishing

/-!
# What an absorbed failure leaves behind

A history leads to a ledger: what the store accepts has its effect there, and what it rejects has
none. A call behind a savepoint whose failure is absorbed leaves the writes on the ambient
connection as they were, whatever the store rejects inside of it, unless it rejects the rollback of
this very call. `Ledger.Extends` says what any work leaves of a connection: its writes come after
those that were there, and the savepoints that it does not close are inside of those that were open.
-/

namespace ResourceEngine

open History

/-- The ledger after a call of the store. -/
def Ledger.after (l : Ledger) : Exchange → Ledger
  | .connect .. => l.connect
  | .control k c (.ok ()) => l.control k c
  | .query k sql answer => l.answered k sql answer
  | .execute k sql answer => l.answered k sql answer
  | .draw _ => { l with savepoints := l.savepoints + 1 }
  | .control _ _ (.error _) | .bind .. | .pause => l

/-- The ledger that a history leads to. -/
def History.ledger (h : History) : Ledger := h.foldl Ledger.after .empty

@[simp] theorem History.savepoints_append (h g : History) :
    savepoints (h ++ g) = savepoints h + savepoints g := List.countP_append

namespace Ledger

variable {l m m' : Ledger} {j k : Connection} {p : Savepoint}

/-! ### Control statements on one connection -/

@[simp] theorem savepoints_control (l : Ledger) (k : Connection) (c : Control) :
    (l.control k c).savepoints = l.savepoints := by
  cases c with
  | release p | rollbackTo p =>
    simp only [control]
    split <;> rfl
  | _ => rfl

@[simp] theorem connections_control (l : Ledger) (k : Connection) (c : Control) :
    (l.control k c).connections = l.connections :=
  congrArg Clock.connections (clock_control l k c)

@[simp] theorem statements_control (l : Ledger) (k : Connection) (c : Control) :
    (l.control k c).statements = l.statements :=
  congrArg Clock.statements (clock_control l k c)

/-- A control statement leaves the writes on every other connection as they are. -/
theorem pending_control_of_ne (hjk : j ≠ k) (c : Control) :
    (l.control j c).pending k = l.pending k := by
  cases c with
  | rollbackTo p =>
    simp only [control]
    split
    · rfl
    · exact Function.update_of_ne hjk.symm ..
  | release p =>
    simp only [control]
    split <;> rfl
  | commit | rollback => exact Function.update_of_ne hjk.symm ..
  | _ => rfl

/-- A control statement leaves the savepoints on every other connection as they are. -/
theorem marks_control_of_ne (hjk : j ≠ k) (c : Control) :
    (l.control j c).marks k = l.marks k := by
  cases c with
  | rollbackTo p | release p =>
    simp only [control]
    split
    · rfl
    · exact Function.update_of_ne hjk.symm ..
  | commit | rollback | savepoint => exact Function.update_of_ne hjk.symm ..
  | _ => rfl

section Marks

variable {inner outer : List (Savepoint × Nat)} {n : Nat}

/-- The mark of a savepoint is found behind those of other savepoints. -/
theorem dropWhile_marks (hinner : ∀ x ∈ inner, x.1 ≠ p) :
    (inner ++ (p, n) :: outer).dropWhile (·.1 != p) = (p, n) :: outer := by
  induction inner with
  | nil => simp
  | cons x inner ih =>
    rw [List.forall_mem_cons] at hinner
    simp [hinner.1, ih hinner.2]

/-- The release of a savepoint closes those inside of it too. -/
theorem marks_release (h : l.marks k = inner ++ (p, n) :: outer)
    (hinner : ∀ x ∈ inner, x.1 ≠ p) : (l.control k (.release p)).marks k = outer := by
  simp [control, h, dropWhile_marks hinner]

theorem pending_release (l : Ledger) (k : Connection) (p : Savepoint) :
    (l.control k (.release p)).pending = l.pending := by
  simp only [control]
  split <;> rfl

/-- A rollback to a savepoint closes those inside of it, and keeps the savepoint itself. -/
theorem marks_rollbackTo (h : l.marks k = inner ++ (p, n) :: outer)
    (hinner : ∀ x ∈ inner, x.1 ≠ p) :
    (l.control k (.rollbackTo p)).marks k = (p, n) :: outer := by
  simp [control, h, dropWhile_marks hinner]

/-- A rollback to a savepoint takes back what was written after its mark. -/
theorem pending_rollbackTo (h : l.marks k = inner ++ (p, n) :: outer)
    (hinner : ∀ x ∈ inner, x.1 ≠ p) :
    (l.control k (.rollbackTo p)).pending k = (l.pending k).take n := by
  simp [control, h, dropWhile_marks hinner]

end Marks

/-! ### Extensions -/

/-- On the connection, the second ledger has more writes after those of the first, and more open
savepoints inside of those of the first, all of them drawn later. -/
structure Extends (l m : Ledger) (k : Connection) : Prop where
  savepoints_le : l.savepoints ≤ m.savepoints
  pending : ∃ later, m.pending k = l.pending k ++ later
  marks : ∃ inner, m.marks k = inner ++ l.marks k ∧ ∀ x ∈ inner, l.savepoints ≤ x.1.number

theorem extends_of_eq (hsavepoints : l.savepoints ≤ m.savepoints)
    (hpending : m.pending k = l.pending k) (hmarks : m.marks k = l.marks k) : l.Extends m k where
  savepoints_le := hsavepoints
  pending := ⟨[], by simp [hpending]⟩
  marks := ⟨[], by simp [hmarks]⟩

theorem Extends.refl (l : Ledger) (k : Connection) : l.Extends l k :=
  extends_of_eq (Nat.le_refl _) rfl rfl

/-- Later writes and later savepoints come on top of earlier ones. -/
theorem Extends.trans (h : l.Extends m k) (h' : m.Extends m' k) : l.Extends m' k := by
  obtain ⟨later, hlater⟩ := h.pending
  obtain ⟨later', hlater'⟩ := h'.pending
  obtain ⟨inner, hmarks, hinner⟩ := h.marks
  obtain ⟨inner', hmarks', hinner'⟩ := h'.marks
  refine ⟨Nat.le_trans h.savepoints_le h'.savepoints_le, ⟨later ++ later', ?_⟩, inner' ++ inner,
    ?_, ?_⟩
  · rw [hlater', hlater, List.append_assoc]
  · rw [hmarks', hmarks, List.append_assoc]
  · intro x hx
    rcases List.mem_append.1 hx with hx | hx
    · exact Nat.le_trans h.savepoints_le (hinner' x hx)
    · exact hinner x hx

theorem extends_control_of_ne (hjk : j ≠ k) (c : Control) : l.Extends (l.control j c) k :=
  extends_of_eq (by simp) (pending_control_of_ne hjk c) (marks_control_of_ne hjk c)

theorem extends_connect (hk : k.id ≤ l.connections) : l.Extends l.connect k := by
  have hne : k ≠ ⟨l.connections + 1⟩ := by
    rintro rfl
    exact Nat.not_succ_le_self _ hk
  exact extends_of_eq (Nat.le_refl _) (Function.update_of_ne hne ..) (Function.update_of_ne hne ..)

/-- A write comes after those that are there. -/
theorem extends_write (j : Connection) (sql : Sql) : l.Extends (l.write j sql) k := by
  refine ⟨Nat.le_refl _, ?_, [], rfl, List.forall_mem_nil _⟩
  by_cases hkj : k = j
  · subst hkj
    exact ⟨[⟨l.statements, sql⟩], Function.update_self ..⟩
  · exact ⟨[], by simp [write, step, hkj]⟩

/-- A new savepoint is inside of those that are open. -/
theorem extends_mark (l : Ledger) (k : Connection) : l.Extends (l.mark k) k := by
  refine ⟨by simp [mark], ⟨[], by simp [mark, control]⟩,
    [(⟨l.savepoints⟩, (l.pending k).length)], by simp [mark, control], ?_⟩
  simp

/-- Behind a new savepoint its mark stays, and what is inside of it has been drawn later. -/
theorem Extends.marks_of_mark (h : (l.mark k).Extends m k) :
    ∃ inner, m.marks k = inner ++ (⟨l.savepoints⟩, (l.pending k).length) :: l.marks k ∧
      ∀ x ∈ inner, x.1 ≠ ⟨l.savepoints⟩ := by
  obtain ⟨inner, hmarks, hinner⟩ := h.marks
  refine ⟨inner, by simpa [mark, control] using hmarks, fun x hx heq => ?_⟩
  have hlater : l.savepoints + 1 ≤ x.1.number := by simpa [mark] using hinner x hx
  rw [heq] at hlater
  exact Nat.not_succ_le_self _ hlater

/-- Work behind a savepoint that is released again extends what was there before the savepoint. -/
theorem Extends.release (h : (l.mark k).Extends m k) :
    l.Extends (m.control k (.release ⟨l.savepoints⟩)) k := by
  have hall := (l.extends_mark k).trans h
  obtain ⟨inner, hmarks, hinner⟩ := h.marks_of_mark
  refine ⟨by simpa using hall.savepoints_le, ?_, [], ?_, List.forall_mem_nil _⟩
  · rw [pending_release]
    exact hall.pending
  · exact marks_release hmarks hinner

/-- What was written behind a savepoint is taken back. -/
theorem Extends.pending_rollbackTo (h : (l.mark k).Extends m k) :
    (m.control k (.rollbackTo ⟨l.savepoints⟩)).pending k = l.pending k := by
  obtain ⟨inner, hmarks, hinner⟩ := h.marks_of_mark
  obtain ⟨later, hlater⟩ := h.pending
  rw [Ledger.pending_rollbackTo hmarks hinner, hlater]
  exact List.take_left

/-- Rolled back to, a savepoint is as it was when it was set. -/
theorem Extends.rollbackTo (h : (l.mark k).Extends m k) :
    (l.mark k).Extends (m.control k (.rollbackTo ⟨l.savepoints⟩)) k := by
  obtain ⟨inner, hmarks, hinner⟩ := h.marks_of_mark
  refine extends_of_eq (by simpa using h.savepoints_le) ?_ ?_
  · rw [h.pending_rollbackTo]
    simp [mark, control]
  · rw [marks_rollbackTo hmarks hinner]
    simp [mark, control]

/-! ### Exchanges -/

/-- A ledger counts the connections that are asked for, as the history does. -/
theorem connections_after (l : Ledger) (x : Exchange) :
    (l.after x).connections = l.connections + History.connections [x] := by
  rcases x with _ | ⟨k, c, e | ⟨⟩⟩ | ⟨k, sql, e | rows⟩ | ⟨k, sql, e | n⟩ | _ | _ | _ <;>
    simp [after, answered, connect, write, step, History.connections, Exchange.isConnect]

/-- A ledger counts the savepoints that are drawn, as the history does. -/
theorem savepoints_after (l : Ledger) (x : Exchange) :
    (l.after x).savepoints = l.savepoints + History.savepoints [x] := by
  rcases x with _ | ⟨k, c, e | ⟨⟩⟩ | ⟨k, sql, e | rows⟩ | ⟨k, sql, e | n⟩ | _ | _ | _ <;>
    simp [after, answered, connect, write, step, History.savepoints, Exchange.isDraw]

theorem statements_le_after (l : Ledger) (x : Exchange) : l.statements ≤ (l.after x).statements := by
  rcases x with _ | ⟨k, c, e | ⟨⟩⟩ | ⟨k, sql, e | rows⟩ | ⟨k, sql, e | n⟩ | _ | _ | _ <;>
    simp [after, answered, connect, write, step]

/-- Only a control statement can take anything away. -/
theorem extends_after (x : Exchange) (hx : ∀ j c answer, x ≠ .control j c answer)
    (hk : k.id ≤ l.connections) : l.Extends (l.after x) k := by
  rcases x with _ | ⟨j, c, answer⟩ | ⟨j, sql, e | rows⟩ | ⟨j, sql, e | n⟩ | _ | _ | _
  · exact extends_connect hk
  · exact absurd rfl (hx j c answer)
  · exact extends_of_eq (Nat.le_refl _) rfl rfl
  · exact extends_write j sql
  · exact extends_of_eq (Nat.le_refl _) rfl rfl
  · exact extends_write j sql
  · exact .refl l k
  · exact extends_of_eq (Nat.le_succ _) rfl rfl
  · exact .refl l k

/-- A control statement brings no writes to a connection. -/
theorem mem_pending_control {w : Write} (c : Control) (hw : w ∈ (l.control j c).pending k) :
    w ∈ l.pending k := by
  by_cases hjk : j = k
  · subst hjk
    cases c with
    | begin | savepoint p => exact hw
    | release p => rwa [pending_release] at hw
    | commit | rollback => simp [control, clear] at hw
    | rollbackTo p =>
      simp only [control] at hw
      split at hw
      · exact hw
      · simp only [Function.update_self] at hw
        exact List.mem_of_mem_take hw
  · rwa [pending_control_of_ne hjk] at hw

/-- A write that comes to a connection has the number of the statement. -/
theorem mem_pending_after {w : Write} {x : Exchange} (hw : w ∈ (l.after x).pending k) :
    w ∈ l.pending k ∨ w.number = l.statements := by
  have hwrite {j : Connection} {sql : Sql} (hw : w ∈ (l.write j sql).pending k) :
      w ∈ l.pending k ∨ w.number = l.statements := by
    by_cases hkj : k = j
    · subst hkj
      simp only [write, Function.update_self, List.mem_append, List.mem_singleton] at hw
      exact hw.imp_right fun h => congrArg Write.number h
    · simp only [write, Function.update_of_ne hkj] at hw
      exact .inl hw
  rcases x with _ | ⟨j, c, e | ⟨⟩⟩ | ⟨j, sql, e | rows⟩ | ⟨j, sql, e | n⟩ | _ | _ | _
  · -- A new connection has no writes.
    by_cases hk : k = ⟨l.connections + 1⟩
    · subst hk
      simp [after, connect] at hw
    · simp only [after, connect, Function.update_of_ne hk] at hw
      exact .inl hw
  · exact .inl hw
  · exact .inl (mem_pending_control c hw)
  · exact .inl hw
  · exact hwrite hw
  · exact .inl hw
  · exact hwrite hw
  · exact .inl hw
  · exact .inl hw
  · exact .inl hw

/-! ### Runs of exchanges -/

theorem connections_foldl (h : History) (l : Ledger) :
    (h.foldl after l).connections = l.connections + History.connections h := by
  induction h generalizing l with
  | nil => rfl
  | cons x h ih =>
    show (h.foldl after (l.after x)).connections = l.connections + History.connections ([x] ++ h)
    rw [ih, connections_after, connections_append, Nat.add_assoc]

theorem savepoints_foldl (h : History) (l : Ledger) :
    (h.foldl after l).savepoints = l.savepoints + History.savepoints h := by
  induction h generalizing l with
  | nil => rfl
  | cons x h ih =>
    show (h.foldl after (l.after x)).savepoints = l.savepoints + History.savepoints ([x] ++ h)
    rw [ih, savepoints_after, History.savepoints_append, Nat.add_assoc]

/-- What is written later has a later number. -/
theorem mem_pending_foldl {w : Write} (h : History) {l : Ledger}
    (hw : w ∈ (h.foldl after l).pending k) : w ∈ l.pending k ∨ l.statements ≤ w.number := by
  induction h generalizing l with
  | nil => exact .inl hw
  | cons x h ih =>
    rcases ih hw with hw | hw
    · exact (mem_pending_after hw).imp_right fun h => Nat.le_of_eq h.symm
    · exact .inr (Nat.le_trans (l.statements_le_after x) hw)

end Ledger

/-! ### Histories -/

namespace History

variable {h h' h'' : History}

/-- The ledger after more calls goes on from the one before. -/
theorem ledger_append (h new : History) : ledger (h ++ new) = new.foldl Ledger.after (ledger h) :=
  List.foldl_append

@[simp] theorem ledger_append_singleton (h : History) (x : Exchange) :
    ledger (h ++ [x]) = (ledger h).after x := ledger_append h [x]

/-- The ledger of a history has counted the connections of the history. -/
@[simp] theorem connections_ledger (h : History) : (ledger h).connections = connections h := by
  rw [ledger, Ledger.connections_foldl]
  exact Nat.zero_add _

/-- The next savepoint on a ledger is the one that an oracle draws. -/
@[simp] theorem savepoints_ledger (h : History) : (ledger h).savepoints = savepoints h := by
  rw [ledger, Ledger.savepoints_foldl]
  exact Nat.zero_add _

/-- The second history goes on from the first one, and extends every connection that was there. -/
structure Grows (h h' : History) : Prop where
  isPrefix : h <+: h'
  ledger_extends : ∀ k, k.id ≤ connections h → (ledger h).Extends (ledger h') k

theorem Grows.refl (h : History) : Grows h h where
  isPrefix := List.prefix_rfl
  ledger_extends k _ := .refl _ k

theorem Grows.connections_le (hg : Grows h h') : connections h ≤ connections h' := by
  obtain ⟨new, rfl⟩ := hg.isPrefix
  exact connections_le_append h new

/-- What extends the connections of a longer history extends those of a shorter one. -/
theorem Grows.trans (hg : Grows h h') (hg' : Grows h' h'') : Grows h h'' where
  isPrefix := hg.isPrefix.trans hg'.isPrefix
  ledger_extends k hk :=
    (hg.ledger_extends k hk).trans (hg'.ledger_extends k (Nat.le_trans hk hg.connections_le))

/-- A call other than a control statement only adds. -/
theorem grows_append (h : History) {x : Exchange} (hx : ∀ j c answer, x ≠ .control j c answer) :
    Grows h (h ++ [x]) where
  isPrefix := List.prefix_append ..
  ledger_extends k hk := by
    rw [ledger_append_singleton]
    exact Ledger.extends_after x hx (by rwa [connections_ledger])

/-- A control statement, given what an accepted one leaves of its own connection. -/
theorem Grows.control {j : Connection} {c : Control} (hg : Grows h h')
    (hj : j.id ≤ connections h → (ledger h).Extends ((ledger h').control j c) j)
    (answer : Except Error Unit) : Grows h (h' ++ [.control j c answer]) where
  isPrefix := hg.isPrefix.trans (List.prefix_append ..)
  ledger_extends k hk := by
    rw [ledger_append_singleton]
    rcases answer with e | ⟨⟩
    · exact hg.ledger_extends k hk
    · by_cases hjk : j = k
      · subst hjk
        exact hj hk
      · exact (hg.ledger_extends k hk).trans (Ledger.extends_control_of_ne hjk c)

/-- A control statement on a connection that was not there. -/
theorem Grows.control_of_lt {j : Connection} (hg : Grows h h') (hj : connections h < j.id)
    (c : Control) (answer : Except Error Unit) : Grows h (h' ++ [.control j c answer]) :=
  hg.control (fun hle => absurd hle (Nat.not_le_of_lt hj)) answer

end History

/-! ### Work -/

/-- The work extends what it finds. -/
def IsGrowing {n : Nat} {α : Type} (u : Surrounding n) (w : Work History α) : Prop :=
  ∀ h, Within u h → Grows h (w.on h).2

section

variable {n : Nat} {α β : Type} {u : Surrounding n} {h h' : History}

theorem Within.of_grows (hu : Within u h) (hg : Grows h h') : Within u h' :=
  fun i => Nat.le_trans (hu i) hg.connections_le

theorem isGrowing_resume (ending : Except Stop α) : IsGrowing u (Work.resume ending) :=
  fun h _ => .refl h

/-- Work that goes on, whatever the ending of its first part, extends what it finds if its parts do.
-/
theorem isGrowing_bind {w : Work History α} {g : Except Stop α → Work History β}
    (hw : IsGrowing u w) (hg : ∀ ending, IsGrowing u (g ending)) :
    IsGrowing u (w.attempt >>= g) := by
  intro h hu
  have ha := hw h hu
  rw [Work.on_bind, Work.on_attempt]
  exact ha.trans (hg _ _ (hu.of_grows ha))

theorem isGrowing_map (g : α → β) {w : Work History α} (hw : IsGrowing u w) :
    IsGrowing u (g <$> w) := by
  intro h hu
  rw [Work.on_map]
  exact hw h hu

/-- Work in a transaction that is around already is work in the transactions around. -/
theorem IsGrowing.of_push {i : Fin n} {w : Work History α} (hw : IsGrowing (u.push (u i)) w) :
    IsGrowing u w :=
  fun h hu => hw h (hu.push (hu i))

end

namespace Oracle

variable {n : Nat} {α : Type} {u : Surrounding n} (O : Oracle)

theorem isGrowing_query (k : Connection) (sql : Sql) : IsGrowing u (O.store.query k sql) :=
  fun h _ => grows_append h fun _ _ _ => Exchange.noConfusion

theorem isGrowing_execute (k : Connection) (sql : Sql) : IsGrowing u (O.store.execute k sql) :=
  fun h _ => grows_append h fun _ _ _ => Exchange.noConfusion

theorem isGrowing_pass : IsGrowing u (liftM Oracle.pass : Work History Unit) :=
  fun h _ => grows_append h fun _ _ _ => Exchange.noConfusion

theorem grows_bindContext (k : Connection) (c : Option Context) (h : History) :
    Grows h ((O.store.bindContext k c).run h).2 :=
  grows_append h fun _ _ _ => Exchange.noConfusion

/-! ### Savepoints -/

section

variable {h h₂ h₃ : History} {k : Connection}

/-- The history has come to a new savepoint on the connection. -/
structure Marked (k : Connection) (h h₂ : History) : Prop where
  grows : Grows h h₂
  ledger_eq : ledger h₂ = (ledger h).mark k

theorem Marked.extends_mark (hmark : Marked k h h₂) (hwork : Grows h₂ h₃)
    (hk : k.id ≤ connections h) : ((ledger h).mark k).Extends (ledger h₃) k := by
  rw [← hmark.ledger_eq]
  exact hwork.ledger_extends k (Nat.le_trans hk hmark.grows.connections_le)

/-- The store has rejected the rollback to the savepoint, at the end of the history. -/
def RollbackRejected (k : Connection) (p : Savepoint) (h h' : History) : Prop :=
  ∃ inside e, h' = h ++ inside ++ [.control k (.rollbackTo p) (.error e)]

/-- Behind a savepoint, the rollback to it leaves the writes from before it as they were, unless the
store rejects it. -/
theorem grows_rollbackTo (hmark : Marked k h h₂) (hwork : Grows h₂ h₃)
    (hk : k.id ≤ connections h) :
    let h₄ := ((O.store.rollbackTo k ⟨savepoints h⟩).run h₃).2
    Grows h h₄ ∧ ((ledger h₄).pending k = (ledger h).pending k ∨
      RollbackRejected k ⟨savepoints h⟩ h h₄) := by
  have hext := hmark.extends_mark hwork hk
  rw [← savepoints_ledger]
  have hback : Grows h₂ (h₃ ++ [.control k (.rollbackTo ⟨(ledger h).savepoints⟩)
      (O.control h₃ k (.rollbackTo ⟨(ledger h).savepoints⟩))]) := by
    refine hwork.control (fun _ => ?_) _
    rw [hmark.ledger_eq]
    exact hext.rollbackTo
  rw [Store.rollbackTo_run, control_run]
  rcases hanswer : O.control h₃ k (.rollbackTo ⟨(ledger h).savepoints⟩) with e | ⟨⟩ <;>
    rw [hanswer] at hback
  · obtain ⟨inside, rfl⟩ := (hmark.grows.trans hwork).isPrefix
    exact ⟨hmark.grows.trans hback, .inr ⟨inside, e, rfl⟩⟩
  · simp only [control_run]
    refine ⟨(hmark.grows.trans hback).control (fun _ => ?_) _, .inl ?_⟩
    · exact (hmark.extends_mark hback hk).release
    · rw [ledger_append_singleton]
      have hpending := hext.pending_rollbackTo
      rcases O.control _ k (.release ⟨(ledger h).savepoints⟩) with e | ⟨⟩
      · simpa [Ledger.after] using hpending
      · simpa [Ledger.after, Ledger.pending_release] using hpending

/-- A call behind a savepoint extends what it finds. If it absorbs an error it leaves the writes on
the connection as they were, unless the store rejects the rollback of this call. -/
theorem grows_savepointOn {f : Connection → Work History α} (hk : k.id ≤ connections h)
    (hf : ∀ h', Grows h h' → Grows h' ((f k).on h').2) :
    let r := (O.store.savepointOn k f).on h
    Grows h r.2 ∧ ∀ e, r.1 = .ok (.absorbed e) →
      (ledger r.2).pending k = (ledger h).pending k ∨
        RollbackRejected k ⟨savepoints h⟩ h r.2 := by
  have hdrawn : Grows h (h ++ [.draw ⟨savepoints h⟩]) :=
    grows_append h fun _ _ _ => Exchange.noConfusion
  have hset (answer : Except Error Unit) : Grows h
      (h ++ [.draw ⟨savepoints h⟩] ++ [.control k (.savepoint ⟨savepoints h⟩) answer]) := by
    refine hdrawn.control (fun _ => ?_) answer
    rw [ledger_append_singleton, ← savepoints_ledger]
    exact (ledger h).extends_mark k
  -- What follows goes along the calls of the savepoint; at each of them the store may reject, and
  -- the case for an accepted one goes on.
  rw [Store.savepointOn_on]
  rcases hrun : O.store.freshSavepoint.run h with ⟨p, h₁⟩
  obtain ⟨rfl, rfl⟩ := Prod.mk.inj hrun
  simp only [control_run]
  rcases hanswer : O.control _ k (.savepoint ⟨savepoints h⟩) with e | ⟨⟩
  -- Without a savepoint nothing has been done.
  · refine ⟨hset _, fun _ _ => .inl ?_⟩
    rw [ledger_append_singleton, ledger_append_singleton]
    rfl
  have hmark : Marked k h
      (h ++ [.draw ⟨savepoints h⟩] ++ [.control k (.savepoint ⟨savepoints h⟩) (.ok ())]) := by
    refine ⟨hset _, ?_⟩
    rw [ledger_append_singleton, ledger_append_singleton, ← savepoints_ledger]
    rfl
  have hwork := hf _ hmark.grows
  simp only
  rcases hrun : (f k).on _ with ⟨(e | message) | a, h₃⟩ <;> rw [hrun] at hwork
  · have hback := O.grows_rollbackTo hmark hwork hk
    exact ⟨hback.1, fun _ _ => hback.2⟩
  · have hback := O.grows_rollbackTo hmark hwork hk
    exact ⟨hback.1, fun _ habsorbed => nomatch habsorbed⟩
  simp only
  have hreleased (answer : Except Error Unit) :
      Grows h (h₃ ++ [.control k (.release ⟨savepoints h⟩) answer]) := by
    refine (hmark.grows.trans hwork).control (fun _ => ?_) answer
    rw [← savepoints_ledger]
    exact (hmark.extends_mark hwork hk).release
  rcases O.control h₃ k (.release ⟨savepoints h⟩) with e | ⟨⟩
  · -- A rejected release has no effect, and the rollback comes after it.
    have hrejected : Grows _ (h₃ ++ [.control k (.release ⟨savepoints h⟩) (.error e)]) :=
      hwork.trans ⟨List.prefix_append .., fun j _ => by
        rw [ledger_append_singleton]
        exact .refl _ j⟩
    have hback := O.grows_rollbackTo hmark hrejected hk
    exact ⟨hback.1, fun _ _ => hback.2⟩
  · exact ⟨hreleased _, fun _ habsorbed => nomatch habsorbed⟩

end

/-- A savepoint around the work does not keep it from extending what it finds. -/
theorem isGrowing_guarded (mode : Propagation) (i : Fin n) {f : Connection → Work History α}
    (hf : IsGrowing u (f (u i))) : IsGrowing u (O.store.guarded mode f (u i)) := by
  cases mode with
  | savepoint =>
    intro h hu
    exact (O.grows_savepointOn (hu i) fun h' hg => hf h' (hu.of_grows hg)).1
  | current | mandatory | requiredNew => exact isGrowing_map _ hf

/-! ### Scopes -/

/-- A call that joins extends what it finds, as a bound context has no effect on the ledger. -/
theorem isGrowing_join (c : Context) (i : Fin n) {f : Connection → Work History α}
    (hf : IsGrowing u (f (u i))) : IsGrowing u (O.store.join c (u i) f) := by
  intro h hu
  rw [Store.join_on]
  cases c.problem? (O.store.moment h) with
  | some p => exact .refl h
  | none =>
    have hfirst := O.grows_bindContext (u i) (some c) h
    exact (hfirst.trans (hf _ (hu.of_grows hfirst))).trans (O.grows_bindContext ..)

/-- A call that owns its transaction extends what it finds: all that it controls is on a connection
that was not there. -/
theorem isGrowing_runOwned {β : Type} (c : Context) {g : Connection → Work History β}
    (hg : ∀ k, IsGrowing (u.push k) (g k)) : IsGrowing u (O.store.runOwned c g) := by
  intro h hu
  have hconnected (answer : Except Error Connection) : Grows h (h ++ [.connect c answer]) :=
    grows_append h fun _ _ _ => Exchange.noConfusion
  have hbegun (answer : Except Error Unit) :
      Grows h (h ++ [.connect c (.ok (next h))] ++ [.control (next h) .begin answer]) :=
    (hconnected _).control_of_lt (Nat.lt_succ_self _) _ _
  -- The transaction may fail to begin in three ways. Once it is open, the closure is around one
  -- more connection.
  obtain ⟨e, hbegin, -, -⟩ | ⟨e, hbegin⟩ | ⟨e, hbegin⟩ | hbegin := O.begin_cases c h
  · rw [Store.runOwned_on, hbegin]
    exact .refl h
  · rw [Store.runOwned_on, hbegin]
    exact hconnected _
  · rw [Store.runOwned_on, hbegin]
    simpa using hbegun (.error e)
  have hopened : Grows h (h ++ opening c h) := by simpa [opening] using hbegun (.ok ())
  have hwithin : Within (u.push (next h)) (h ++ opening c h) := by
    refine (hu.of_grows hopened).push ?_
    rw [connections_append]
    exact Nat.le_refl _
  obtain ⟨ending, fin, answer, hcall, -⟩ :=
    O.runOwned_of_begin hbegin (g := g) (Prod.ext rfl rfl)
  rw [hcall]
  exact (hopened.trans (hg (next h) _ hwithin)).control_of_lt (Nat.lt_succ_self _) fin answer

/-! ### Calls and procedures -/

/-- A call under any propagation extends what it finds if its closure does. -/
theorem isGrowing_propagate (c : Context) (mode : Propagation) (ambient : Option (Fin n))
    {f : Connection → Work History α} (hf : ∀ k, IsGrowing (u.push k) (f k)) :
    IsGrowing u (O.store.propagate c (ambient.map u) mode f) := by
  rw [Store.propagate_eq]
  cases hscope : mode.scope (ambient.map u) with
  | refused => exact isGrowing_resume _
  | joined k =>
    obtain ⟨i, -, rfl⟩ := Option.map_eq_some_iff.1 (Propagation.eq_some_of_scope hscope)
    exact O.isGrowing_join c i (O.isGrowing_guarded mode 0 (hf (u i))).of_push
  | owned => exact O.isGrowing_runOwned c fun k => O.isGrowing_guarded mode 0 (hf k)

/-- Procedures extend what they find, by induction on the tree. -/
theorem isGrowing_run (p : Procedure α n) (u : Surrounding n) :
    IsGrowing u (p.run O.store pass u) := by
  induction p with
  | give a => exact isGrowing_resume (.ok a)
  | fail e => exact isGrowing_resume (.error (.error e))
  | panic message => exact isGrowing_resume (.error (.panic message))
  | execute i sql next ih =>
    exact isGrowing_bind (O.isGrowing_execute (u i) sql) fun answer => ih answer u
  | query i sql next ih =>
    exact isGrowing_bind (O.isGrowing_query (u i) sql) fun answer => ih answer u
  | wait next ih =>
    intro h hu
    have hpass : Grows h (pass.run h).2 := isGrowing_pass h hu
    rw [Procedure.run_wait_on]
    exact hpass.trans (ih _ u _ (hu.of_grows hpass))
  | call c mode ambient body next ihbody ihnext =>
    exact isGrowing_bind (O.isGrowing_propagate c mode ambient fun k => ihbody (u.push k))
      fun answer => ihnext answer u

/-- A call behind a savepoint that joins a transaction and absorbs an error. -/
theorem pending_of_join {c : Context} {i : Fin n} {f : Connection → Work History α} {h new : History}
    {e : Error} (hu : Within u h) (hf : IsGrowing u (f (u i)))
    (hrun : (O.store.join c (u i) (O.store.savepointOn · f)).on h =
      (.ok (.absorbed e), h ++ new)) :
    (ledger (h ++ new)).pending (u i) = (ledger h).pending (u i) ∨
      ∃ e', .control (u i) (.rollbackTo ⟨savepoints h⟩) (.error e') ∈ new := by
  rw [Store.join_on] at hrun
  cases hc : c.problem? (O.store.moment h) with
  | some p =>
    rw [hc] at hrun
    exact nomatch hrun
  | none =>
    let h₀ := h ++ [.bind (u i) (some c)]
    have hu₀ : Within u h₀ := hu.append _
    have hcall := (O.grows_savepointOn (hu₀ i) fun h' hg => hf h' (hu₀.of_grows hg)).2 e
    -- The context is bound before the call and after it, which leaves the ledger as it is.
    rw [hc] at hrun
    obtain ⟨hending, hnew⟩ := Prod.mk.inj hrun
    have hnew : h ++ new = ((O.store.savepointOn (u i) f).on h₀).2 ++
        [.bind (u i) (watcher (u i) h)] := hnew.symm
    rcases hcall hending with hpending | ⟨inside, e', hrejected⟩
    · left
      rw [hnew, ledger_append_singleton]
      rw [ledger_append_singleton] at hpending
      exact hpending
    · right
      rw [hrejected] at hnew
      have hnew : new = .bind (u i) (some c) :: inside ++
          [.control (u i) (.rollbackTo ⟨savepoints h₀⟩) (.error e'),
            .bind (u i) (watcher (u i) h)] := by
        simpa [h₀] using hnew
      refine ⟨e', ?_⟩
      rw [hnew]
      simp [h₀, savepoints, Exchange.isDraw]

/-- Absorbed means undone. A call behind a savepoint on an ambient transaction, whatever its closure
does and whichever statements the store rejects, leaves the writes in effect on the transaction as
they were if it absorbs an error, unless the store has rejected the rollback of this very call. So
whatever happens later, a commit of the transaction makes only writes durable that were in effect
before the call or have been made after it. -/
theorem pending_of_absorbed (c : Context) (i : Fin n) (body : Procedure α (n + 1))
    (u : Surrounding n) (h new : History) (e : Error) (hu : ∀ j, (u j).id ≤ connections h)
    (hrun : (O.store.savepoint c (some (u i)) fun k => body.run O.store pass (u.push k)).on h =
      (.ok (.absorbed e), h ++ new))
    (hback : ∀ e', .control (u i) (.rollbackTo ⟨savepoints h⟩) (.error e') ∉ new) :
    (ledger (h ++ new)).pending (u i) = (ledger h).pending (u i) ∧
      ∀ later, ∃ committed,
        (ledger (h ++ new ++ later ++ [.control (u i) .commit (.ok ())])).durable =
          (ledger (h ++ new ++ later)).durable ++ committed ∧
        ∀ w ∈ committed,
          w ∈ (ledger h).pending (u i) ∨ (ledger (h ++ new)).statements ≤ w.number := by
  have hbody : IsGrowing u (body.run O.store pass (u.push (u i))) :=
    (O.isGrowing_run body (u.push (u i))).of_push
  have hundone : (ledger (h ++ new)).pending (u i) = (ledger h).pending (u i) := by
    rcases O.pending_of_join hu hbody hrun with hpending | ⟨e', hrejected⟩
    · exact hpending
    · exact absurd hrejected (hback e')
  refine ⟨hundone, fun later => ⟨(ledger (h ++ new ++ later)).pending (u i), ?_, ?_⟩⟩
  · exact congrArg Ledger.durable (ledger_append_singleton ..)
  · intro w hw
    rw [ledger_append] at hw
    rw [← hundone]
    exact Ledger.mem_pending_foldl later hw

/-- Accepts everything but some control statements. -/
def rejecting (rejects : Control → Bool) : Oracle :=
  { accepting [] with
    control := fun _ _ c => if rejects c then .error (Error.internal "rejected") else .ok () }

/-- Writes, and makes a call behind a savepoint that writes too. -/
def writesInside : Procedure Unit 2 :=
  .execute 0 [.raw "b"] fun _ =>
    .call .background .savepoint (some 1) (.execute 0 [.raw "c"] fun _ => .give ())
      fun _ => .give ()

/-- Every release is rejected, that of the call inside and that of the call itself. -/
theorem pending_of_absorbed_release :
    let O := rejecting fun c => c matches .release _
    let k := next []
    let h := opening .background [] ++ [.execute k [.raw "a"] (.ok 0)]
    let e := Error.internal "rejected"
    let inside : History :=
      [.bind k (some .background), .draw ⟨1⟩, .control k (.savepoint ⟨1⟩) (.ok ()),
        .execute k [.raw "c"] (.ok 0), .control k (.release ⟨1⟩) (.error e),
        .control k (.rollbackTo ⟨1⟩) (.ok ()), .control k (.release ⟨1⟩) (.error e),
        .bind k (some .background)]
    let new : History :=
      [.bind k (some .background), .draw ⟨0⟩, .control k (.savepoint ⟨0⟩) (.ok ()),
        .execute k [.raw "b"] (.ok 0)] ++ inside ++
      [.control k (.release ⟨0⟩) (.error e), .control k (.rollbackTo ⟨0⟩) (.ok ()),
        .control k (.release ⟨0⟩) (.error e), .bind k (some .background)]
    k.id ≤ connections h ∧
      (O.store.savepoint .background (some k) fun j =>
        writesInside.run O.store pass (Surrounding.push (fun _ : Fin 1 => k) j)).on h =
        (.ok (.absorbed e), h ++ new) ∧
      (∀ e', .control k (.rollbackTo ⟨savepoints h⟩) (.error e') ∉ new) ∧
      (ledger (h ++ new)).pending k = (ledger h).pending k := by
  refine ⟨Nat.le_refl 1, rfl, by simp, ?_⟩
  exact And.left (pending_of_absorbed (rejecting fun c => c matches .release _) .background 0
    writesInside (fun _ => next []) _ _ (Error.internal "rejected") (fun _ => Nat.le_refl 1) rfl
    (by simp))

/-- Where the rollback itself is rejected, the error of the closure is absorbed all the same. What
the closure wrote stays in effect, and the ambient transaction commits it. -/
theorem absorbed_in_effect :
    let O := rejecting fun c => c matches .rollbackTo _
    let h := opening .background []
    let sql : Sql := [.raw "INSERT INTO t DEFAULT VALUES"]
    let body : Procedure Unit 1 := .execute 0 sql fun _ => .fail (Error.badRequest "nested")
    let (ending, h') := (O.store.savepoint .background (some (next [])) fun k =>
      body.run O.store pass (Surrounding.none.push k)).on h
    ending = .ok (.absorbed (Error.badRequest "nested")) ∧
      (ledger h).pending (next []) = [] ∧
      (ledger h').pending (next []) = [⟨0, sql⟩] ∧
      (ledger (h' ++ [.control (next []) .commit (.ok ())])).durable = [⟨0, sql⟩] :=
  ⟨rfl, rfl, rfl, rfl⟩

end Oracle

end ResourceEngine
