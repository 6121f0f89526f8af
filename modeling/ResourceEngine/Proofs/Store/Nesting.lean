import ResourceEngine.Proofs.Store.Absorption

/-!
# Nested calls

The calls of a store that a tree of transactional calls makes, as a grammar: the calls of a closure
stand behind the savepoint or the beginning of its own call, and before what ends it. From the
grammar alone it follows where a savepoint is named, that each one is closed by the call that has
set it, and which savepoints are open afterwards.
-/

namespace ResourceEngine

open History

/-- The savepoint that a control statement names. -/
def Control.savepoint? : Control → Option Savepoint
  | .savepoint p | .release p | .rollbackTo p => some p
  | .begin | .commit | .rollback => none

namespace Exchange

/-- The savepoint that a statement names. -/
def savepoint? : Exchange → Option Savepoint
  | .control _ c _ => c.savepoint?
  | _ => none

/-- A statement of a closure, a bound context, or a pause. -/
def isPlain : Exchange → Bool
  | .query .. | .execute .. | .bind .. | .pause => true
  | .connect .. | .control .. | .draw _ => false

end Exchange

/-! ### The calls behind one savepoint -/

/-- The statements that take back a savepoint. It is released once more if it is rolled back to. -/
inductive TakenBack (k : Connection) (p : Savepoint) : History → Prop where
  | rejected (e : Error) : TakenBack k p [.control k (.rollbackTo p) (.error e)]
  | released (answer : Except Error Unit) :
    TakenBack k p [.control k (.rollbackTo p) (.ok ()), .control k (.release p) answer]

/-- The statements that close a savepoint, by the way that the closure has ended. -/
inductive Closing (k : Connection) (p : Savepoint) : Ending → History → Prop where
  | released : Closing k p .value [.control k (.release p) (.ok ())]
  | unreleased (e : Error) {tail : History} (htail : TakenBack k p tail) :
    Closing k p .value (.control k (.release p) (.error e) :: tail)
  | failed {ended : Ending} (hended : ended ≠ .value) {tail : History}
    (htail : TakenBack k p tail) : Closing k p ended tail

/-- A savepoint is drawn and set. -/
def setting (k : Connection) (h : History) : History :=
  [.draw ⟨savepoints h⟩, .control k (.savepoint ⟨savepoints h⟩) (.ok ())]

/-- Which closures run: on a connection after a history, ending in some way with some calls. -/
abbrev Closures := Connection → History → Ending → History → Prop

/-- All calls that are made for a savepoint after a history: only the one that sets it, if it is
rejected, and otherwise those of a closure, which do not name it, and those that close it. -/
inductive Bracket (runs : Closures) (k : Connection) (p : Savepoint) (h : History) :
    History → Prop where
  | rejected (e : Error) : Bracket runs k p h [.draw p, .control k (.savepoint p) (.error e)]
  | closed {inside tail : History} {ended : Ending}
    (hruns : runs k (h ++ [.draw p, .control k (.savepoint p) (.ok ())]) ended inside)
    (hinside : ∀ x ∈ inside, x.savepoint? ≠ some p) (htail : Closing k p ended tail) :
    Bracket runs k p h ([.draw p, .control k (.savepoint p) (.ok ())] ++ inside ++ tail)

/-! ### The grammar -/

/-- The calls after a history that a tree of transactional calls makes, given which closures run
behind its savepoints. -/
inductive Nested (runs : Closures) : History → History → Prop where
  | nil (h : History) : Nested runs h []
  | append {h a b : History} (ha : Nested runs h a) (hb : Nested runs (h ++ a) b) :
    Nested runs h (a ++ b)
  | plain (h : History) {x : Exchange} (hx : x.isPlain) : Nested runs h [x]
  /-- No connection is there for a transaction. -/
  | refused (h : History) (c : Context) (e : Error) : Nested runs h [.connect c (.error e)]
  /-- A transaction is not begun. -/
  | unbegun (h : History) (c : Context) (e : Error) :
    Nested runs h [.connect c (.ok (Oracle.next h)), .control (Oracle.next h) .begin (.error e)]
  | owned {h inside : History} (c : Context)
    (hinside : Nested runs (h ++ Oracle.opening c h) inside)
    {fin : Control} (hfin : fin = .commit ∨ fin = .rollback) (answer : Except Error Unit) :
    Nested runs h (Oracle.opening c h ++ inside ++ [.control (Oracle.next h) fin answer])
  /-- A savepoint is not set. -/
  | unset {h : History} (k : Connection) (e : Error) :
    Nested runs h [.draw ⟨savepoints h⟩, .control k (.savepoint ⟨savepoints h⟩) (.error e)]
  | behind {h inside tail : History} {k : Connection} {ended : Ending} (hk : k.id ≤ connections h)
    (hruns : runs k (h ++ setting k h) ended inside)
    (hinside : Nested runs (h ++ setting k h) inside)
    (htail : Closing k ⟨savepoints h⟩ ended tail) : Nested runs h (setting k h ++ inside ++ tail)

/-! ### Where savepoints are named -/

/-- The savepoints that the calls name are drawn from the first number on and before the second. -/
def NamesWithin (first last : Nat) (new : History) : Prop :=
  ∀ x ∈ new, ∀ p, x.savepoint? = some p → first ≤ p.number ∧ p.number < last

section

variable {i j i' j' : Nat} {a b : History} {x : Exchange} {p : Savepoint}

theorem NamesWithin.mono (ha : NamesWithin i j a) (hi : i' ≤ i) (hj : j ≤ j') :
    NamesWithin i' j' a := by
  intro x hx p hp
  obtain ⟨hle, hlt⟩ := ha x hx p hp
  exact ⟨Nat.le_trans hi hle, Nat.lt_of_lt_of_le hlt hj⟩

theorem NamesWithin.append (ha : NamesWithin i j a) (hb : NamesWithin i j b) :
    NamesWithin i j (a ++ b) :=
  fun x hx => (List.mem_append.1 hx).elim (ha x) (hb x)

theorem namesWithin_of_none (ha : ∀ x ∈ a, x.savepoint? = none) : NamesWithin i j a :=
  fun x hx _ hp => nomatch (ha x hx).symm.trans hp

/-- Savepoints from before the range are not named. -/
theorem NamesWithin.ne_of_lt (ha : NamesWithin i j a) (hp : p.number < i) :
    ∀ x ∈ a, x.savepoint? ≠ some p :=
  fun x hx heq => Nat.not_lt_of_le (ha x hx p heq).1 hp

/-- Savepoints from after the range are not named. -/
theorem NamesWithin.ne_of_le (ha : NamesWithin i j a) (hp : j ≤ p.number) :
    ∀ x ∈ a, x.savepoint? ≠ some p :=
  fun x hx heq => Nat.not_lt_of_le hp (ha x hx p heq).2

theorem Exchange.savepoint?_of_isPlain (hx : x.isPlain) : x.savepoint? = none := by
  cases x <;> first | rfl | exact nomatch hx

end

section

variable {k : Connection} {p : Savepoint} {h tail : History} {ended : Ending}

/-- The statements that take back a savepoint name no other. -/
theorem TakenBack.namesWithin (htail : TakenBack k p tail) :
    NamesWithin p.number (p.number + 1) tail := by
  cases htail <;> simp [NamesWithin, Exchange.savepoint?, Control.savepoint?]

/-- The statements that close a savepoint name no other. -/
theorem Closing.namesWithin (htail : Closing k p ended tail) :
    NamesWithin p.number (p.number + 1) tail := by
  cases htail with
  | released => simp [NamesWithin, Exchange.savepoint?, Control.savepoint?]
  | unreleased e htail =>
    refine NamesWithin.append (a := [_]) ?_ htail.namesWithin
    simp [NamesWithin, Exchange.savepoint?, Control.savepoint?]
  | failed _ htail => exact htail.namesWithin

/-- To set a savepoint is to name the next one. -/
theorem namesWithin_setting (k : Connection) (h : History) :
    NamesWithin (savepoints h) (savepoints h + 1) (setting k h) := by
  simp [NamesWithin, setting, Exchange.savepoint?, Control.savepoint?]

/-- The beginning of a transaction names no savepoint. -/
theorem savepoint?_opening (c : Context) (h : History) :
    ∀ x ∈ Oracle.opening c h, x.savepoint? = none := by
  simp [Oracle.opening, Exchange.savepoint?, Control.savepoint?]

/-- The end of a transaction names no savepoint. -/
theorem savepoint?_fin {fin : Control} (hfin : fin = .commit ∨ fin = .rollback)
    (answer : Except Error Unit) : ∀ x ∈ [Exchange.control k fin answer], x.savepoint? = none := by
  rcases hfin with rfl | rfl <;> simp [Exchange.savepoint?, Control.savepoint?]

@[simp] theorem savepoints_setting (k : Connection) (h : History) :
    savepoints (setting k h) = 1 := rfl

@[simp] theorem connections_setting (k : Connection) (h : History) :
    connections (setting k h) = 0 := rfl

@[simp] theorem savepoints_opening (c : Context) (h : History) :
    savepoints (Oracle.opening c h) = 0 := rfl

@[simp] theorem connections_opening (c : Context) (h : History) :
    connections (Oracle.opening c h) = 1 := rfl

@[simp] theorem savepoints_control (k : Connection) (c : Control) (answer : Except Error Unit) :
    savepoints [.control k c answer] = 0 := rfl

@[simp] theorem connections_control (k : Connection) (c : Control) (answer : Except Error Unit) :
    connections [.control k c answer] = 0 := rfl

/-- To take back a savepoint draws none and asks for no connection. -/
theorem TakenBack.quiet (htail : TakenBack k p tail) :
    savepoints tail = 0 ∧ connections tail = 0 := by
  cases htail <;> exact ⟨rfl, rfl⟩

/-- To close a savepoint draws none and asks for no connection. -/
theorem Closing.quiet (htail : Closing k p ended tail) :
    savepoints tail = 0 ∧ connections tail = 0 := by
  cases htail with
  | released => exact ⟨rfl, rfl⟩
  | unreleased e htail => exact htail.quiet
  | failed _ htail => exact htail.quiet

theorem Exchange.quiet_of_isPlain {x : Exchange} (hx : x.isPlain) :
    savepoints [x] = 0 ∧ connections [x] = 0 := by
  cases x <;> first | exact ⟨rfl, rfl⟩ | exact nomatch hx

end

namespace Nested

variable {runs runs' : Closures} {h new : History}

/-- Only what runs behind later savepoints matters of the closures. -/
theorem mono (hnew : Nested runs h new)
    (hruns : ∀ {k g ended inside}, savepoints h < savepoints g → runs k g ended inside →
      runs' k g ended inside) : Nested runs' h new := by
  induction hnew with
  | nil h => exact .nil h
  | append _ _ iha ihb =>
    refine .append (iha hruns) (ihb fun hlt => hruns ?_)
    -- What comes second has even more savepoints before it.
    rw [savepoints_append] at hlt
    omega
  | plain h hx => exact .plain h hx
  | refused h c e => exact .refused h c e
  | unbegun h c e => exact .unbegun h c e
  | owned c _ hfin answer ih =>
    refine .owned c (ih fun hlt => hruns ?_) hfin answer
    simpa using hlt
  | unset k e => exact .unset k e
  | behind hk hrun _ htail ih =>
    refine .behind hk (hruns (by simp) hrun) (ih fun hlt => hruns ?_) htail
    rw [savepoints_append] at hlt
    omega

/-- The savepoints that the calls name are those drawn in them. -/
theorem namesWithin (hnew : Nested runs h new) :
    NamesWithin (savepoints h) (savepoints (h ++ new)) new := by
  induction hnew with
  | nil h => exact namesWithin_of_none (List.forall_mem_nil _)
  | @append h a b _ _ iha ihb =>
    rw [List.append_assoc] at ihb
    refine (iha.mono (Nat.le_refl _) ?_).append (ihb.mono ?_ (Nat.le_refl _))
    · simp
    · simp
  | plain h hx =>
    exact namesWithin_of_none (by simpa using Exchange.savepoint?_of_isPlain hx)
  | refused | unbegun =>
    exact namesWithin_of_none (by simp [Exchange.savepoint?, Control.savepoint?])
  | @owned h inside c _ fin hfin answer ih =>
    refine ((namesWithin_of_none (savepoint?_opening c h)).append (ih.mono ?_ ?_)).append
      (namesWithin_of_none (savepoint?_fin hfin answer))
    · simp
    · simp
  | @unset h k e =>
    simp [NamesWithin, Exchange.savepoint?, Control.savepoint?, savepoints, Exchange.isDraw]
  | @behind h inside tail k ended hk hrun _ htail ih =>
    have hcount : savepoints (h ++ (setting k h ++ inside ++ tail)) =
        savepoints h + 1 + savepoints inside := by
      simp [htail.quiet.1, Nat.add_assoc]
    rw [hcount]
    refine (((namesWithin_setting k h).mono ?_ ?_).append (ih.mono ?_ ?_)).append
      (htail.namesWithin.mono ?_ ?_)
    all_goals simp <;> omega

end Nested

/-! ### Brackets -/

/-- Among the calls after a history are all those for a savepoint, one after the other: the calls
before and after them do not name it. -/
def Bracketed (runs : Closures) (p : Savepoint) (h new : History) : Prop :=
  ∃ k before call after, new = before ++ call ++ after ∧
    (∀ x ∈ before ++ after, x.savepoint? ≠ some p) ∧ Bracket runs k p (h ++ before) call

section

variable {runs : Closures} {p : Savepoint} {h a b new : History}

/-- Calls may stand before that do not name the savepoint. -/
theorem Bracketed.append_left (hb : Bracketed runs p (h ++ a) b)
    (ha : ∀ x ∈ a, x.savepoint? ≠ some p) : Bracketed runs p h (a ++ b) := by
  obtain ⟨k, before, call, after, rfl, houtside, hcall⟩ := hb
  refine ⟨k, a ++ before, call, after, by simp, ?_, by simpa using hcall⟩
  rw [List.append_assoc, List.forall_mem_append]
  exact ⟨ha, houtside⟩

/-- Calls may stand after that do not name the savepoint. -/
theorem Bracketed.append_right (ha : Bracketed runs p h a)
    (hb : ∀ x ∈ b, x.savepoint? ≠ some p) : Bracketed runs p h (a ++ b) := by
  obtain ⟨k, before, call, after, rfl, houtside, hcall⟩ := ha
  refine ⟨k, before, call, after ++ b, by simp, ?_, hcall⟩
  rw [← List.append_assoc, List.forall_mem_append]
  exact ⟨houtside, hb⟩

theorem Bracket.bracketed {k : Connection} (hcall : Bracket runs k p h new) :
    Bracketed runs p h new :=
  ⟨k, [], new, [], by simp, by simp, by simpa using hcall⟩

theorem ne_of_savepoint?_none (ha : ∀ x ∈ a, x.savepoint? = none) :
    ∀ x ∈ a, x.savepoint? ≠ some p :=
  fun x hx => by simp [ha x hx]

/-- Every savepoint that is drawn is set and closed by one call. -/
theorem Nested.bracketed (hnew : Nested runs h new) (hle : savepoints h ≤ p.number)
    (hlt : p.number < savepoints (h ++ new)) : Bracketed runs p h new := by
  have hself {h : History} (hle : savepoints h ≤ p.number) (hlt : p.number < savepoints h + 1) :
      p = ⟨savepoints h⟩ := by
    cases p
    exact congrArg Savepoint.mk (Nat.le_antisymm (Nat.le_of_lt_succ hlt) hle)
  -- Each part draws the savepoints of its own range of numbers, so the range says in which part the
  -- savepoint is, and the parts beside it do not name it.
  induction hnew with
  | nil h => simp at hlt; omega
  | @append h a b ha hb iha ihb =>
    rcases Nat.lt_or_ge p.number (savepoints (h ++ a)) with hpa | hpa
    · exact (iha hle hpa).append_right (hb.namesWithin.ne_of_lt hpa)
    · rw [← List.append_assoc] at hlt
      exact (ihb hpa hlt).append_left (ha.namesWithin.ne_of_le hpa)
  | plain h hx => simp [(Exchange.quiet_of_isPlain hx).1] at hlt; omega
  | refused h c e | unbegun h c e => simp [savepoints, Exchange.isDraw] at hlt hle; omega
  | @owned h inside c hinside fin hfin answer ih =>
    have hbracketed := ih (by simpa using hle) (by simpa using hlt)
    exact (hbracketed.append_left (ne_of_savepoint?_none (savepoint?_opening c h))).append_right
      (ne_of_savepoint?_none (savepoint?_fin hfin answer))
  | @unset h k e =>
    obtain rfl := hself hle (by rwa [savepoints_append] at hlt)
    exact (Bracket.rejected e).bracketed
  | @behind h inside tail k ended hk hruns hinside htail ih =>
    rcases Nat.lt_or_ge p.number (savepoints h + 1) with hp | hp
    · -- The savepoint is the one of this call.
      obtain rfl := hself hle hp
      exact (Bracket.closed hruns (hinside.namesWithin.ne_of_lt (by simp)) htail).bracketed
    · have hbracketed := ih (by simpa using hp) (by simpa [htail.quiet.1] using hlt)
      exact (hbracketed.append_left ((namesWithin_setting k h).ne_of_le hp)).append_right
        (htail.namesWithin.ne_of_le hp)

end

/-! ### Open savepoints -/

/-- No release of a savepoint and no rollback to one is rejected. -/
def Granted (new : History) : Prop :=
  ∀ k p e, .control k (.release p) (.error e) ∉ new ∧ .control k (.rollbackTo p) (.error e) ∉ new

/-- After the calls the same savepoints are open as before on every connection from before, and
none on those that have come since. -/
structure Level (h new : History) : Prop where
  kept : ∀ k, k.id ≤ connections h → (ledger (h ++ new)).marks k = (ledger h).marks k
  cleared : ∀ k, connections h < k.id → k.id ≤ connections (h ++ new) →
    (ledger (h ++ new)).marks k = []

section

variable {h a b new : History} {k : Connection}

theorem Granted.sublist (hb : Granted b) (hab : a.Sublist b) : Granted a :=
  fun k p e => ⟨fun hmem => (hb k p e).1 (hab.subset hmem),
    fun hmem => (hb k p e).2 (hab.subset hmem)⟩

theorem Level.append (ha : Level h a) (hb : Level (h ++ a) b) : Level h (a ++ b) := by
  refine ⟨fun k hk => ?_, fun k hk hle => ?_⟩ <;> rw [← List.append_assoc] at *
  · rw [hb.kept k (Nat.le_trans hk (connections_le_append h a)), ha.kept k hk]
  · rcases Nat.lt_or_ge (connections (h ++ a)) k.id with hlt | hge
    · exact hb.cleared k hlt hle
    · rw [hb.kept k hge, ha.cleared k hk hge]

/-- Calls that open no connection and change no marks. -/
theorem level_of_marks (hmarks : (ledger (h ++ new)).marks = (ledger h).marks)
    (hnew : connections new = 0) : Level h new := by
  refine ⟨fun k _ => congrFun hmarks k, fun k hk hle => ?_⟩
  rw [connections_append, hnew] at hle
  omega

/-- A plain call opens and closes no savepoint. -/
theorem Ledger.marks_of_isPlain {x : Exchange} (hx : x.isPlain) (l : Ledger) :
    (l.after x).marks = l.marks := by
  rcases x with _ | ⟨k, c, answer⟩ | ⟨k, sql, e | rows⟩ | ⟨k, sql, e | n⟩ | _ | _ | _ <;>
    first | rfl | exact nomatch hx

section Closing

variable {p : Savepoint} {n : Nat} {outer : List (Savepoint × Nat)} {ended : Ending}
  {tail : History} {l : Ledger}

/-- A savepoint that is taken back is closed, once the store grants it. -/
theorem TakenBack.marks (htail : TakenBack k p tail) (hgranted : Granted tail)
    (hmarks : l.marks k = (p, n) :: outer) :
    (tail.foldl Ledger.after l).marks = Function.update l.marks k outer := by
  cases htail with
  | rejected e => exact absurd (List.mem_singleton_self _) (hgranted k p e).2
  | released answer =>
    cases answer with
    | error e =>
      exact absurd (List.mem_cons_of_mem _ (List.mem_singleton_self _)) (hgranted k p e).1
    | ok u =>
      simp only [List.foldl_cons, List.foldl_nil, Ledger.after]
      rw [Ledger.control_rollbackTo hmarks, Ledger.control_release (Function.update_self ..)]
      exact Function.update_idem ..

/-- The statements that close the innermost savepoint of a connection leave the others open. -/
theorem Closing.marks (htail : Closing k p ended tail) (hgranted : Granted tail)
    (hmarks : l.marks k = (p, n) :: outer) :
    (tail.foldl Ledger.after l).marks = Function.update l.marks k outer := by
  cases htail with
  | released =>
    simp only [List.foldl_cons, List.foldl_nil, Ledger.after]
    rw [Ledger.control_release hmarks]
  | unreleased e htail => exact absurd (List.mem_cons_self ..) (hgranted k p e).1
  | failed _ htail => exact htail.marks hgranted hmarks

end Closing

/-- To set a savepoint is to mark the ledger. -/
theorem ledger_setting (k : Connection) (h : History) :
    ledger (h ++ setting k h) = (ledger h).mark k := by
  simp [ledger_append, setting, Ledger.after, Ledger.mark]

/-- To open a transaction is to add a connection to the ledger. -/
theorem ledger_opening (c : Context) (h : History) :
    ledger (h ++ Oracle.opening c h) = (ledger h).connect := by
  rw [ledger_append]
  rfl

/-- A new connection has no open savepoint, and one from before keeps its own. -/
theorem marks_connect (h : History) (k : Connection) :
    ((ledger h).connect).marks k =
      if k = Oracle.next h then [] else (ledger h).marks k := by
  rw [Ledger.connect, connections_ledger]
  exact Function.update_apply ..

/-- The end of a transaction leaves the savepoints as they are on a connection without any. -/
theorem marks_fin {fin : Control} (hfin : fin = .commit ∨ fin = .rollback)
    (answer : Except Error Unit) {l : Ledger} (hmarks : l.marks k = []) :
    (l.after (.control k fin answer)).marks = l.marks := by
  rcases answer with e | ⟨⟩
  · rfl
  · have hclear : Function.update l.marks k [] = l.marks := by
      rw [← hmarks, Function.update_eq_self]
    rcases hfin with rfl | rfl <;> exact hclear

/-- A connection is opened, and nothing is done on it but what leaves its marks empty. -/
theorem level_of_connect (hmarks : (ledger (h ++ new)).marks = ((ledger h).connect).marks)
    (hnew : connections new = 1) : Level h new := by
  refine ⟨fun k hk => ?_, fun k hk hle => ?_⟩ <;> rw [hmarks, marks_connect]
  · refine if_neg fun heq => ?_
    rw [heq] at hk
    exact Nat.not_succ_le_self _ hk
  · rw [connections_append, hnew] at hle
    refine if_pos ?_
    cases k
    exact congrArg Connection.mk (Nat.le_antisymm hle hk)

/-- Where every release and every rollback to a savepoint is granted, the calls leave the stacks of
open savepoints as they were. -/
theorem Nested.level {runs : Closures} (hnew : Nested runs h new) (hgranted : Granted new) :
    Level h new := by
  induction hnew with
  | nil h => exact level_of_marks (by simp) rfl
  | append _ _ iha ihb =>
    exact (iha (hgranted.sublist (List.sublist_append_left ..))).append
      (ihb (hgranted.sublist (List.sublist_append_right ..)))
  | plain h hx =>
    refine level_of_marks ?_ (Exchange.quiet_of_isPlain hx).2
    rw [ledger_append_singleton, Ledger.marks_of_isPlain hx]
  | refused h c e => exact level_of_connect (by rw [ledger_append]; rfl) rfl
  | unbegun h c e => exact level_of_connect (by rw [ledger_append]; rfl) rfl
  | @owned h inside c hinside fin hfin answer ih =>
    have hopened : Level h (Oracle.opening c h) :=
      level_of_connect (congrArg Ledger.marks (ledger_opening c h)) rfl
    have hinner := hopened.append (ih (hgranted.sublist (List.infix_append ..).sublist))
    have hmarks := hinner.cleared (Oracle.next h) (Nat.lt_succ_self _) (by simp [Oracle.next])
    refine hinner.append (level_of_marks ?_ rfl)
    rw [ledger_append_singleton, marks_fin hfin answer hmarks]
  | @unset h k e => exact level_of_marks (by rw [ledger_append]; rfl) rfl
  | @behind h inside tail k ended hk hruns hinside htail ih =>
    have hinner := ih (hgranted.sublist (List.infix_append ..).sublist)
    have hset (j : Connection) (hj : j.id ≤ connections h) :
        (ledger (h ++ setting k h ++ inside)).marks j = ((ledger h).mark k).marks j := by
      rw [hinner.kept j (by simpa using hj), ledger_setting]
    have hmarks : (ledger (h ++ (setting k h ++ inside ++ tail))).marks =
        Function.update (ledger (h ++ setting k h ++ inside)).marks k ((ledger h).marks k) := by
      rw [← List.append_assoc, ledger_append, ← List.append_assoc]
      refine htail.marks (hgranted.sublist (List.suffix_append ..).sublist)
        (n := ((ledger h).pending k).length) ?_
      rw [hset k hk]
      simp [Ledger.mark, Ledger.control]
    -- On its own connection the savepoint is closed again; on the others its closure has already
    -- left them level.
    refine ⟨fun j hj => ?_, fun j hj hle => ?_⟩ <;> rw [hmarks]
    · by_cases hjk : j = k
      · rw [hjk, Function.update_self]
      · rw [Function.update_of_ne hjk, hset j hj]
        simp [Ledger.mark, Ledger.control, hjk]
    · -- The connection has been opened by the closure.
      have hjk : j ≠ k := by
        rintro rfl
        omega
      rw [Function.update_of_ne hjk]
      exact hinner.cleared j (by simpa using hj) (by simpa [htail.quiet.2] using hle)

end

end ResourceEngine
