import ResourceEngine.Proofs.Store.Procedure

/-!
# Oracles

An oracle answers the calls of a store as it likes, and so may fail any of them at any point; it
also says what the moment is. What it knows is the history: the calls so far with the answers to
them. `Tidy` says of a part of a history that the transactions opened in it are finished in it, and
that those from before are left as they were.
-/

namespace ResourceEngine

/-- A call of a store, with the answer to it. -/
inductive Exchange where
  | connect (c : Context) (answer : Except Error Connection)
  | control (k : Connection) (c : Control) (answer : Except Error Unit)
  | query (k : Connection) (sql : Sql) (answer : Except Stop (List Row))
  | execute (k : Connection) (sql : Sql) (answer : Except Stop Nat)
  | bind (k : Connection) (c : Option Context)
  | draw (p : Savepoint)
  /-- Time passes. -/
  | pause

namespace Exchange

/-- A statement on the connection. -/
def isOn (k : Connection) : Exchange → Bool
  | .control j .. | .query j .. | .execute j .. => j == k
  | _ => false

/-- The statement on data that the call runs. -/
def statement? : Exchange → Option Sql
  | .query _ sql _ | .execute _ sql _ => some sql
  | _ => none

/-- A statement that begins or ends a transaction. -/
def isBoundary : Exchange → Bool
  | .control _ .begin _ | .control _ .commit _ | .control _ .rollback _ => true
  | _ => false

def isConnect : Exchange → Bool
  | .connect .. => true
  | _ => false

def isDraw : Exchange → Bool
  | .draw _ => true
  | _ => false

end Exchange

/-- The calls of a store so far, the first one first. -/
abbrev History := List Exchange

namespace History

/-- The number of connections asked for. -/
def connections (h : History) : Nat := h.countP Exchange.isConnect

/-- The number of savepoints drawn. -/
def savepoints (h : History) : Nat := h.countP Exchange.isDraw

/-- The statements on a connection. -/
def on (k : Connection) (h : History) : History := h.filter (Exchange.isOn k)

/-- The context that watches a connection after the history. -/
def watcher (k : Connection) (h : History) : Option Context :=
  h.foldl (fun c x =>
    match x with
    | .connect d (.ok j) => if j = k then some d else c
    | .bind j d => if j = k then d else c
    | _ => c) none

/-- Connections are counted along the history. -/
@[simp] theorem connections_append (h g : History) :
    connections (h ++ g) = connections h + connections g := List.countP_append

theorem connections_le_append (h g : History) : connections h ≤ connections (h ++ g) := by
  rw [connections_append]
  exact Nat.le_add_right ..

/-- The statements on a connection keep their order. -/
@[simp] theorem on_append (k : Connection) (h g : History) : on k (h ++ g) = on k h ++ on k g :=
  List.filter_append ..

@[simp] theorem on_nil (k : Connection) : on k [] = [] := rfl

@[simp] theorem on_connect (k : Connection) (c : Context) (answer : Except Error Connection)
    (h : History) : on k (.connect c answer :: h) = on k h := rfl

@[simp] theorem on_control_self (k : Connection) (c : Control) (answer : Except Error Unit)
    (h : History) : on k (.control k c answer :: h) = .control k c answer :: on k h := by
  simp [on, Exchange.isOn]

/-- A statement on another connection is left out. -/
theorem on_control_of_ne {j k : Connection} (hjk : j ≠ k) (c : Control)
    (answer : Except Error Unit) (h : History) : on k (.control j c answer :: h) = on k h := by
  simp [on, Exchange.isOn, hjk]

end History

/-- Between the histories these statements on data are run, in this order. -/
def Sent (h h' : History) (sqls : List Sql) : Prop :=
  ∃ new, h' = h ++ new ∧ new.filterMap Exchange.statement? = sqls

section Sent

variable {h h₁ h' : History} {sqls more : List Sql}

theorem Sent.refl (h : History) : Sent h h [] := ⟨[], (List.append_nil h).symm, rfl⟩

theorem sent_append (h : History) {new : History} (hnew : new.filterMap Exchange.statement? = sqls) :
    Sent h (h ++ new) sqls := ⟨new, rfl, hnew⟩

/-- What is run between the histories is run in their order. -/
theorem Sent.trans (hfirst : Sent h h₁ sqls) (hlast : Sent h₁ h' more) :
    Sent h h' (sqls ++ more) := by
  obtain ⟨a, rfl, rfl⟩ := hfirst
  obtain ⟨b, rfl, rfl⟩ := hlast
  exact ⟨a ++ b, List.append_assoc .., List.filterMap_append⟩

/-- A history only grows. -/
theorem Sent.isPrefix (h : Sent h₁ h' sqls) : h₁ <+: h' := by
  obtain ⟨new, rfl, -⟩ := h
  exact List.prefix_append ..

end Sent

/-- Answers to the calls of a store, and the moment, all after a history. -/
structure Oracle where
  dialect : Dialect
  moment : History → Moment
  /-- Why the next connection is refused. -/
  refusal : History → Context → Option Error
  control : History → Connection → Control → Except Error Unit
  query : History → Connection → Sql → Except Stop (List Row)
  execute : History → Connection → Sql → Except Stop Nat

namespace Oracle

/-- The next connection, unless it is refused. -/
def connect (O : Oracle) (h : History) (c : Context) : Except Error Connection :=
  match O.refusal h c with
  | some e => .error e
  | none => .ok ⟨History.connections h + 1⟩

/-- The store that an oracle answers for. -/
def store (O : Oracle) : Store History where
  dialect := O.dialect
  moment := O.moment
  connect c := modifyGet fun h => (O.connect h c, h ++ [.connect c (O.connect h c)])
  control k c := modifyGet fun h => (O.control h k c, h ++ [.control k c (O.control h k c)])
  query k sql := ExceptT.mk (modifyGet fun h =>
    (O.query h k sql, h ++ [.query k sql (O.query h k sql)]))
  execute k sql := ExceptT.mk (modifyGet fun h =>
    (O.execute h k sql, h ++ [.execute k sql (O.execute h k sql)]))
  bindContext k c := modifyGet fun h => (History.watcher k h, h ++ [.bind k c])
  freshSavepoint := modifyGet fun h =>
    (⟨History.savepoints h⟩, h ++ [.draw ⟨History.savepoints h⟩])

/-- Lets time pass. -/
def pass : StateM History Unit := modify (· ++ [.pause])

end Oracle

/-! ### Finished transactions -/

open History

/-- The statements on a connection of its own transaction: none, a rejected beginning, or an
accepted one, and in the end one commit or rollback. -/
inductive Finished (k : Connection) : History → Prop where
  | unused : Finished k []
  | rejected (e : Error) : Finished k [.control k .begin (.error e)]
  | ended (inside : History) (c : Control) (answer : Except Error Unit)
    (hinside : ∀ x ∈ inside, ¬x.isBoundary) (hc : c = .commit ∨ c = .rollback) :
    Finished k (.control k .begin (.ok ()) :: inside ++ [.control k c answer])

/-- The transactions around are on connections from the history. -/
def Within {n : Nat} (u : Surrounding n) (h : History) : Prop := ∀ i, (u i).id ≤ connections h

/-- After a history, work inside of transactions has these calls: on the connections from before it
runs statements only in those transactions, and begins and ends none; and each transaction on a new
connection is finished. -/
structure Tidy {n : Nat} (u : Surrounding n) (h new : History) : Prop where
  quiet : ∀ k, k.id ≤ connections h → (∀ i, u i ≠ k) → on k new = []
  inside : ∀ k, k.id ≤ connections h → ∀ x ∈ on k new, ¬x.isBoundary
  finished : ∀ k, connections h < k.id → Finished k (on k new)
  unborn : ∀ k, connections (h ++ new) < k.id → on k new = []

namespace Within

variable {n : Nat} {u : Surrounding n} {h : History} {k : Connection}

theorem append (hu : Within u h) (a : History) : Within u (h ++ a) := by
  intro i
  have hi := hu i
  have hle := connections_le_append h a
  omega

theorem push (hu : Within u h) (hk : k.id ≤ connections h) : Within (u.push k) h :=
  Fin.cases hk hu

theorem ne_of_lt (hu : Within u h) (hk : connections h < k.id) (i : Fin n) : u i ≠ k := by
  rintro rfl
  have hi := hu i
  omega

end Within

namespace Tidy

variable {n : Nat} {u : Surrounding n} {h a b : History}

/-- No calls are tidy. -/
theorem nil (u : Surrounding n) (h : History) : Tidy u h [] where
  quiet _ _ _ := rfl
  inside _ _ _ hx := absurd hx List.not_mem_nil
  finished _ _ := .unused
  unborn _ _ := rfl

/-- Tidy calls may follow on tidy calls. -/
theorem append (hu : Within u h) (ha : Tidy u h a) (hb : Tidy u (h ++ a) b) :
    Tidy u h (a ++ b) := by
  have hle := connections_le_append h a
  refine ⟨?_, ?_, ?_, ?_⟩
  · intro k hk hki
    rw [on_append, ha.quiet k hk hki, hb.quiet k (Nat.le_trans hk hle) hki]
    rfl
  · intro k hk x hx
    rw [on_append] at hx
    rcases List.mem_append.1 hx with hx | hx
    · exact ha.inside k hk x hx
    · exact hb.inside k (Nat.le_trans hk hle) x hx
  · intro k hk
    rw [on_append]
    -- A new connection has its statements either in the first part or in the second one.
    rcases Nat.lt_or_ge (connections (h ++ a)) k.id with hlt | hge
    · rw [ha.unborn k hlt, List.nil_append]
      exact hb.finished k hlt
    · rw [hb.quiet k hge (hu.ne_of_lt hk), List.append_nil]
      exact ha.finished k hk
  · intro k hk
    rw [← List.append_assoc] at hk
    have hlt : connections (h ++ a) < k.id := by
      have hle := connections_le_append (h ++ a) b
      omega
    rw [on_append, ha.unborn k hlt, hb.unborn k hk]
    rfl

/-- A single call that begins and ends no transaction, in one of the transactions if it is a
statement. -/
theorem single {x : Exchange} (hu : Within u h) (hon : ∀ k, x.isOn k → ∃ i, u i = k)
    (hx : x.isBoundary = false) : Tidy u h [x] := by
  have hoff {k : Connection} (hk : ∀ i, u i ≠ k) : on k [x] = [] := by
    refine List.filter_eq_nil_iff.2 fun y hy hyk => ?_
    obtain rfl := List.mem_singleton.1 hy
    obtain ⟨i, hi⟩ := hon k hyk
    exact hk i hi
  have hnew {k : Connection} (hk : connections h < k.id) : on k [x] = [] := hoff (hu.ne_of_lt hk)
  refine ⟨fun k _ hk => hoff hk, ?_, ?_, ?_⟩
  · intro k _ y hy
    obtain rfl := List.mem_singleton.1 (List.mem_filter.1 hy).1
    simp [hx]
  · intro k hk
    rw [hnew hk]
    exact .unused
  · intro k hk
    apply hnew
    have hle := connections_le_append h [x]
    omega

/-- A statement in one of the transactions is tidy unless it begins or ends one. -/
theorem statement {x : Exchange} (hu : Within u h) (i : Fin n) (hon : ∀ k, x.isOn k → u i = k)
    (hx : x.isBoundary = false) : Tidy u h [x] :=
  single hu (fun k hk => ⟨i, hon k hk⟩) hx

/-- A call that is no statement on any connection is tidy. -/
theorem aside {x : Exchange} (hu : Within u h) (hon : ∀ k, x.isOn k = false)
    (hx : x.isBoundary = false) : Tidy u h [x] :=
  single hu (fun k hk => absurd ((hon k).symm.trans hk) Bool.false_ne_true) hx

/-- Of the history before only the number of connections matters. -/
theorem congr (hc : connections h = connections b) (ha : Tidy u h a) : Tidy u b a := by
  refine ⟨?_, ?_, ?_, ?_⟩
  · rw [← hc]
    exact ha.quiet
  · rw [← hc]
    exact ha.inside
  · rw [← hc]
    exact ha.finished
  · rw [connections_append, ← hc, ← connections_append]
    exact ha.unborn

/-- Work in a transaction that is around already is work in the transactions around. -/
theorem of_push {i : Fin n} (ha : Tidy (u.push (u i)) h a) : Tidy u h a where
  quiet k hk hne := ha.quiet k hk (Fin.cases (hne i) hne)
  inside := ha.inside
  finished := ha.finished
  unborn := ha.unborn

/-- The calls in a new transaction, which is finished at the end of them. -/
theorem opened {k : Connection} (hk : k.id = connections h + 1) (c : Context) {new : History}
    (hcount : connections new = connections a)
    (hne : ∀ j, j ≠ k → on j new = on j a) (hfinished : Finished k (on k new))
    (ha : Tidy (u.push k) (h ++ [.connect c (.ok k)]) a) :
    Tidy u h (.connect c (.ok k) :: new) := by
  have hnew {j : Connection} (hj : j.id ≠ connections h + 1) : j ≠ k := by
    rintro rfl
    exact hj hk
  have hold {j : Connection} (hj : j.id ≤ connections h) : j ≠ k := by
    apply hnew
    omega
  have hle {j : Connection} (hj : j.id ≤ connections h) :
      j.id ≤ connections (h ++ [.connect c (.ok k)]) :=
    Nat.le_trans hj (connections_le_append ..)
  have hone : connections (h ++ [.connect c (.ok k)]) = connections h + 1 := connections_append ..
  refine ⟨?_, ?_, ?_, ?_⟩
  · intro j hj hju
    rw [on_connect, hne j (hold hj)]
    exact ha.quiet j (hle hj) (Fin.cases (hold hj).symm hju)
  · intro j hj x hx
    rw [on_connect, hne j (hold hj)] at hx
    exact ha.inside j (hle hj) x hx
  · intro j hj
    rw [on_connect]
    by_cases hjk : j = k
    · subst hjk
      exact hfinished
    · -- The other new connections are opened inside of the transaction.
      rw [hne j hjk]
      refine ha.finished j ?_
      rw [hone]
      have hid : j.id ≠ k.id := fun hid => hjk (by cases j; cases k; cases hid; rfl)
      omega
  · intro j hj
    have hcons : h ++ .connect c (.ok k) :: new = h ++ [.connect c (.ok k)] ++ new := by simp
    rw [hcons, connections_append, hone] at hj
    rw [on_connect, hne j (hnew (by omega))]
    exact ha.unborn j (by rw [connections_append, hone]; omega)

end Tidy

end ResourceEngine
