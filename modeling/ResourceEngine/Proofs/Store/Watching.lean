import ResourceEngine.Proofs.Store.Outcomes

/-!
# Which context watches a connection

A call that joins a transaction has its context watch the connection meanwhile and gives back what
watched it before; one that opens a transaction has its context watch the new connection.
-/

namespace ResourceEngine

open History

/-- A call that has been made: the connection that it has joined or opened, and the histories in
which it started and came back. -/
structure Call where
  context : Context
  connection : Option Connection
  start : History
  finish : History

namespace Call

/-- After the history the call is being made, on the connection. -/
structure InProgress (a : Call) (k : Connection) (g : History) : Prop where
  held : a.connection = some k
  started : a.start <+: g
  unfinished : ∃ x rest, a.finish = g ++ x :: rest

/-- Of the calls that are being made on the connection, this one is inside of all others. -/
structure Innermost (a : Call) (calls : List Call) (k : Connection) (g : History) : Prop where
  mem : a ∈ calls
  inProgress : a.InProgress k g
  inside : ∀ b ∈ calls, b.InProgress k g → b.start <+: a.start ∧ a.finish <+: b.finish

end Call

/-! ### The calls of a procedure -/

namespace Oracle

variable {α : Type} (O : Oracle)

/-- The connection that a call joins or opens. -/
def held (c : Context) (mode : Propagation) (ambient : Option Connection) (h : History) :
    Option Connection :=
  match mode.scope ambient with
  | .refused => none
  | .joined k => if c.isDone (O.moment h) then none else some k
  | .owned => if c.isDone (O.moment h) then none else (O.connect h c).toOption

/-- The connection and the history with which the work of a call starts, if it does. -/
def entered (c : Context) (mode : Propagation) (ambient : Option Connection) (h : History) :
    Option (Connection × History) :=
  match mode.scope ambient with
  | .refused => none
  | .joined k => if c.isDone (O.moment h) then none else some (k, h ++ [.bind k (some c)])
  | .owned =>
    match (O.store.begin c).on h with
    | (.ok k, g) => some (k, g)
    | (.error _, _) => none

/-- The history with which a closure starts on a connection: behind the savepoint, if there is to be
one. -/
def behind (mode : Propagation) (k : Connection) (h : History) : Option History :=
  match mode with
  | .savepoint =>
    match O.answerToSet k h with
    | .ok () => some (h ++ setting k h)
    | .error _ => none
  | _ => some h

end Oracle

/-- The calls that are made in the run of a procedure, each one before those of its closure. -/
def Procedure.calls {α : Type} (O : Oracle) :
    {n : Nat} → Procedure α n → Surrounding n → History → List Call
  | _, .give _, _, _ | _, .fail _, _, _ | _, .panic _, _, _ => []
  | _, .execute i sql next, u, h =>
    let (answer, h') := (O.store.execute (u i) sql).on h
    (next answer).calls O u h'
  | _, .query i sql next, u, h =>
    let (answer, h') := (O.store.query (u i) sql).on h
    (next answer).calls O u h'
  | _, .wait next, u, h =>
    let h' := (Oracle.pass.run h).2
    (next (O.moment h')).calls O u h'
  | _, .call c mode ambient body next, u, h =>
    let (answer, h') := (O.store.propagate c (ambient.map u) mode fun k =>
      body.run O.store Oracle.pass (u.push k)).on h
    ⟨c, O.held c mode (ambient.map u) h, h, h'⟩ ::
      ((O.entered c mode (ambient.map u) h).elim [] fun (k, g) =>
        (O.behind mode k g).elim [] (body.calls O (u.push k))) ++
      (next answer).calls O u h'

namespace History

variable {j k : Connection} {h : History}

theorem watcher_bind (k : Connection) (c : Option Context) (h : History) :
    watcher k (h ++ [.bind k c]) = c := by
  simp [watcher]

theorem watcher_connect (k : Connection) (c : Context) (h : History) :
    watcher k (h ++ [.connect c (.ok k)]) = some c := by
  simp [watcher]

/-- What watches a connection only changes where it is opened or a context is bound to it. -/
theorem watcher_append_of_ne {x : Exchange} (hconnect : ∀ c, x ≠ .connect c (.ok k))
    (hbind : ∀ c, x ≠ .bind k c) (h : History) : watcher k (h ++ [x]) = watcher k h := by
  rw [watcher, List.foldl_append, ← watcher]
  rcases x with ⟨c, e | j⟩ | _ | _ | _ | ⟨j, c⟩ | _ | _
  · rfl
  · exact if_neg fun hj : j = k => hconnect c (hj ▸ rfl)
  · rfl
  · rfl
  · rfl
  · exact if_neg fun hj : j = k => hbind c (hj ▸ rfl)
  · rfl
  · rfl

end History

/-! ### Watched work -/

/-- A call leaves the connections from before it watched as they were, and those opened in it
finished. If its context is done, it does nothing. -/
structure Call.Restores (O : Oracle) (a : Call) (new : History) : Prop where
  finish : a.finish = a.start ++ new
  kept : ∀ k, k.id ≤ connections a.start → watcher k a.finish = watcher k a.start
  finished : ∀ k, connections a.start < k.id → Finished k (on k new)
  idle : a.context.isDone (O.moment a.start) → new = []

/-- Who has a context watch a statement that is run on a connection after a history: the innermost
call, or else the surroundings. -/
inductive Attributed {n : Nat} (u : Surrounding n) (h : History) (calls : List Call)
    (k : Connection) (g : History) : Prop where
  | inside {a : Call} (ha : a.Innermost calls k g) (hwatch : watcher k g = some a.context)
  | around (hnone : ∀ a ∈ calls, ¬a.InProgress k g) (i : Fin n) (hi : u i = k)
    (hwatch : watcher k g = watcher k h)

/-- After a history, work inside of transactions has these exchanges and makes these calls. -/
structure Watched (O : Oracle) {n : Nat} (u : Surrounding n) (h new : History)
    (calls : List Call) : Prop where
  kept : ∀ k, k.id ≤ connections h → watcher k (h ++ new) = watcher k h
  within : ∀ a ∈ calls, h <+: a.start ∧ a.finish <+: h ++ new
  restores : ∀ a ∈ calls, ∃ own, a.Restores O own
  attributed : ∀ before x after k, new = before ++ x :: after → x.isOn k →
    Attributed u h calls k (h ++ before)

namespace Call.InProgress

variable {a : Call} {k : Connection} {g : History}

theorem start_le (ha : a.InProgress k g) : a.start.length ≤ g.length := ha.started.length_le

theorem lt_finish (ha : a.InProgress k g) : g.length < a.finish.length := by
  obtain ⟨x, rest, hfinish⟩ := ha.unfinished
  simp [hfinish]

end Call.InProgress

/-- More calls may be in the list if none of them is in progress. -/
theorem Attributed.mono {n : Nat} {u : Surrounding n} {h g : History} {calls calls' : List Call}
    {k : Connection} (hg : Attributed u h calls k g) (hsub : ∀ a ∈ calls, a ∈ calls')
    (hnew : ∀ a ∈ calls', a.InProgress k g → a ∈ calls) : Attributed u h calls' k g := by
  cases hg with
  | inside ha hwatch =>
    exact .inside ⟨hsub _ ha.mem, ha.inProgress, fun b hb hk => ha.inside b (hnew b hb hk) hk⟩ hwatch
  | around hnone i hi hwatch => exact .around (fun a ha hk => hnone a (hnew a ha hk) hk) i hi hwatch

/-- An element of two lists put together is in one of them. -/
theorem append_eq_append_cons {β : Type} {a b before after : List β} {x : β}
    (h : a ++ b = before ++ x :: after) :
    (∃ after', a = before ++ x :: after') ∨
      ∃ before', before = a ++ before' ∧ b = before' ++ x :: after := by
  rcases List.append_eq_append_iff.1 h with ⟨before', hbefore, hb⟩ | ⟨after', ha, hafter⟩
  · exact .inr ⟨before', hbefore, hb⟩
  rcases List.cons_eq_append_iff.1 hafter with ⟨rfl, hb⟩ | ⟨after'', rfl, -⟩
  · exact .inr ⟨[], by simpa using ha.symm, hb⟩
  · exact .inl ⟨after'', ha⟩

/-- A statement between exchanges that are none. -/
theorem exists_between {e x : Exchange} {inside tail before after : History} {k : Connection}
    (he : ∀ j, e.isOn j = false) (htail : ∀ y ∈ tail, ∀ j, y.isOn j = false) (hx : x.isOn k)
    (hnew : [e] ++ inside ++ tail = before ++ x :: after) :
    ∃ before' after', before = [e] ++ before' ∧ inside = before' ++ x :: after' := by
  rcases append_eq_append_cons hnew with ⟨after', hafter⟩ | ⟨before', -, rfl⟩
  · rcases append_eq_append_cons hafter with ⟨after'', hone⟩ | ⟨before', hbefore, hinside⟩
    · obtain rfl : x = e := List.mem_singleton.1 (hone ▸ by simp)
      simp [he] at hx
    · exact ⟨before', after', hbefore, hinside⟩
  · simp [htail x (by simp)] at hx

/-- The statements of a call are watched by the calls inside of it, and else by its own context. The
other connections are watched as they are without the call. -/
theorem Attributed.of_push {n : Nat} {u : Surrounding n} {h g : History} {e : Exchange} {a : Call}
    {calls : List Call} {j k : Connection} (hg : Attributed (u.push k) (h ++ [e]) calls j g)
    (hk : a.InProgress k g)
    (hwithin : ∀ b ∈ calls, a.start <+: b.start ∧ b.finish <+: a.finish)
    (hself : watcher k (h ++ [e]) = some a.context)
    (hother : ∀ i, i ≠ k → watcher i (h ++ [e]) = watcher i h) :
    Attributed u h (a :: calls) j g := by
  cases hg with
  | inside hb hwatch =>
    refine .inside ⟨List.mem_cons_of_mem _ hb.mem, hb.inProgress, ?_⟩ hwatch
    exact List.forall_mem_cons.2 ⟨fun _ => hwithin _ hb.mem, hb.inside⟩
  | around hnone i hi hwatch =>
    by_cases hj : j = k
    · subst hj
      refine .inside ⟨List.mem_cons_self, hk, ?_⟩ (hwatch.trans hself)
      exact List.forall_mem_cons.2 ⟨fun _ => ⟨List.prefix_rfl, List.prefix_rfl⟩,
        fun b hb hbk => absurd hbk (hnone b hb)⟩
    · obtain ⟨i, rfl⟩ : ∃ i', u i' = j :=
        Fin.cases (fun hi => absurd hi.symm hj) (fun i hi => ⟨i, hi⟩) i hi
      refine .around ?_ i rfl (hwatch.trans (hother _ hj))
      refine List.forall_mem_cons.2 ⟨fun hcall => hj ?_, hnone⟩
      exact Option.some.inj (hcall.held.symm.trans hk.held)

namespace Watched

variable {O : Oracle} {n : Nat} {u : Surrounding n} {h a b : History} {k : Connection}
  {c : Context} {calls calls' : List Call}

theorem nil (u : Surrounding n) (h : History) : Watched O u h [] [] where
  kept k _ := by rw [List.append_nil]
  within _ ha := nomatch ha
  restores _ ha := nomatch ha
  attributed before x after k hnew := by simp at hnew

/-- What is watched in one part of a run and in the next is watched in both together. -/
theorem append (hu : Within u h) (ha : Watched O u h a calls)
    (hb : Watched O u (h ++ a) b calls') : Watched O u h (a ++ b) (calls ++ calls') := by
  refine ⟨?_, ?_, ?_, ?_⟩
  · intro k hk
    rw [← List.append_assoc, hb.kept k (Nat.le_trans hk (connections_le_append h a)), ha.kept k hk]
  · intro call hcall
    rw [← List.append_assoc]
    rcases List.mem_append.1 hcall with hcall | hcall
    · obtain ⟨hstart, hfinish⟩ := ha.within call hcall
      exact ⟨hstart, hfinish.trans (List.prefix_append ..)⟩
    · obtain ⟨hstart, hfinish⟩ := hb.within call hcall
      exact ⟨(List.prefix_append ..).trans hstart, hfinish⟩
  · intro call hcall
    rcases List.mem_append.1 hcall with hcall | hcall
    · exact ha.restores call hcall
    · exact hb.restores call hcall
  · intro before x after k hnew hx
    rcases append_eq_append_cons hnew with ⟨after', rfl⟩ | ⟨before', rfl, hb'⟩
    · -- The calls of the second part have not started yet.
      refine (ha.attributed before x after' k rfl hx).mono (fun _ => List.mem_append_left _) ?_
      intro call hcall hk
      refine (List.mem_append.1 hcall).resolve_right fun hcall => ?_
      have hstart := (hb.within call hcall).1.length_le
      have hle := hk.start_le
      simp only [List.length_append, List.length_cons] at hstart hle
      omega
    · -- Those of the first part have come back.
      rw [← List.append_assoc]
      have hsecond : Attributed u h calls' k (h ++ a ++ before') := by
        cases hb.attributed before' x after k hb' hx with
        | inside hcall hwatch => exact .inside hcall hwatch
        | around hnone i hi hwatch =>
          exact .around hnone i hi (hwatch.trans (ha.kept k (hi ▸ hu i)))
      refine hsecond.mono (fun _ => List.mem_append_right _) ?_
      intro call hcall hk
      refine (List.mem_append.1 hcall).resolve_left fun hcall => ?_
      have hfinish := (ha.within call hcall).2.length_le
      have hlt := hk.lt_finish
      simp only [List.length_append] at hfinish hlt
      omega

/-- A single exchange that binds no context, on one of the transactions around if it is a
statement. -/
theorem single {x : Exchange} (hx : ∀ k, x.isOn k → ∃ i, u i = k)
    (hwatch : ∀ k, k.id ≤ connections h → watcher k (h ++ [x]) = watcher k h) :
    Watched O u h [x] [] where
  kept := hwatch
  within _ ha := nomatch ha
  restores _ ha := nomatch ha
  attributed before y after k hnew hy := by
    obtain ⟨rfl, rfl, -⟩ : before = [] ∧ y = x ∧ after = [] := by
      simpa [List.singleton_eq_append_iff] using hnew
    obtain ⟨i, hi⟩ := hx k hy
    rw [List.append_nil]
    exact .around (fun _ ha => nomatch ha) i hi rfl

section Calls

variable {new : History}

/-- A call that gets no connection. -/
theorem unheld (hsilent : ∀ x ∈ new, ∀ k, x.isOn k = false)
    (hcall : Call.Restores O ⟨c, none, h, h ++ new⟩ new) :
    Watched O u h new [⟨c, none, h, h ++ new⟩] where
  kept := hcall.kept
  within a ha := by
    obtain rfl := List.mem_singleton.1 ha
    exact ⟨List.prefix_rfl, List.prefix_rfl⟩
  restores a ha := by
    obtain rfl := List.mem_singleton.1 ha
    exact ⟨new, hcall⟩
  attributed before x after k hnew hx := by
    have hoff := hsilent x (by simp [hnew]) k
    simp [hx] at hoff

/-- A call that gets hold of a connection with one exchange, and has its context watch it from then
on. -/
theorem hold {e : Exchange} {inside : History} (tail : History)
    (hcall : Call.Restores O ⟨c, some k, h, h ++ ([e] ++ inside ++ tail)⟩ ([e] ++ inside ++ tail))
    (hinside : Watched O (u.push k) (h ++ [e]) inside calls)
    (hself : watcher k (h ++ [e]) = some c)
    (hother : ∀ j, j ≠ k → watcher j (h ++ [e]) = watcher j h)
    (he : ∀ j, e.isOn j = false) (htail : ∀ x ∈ tail, ∀ j, x.isOn j = false) :
    Watched O u h ([e] ++ inside ++ tail)
      (⟨c, some k, h, h ++ ([e] ++ inside ++ tail)⟩ :: calls) := by
  have hwithin : ∀ a ∈ calls, h <+: a.start ∧ a.finish <+: h ++ ([e] ++ inside ++ tail) := by
    intro a ha
    obtain ⟨hstart, hfinish⟩ := hinside.within a ha
    refine ⟨(List.prefix_append ..).trans hstart, hfinish.trans ⟨tail, by simp⟩⟩
  refine ⟨hcall.kept, ?_, ?_, ?_⟩
  · exact List.forall_mem_cons.2 ⟨⟨List.prefix_rfl, List.prefix_rfl⟩, hwithin⟩
  · exact List.forall_mem_cons.2 ⟨⟨_, hcall⟩, hinside.restores⟩
  · intro before x after j hnew hx
    -- Only the exchanges inside are statements.
    obtain ⟨before, after', rfl, hposition⟩ := exists_between he htail hx hnew
    have hpart := hinside.attributed before x after' j hposition hx
    rw [List.append_assoc] at hpart
    refine hpart.of_push ⟨rfl, List.prefix_append .., x, after, ?_⟩ hwithin hself hother
    rw [hnew]
    simp

end Calls

end Watched

/-- After any history that has the connections around, the work makes these calls. -/
def IsWatched (O : Oracle) {n : Nat} {α : Type} (u : Surrounding n) (w : Work History α)
    (calls : History → List Call) : Prop :=
  ∀ h, Within u h → ∃ new, (w.on h).2 = h ++ new ∧ Watched O u h new (calls h)

section

variable {O : Oracle} {n : Nat} {α β : Type} {u : Surrounding n} {h : History}

theorem isWatched_resume (ending : Except Stop α) :
    IsWatched O u (Work.resume ending) fun _ => [] :=
  fun h _ => ⟨[], (List.append_nil h).symm, .nil u h⟩

/-- The calls of work that goes on, whatever the ending of its first part, are those of its parts in
order. -/
theorem isWatched_bind {w : Work History α} {g : Except Stop α → Work History β}
    {calls : History → List Call} {calls' : Except Stop α → History → List Call}
    (hw : IsWatched O u w calls) (hg : ∀ ending, IsWatched O u (g ending) (calls' ending)) :
    IsWatched O u (w.attempt >>= g) fun h => calls h ++ calls' (w.on h).1 (w.on h).2 := by
  intro h hu
  obtain ⟨a, hrun, ha⟩ := hw h hu
  obtain ⟨b, hrest, hb⟩ := hg (w.on h).1 (h ++ a) (hu.append a)
  refine ⟨a ++ b, ?_, ?_⟩
  · rw [Work.on_bind, Work.on_attempt]
    simp only [hrun, hrest, List.append_assoc]
  · simp only [hrun]
    exact ha.append hu hb

/-- Control statements on a transaction around are watched by what is around. -/
theorem Watched.controls {new : History} (hu : Within u h) (i : Fin n)
    (hnew : ∀ x ∈ new, ∃ c answer, x = .control (u i) c answer) : Watched O u h new [] := by
  induction new generalizing h with
  | nil => exact .nil u h
  | cons x new ih =>
    rw [List.forall_mem_cons] at hnew
    obtain ⟨⟨c, answer, rfl⟩, hnew⟩ := hnew
    have hfirst : Watched O u h [.control (u i) c answer] [] :=
      .single (fun k hk => ⟨i, eq_of_beq hk⟩) fun k _ => by simp [watcher]
    exact hfirst.append hu (ih (hu.append _) hnew)

end

namespace Oracle

variable {n : Nat} {α : Type} {u : Surrounding n} (O : Oracle)

/-- To roll back to a savepoint is to send control statements only. -/
theorem controls_rollbackTo (k : Connection) (p : Savepoint) (h : History) :
    ∃ tail, ((O.store.rollbackTo k p).run h).2 = h ++ tail ∧
      ∀ x ∈ tail, ∃ c answer, x = .control k c answer := by
  obtain ⟨tail, hback, htail⟩ := O.takenBack_rollbackTo k p h
  refine ⟨tail, hback, ?_⟩
  cases htail <;> simp

/-- After a closure behind a savepoint there are control statements only. -/
theorem controls_savepointOn {k : Connection} {f : Connection → Work History α} {h : History}
    (hset : O.answerToSet k h = .ok ()) :
    ∃ tail, ((O.store.savepointOn k f).on h).2 = ((f k).on (h ++ setting k h)).2 ++ tail ∧
      ∀ x ∈ tail, ∃ c answer, x = .control k c answer := by
  rw [O.savepointOn_of_set hset]
  rcases (f k).on (h ++ setting k h) with ⟨stop | a, g⟩ <;> simp only
  · exact O.controls_rollbackTo k _ g
  · rcases O.control g k (.release ⟨savepoints h⟩) with e | ⟨⟩ <;> simp only
    · obtain ⟨tail, hback, htail⟩ := O.controls_rollbackTo k ⟨savepoints h⟩
        (g ++ [.control k (.release ⟨savepoints h⟩) (.error e)])
      refine ⟨.control k (.release ⟨savepoints h⟩) (.error e) :: tail, ?_,
        List.forall_mem_cons.2 ⟨⟨_, _, rfl⟩, htail⟩⟩
      rw [hback]
      simp
    · exact ⟨_, rfl, by simp⟩

/-- A savepoint around the work makes no call of its own; where it is not set the work makes none
either. -/
theorem isWatched_guarded (mode : Propagation) (i : Fin n) {f : Connection → Work History α}
    {calls : History → List Call} (hf : IsWatched O u (f (u i)) calls) :
    IsWatched O u (O.store.guarded mode f (u i)) fun h =>
      (O.behind mode (u i) h).elim [] calls := by
  intro h hu
  by_cases hmode : mode = .savepoint
  · subst hmode
    have hdraw : Watched O u h [.draw ⟨savepoints h⟩] [] :=
      .single (fun _ hk => nomatch hk) fun _ _ => by simp [watcher]
    have hset (answer : Except Error Unit) :
        Watched O u h [.draw ⟨savepoints h⟩, .control (u i) (.savepoint ⟨savepoints h⟩) answer] [] :=
      hdraw.append hu (.controls (hu.append _) i (by simp))
    rcases hanswer : O.answerToSet (u i) h with e | ⟨⟩ <;> simp only [behind, hanswer]
    · exact ⟨_, O.savepointOn_of_unset hanswer, hset _⟩
    · obtain ⟨inside, hrun, hinside⟩ := hf (h ++ setting (u i) h) (hu.append _)
      obtain ⟨tail, hcall, htail⟩ := O.controls_savepointOn (f := f) hanswer
      refine ⟨setting (u i) h ++ inside ++ tail, ?_, ?_⟩
      · show ((O.store.savepointOn (u i) f).on h).2 = _
        rw [hcall, hrun]
        simp
      · have hbehind : Watched O u h (setting (u i) h ++ inside) (calls (h ++ setting (u i) h)) :=
          (hset _).append hu hinside
        have hend : Watched O u (h ++ (setting (u i) h ++ inside)) tail [] :=
          .controls (hu.append _) i htail
        simpa only [List.append_nil, Option.elim] using hbehind.append hu hend
  · obtain ⟨new, hrun, hnew⟩ := hf h hu
    refine ⟨new, ?_, ?_⟩
    · rw [Store.guarded_of_ne _ hmode, Work.on_map]
      exact hrun
    · cases mode <;> first | exact hnew | exact absurd rfl hmode

section

variable {c : Context} {h : History} {k : Connection}

theorem restores_of_tidy {connection : Option Connection} {new : History}
    (hkept : ∀ k, k.id ≤ connections h → watcher k (h ++ new) = watcher k h) (htidy : Tidy u h new)
    (hidle : c.isDone (O.moment h) → new = []) :
    Call.Restores O ⟨c, connection, h, h ++ new⟩ new :=
  ⟨rfl, hkept, htidy.finished, hidle⟩

/-- A call that does nothing. -/
theorem watched_idle {new : History} (hnil : h = h ++ new) (htidy : Tidy u h new) :
    Watched O u h new [⟨c, none, h, h ++ new⟩] := by
  obtain rfl : new = [] := by simpa using hnil
  exact .unheld (List.forall_mem_nil _) (O.restores_of_tidy (by simp) htidy fun _ => rfl)

/-- A call that joins lends its context to the connection, and gives the watch back that it has
found. -/
theorem watched_joined {calls : List Call} {inside : History} {i : Fin n}
    (hlive : c.isDone (O.moment h) = false)
    (hinside : Watched O (u.push (u i)) (h ++ [.bind (u i) (some c)]) inside calls)
    (htidy : Tidy u h ([.bind (u i) (some c)] ++ inside ++ [.bind (u i) (watcher (u i) h)])) :
    Watched O u h ([.bind (u i) (some c)] ++ inside ++ [.bind (u i) (watcher (u i) h)])
      (⟨c, some (u i), h,
        h ++ ([.bind (u i) (some c)] ++ inside ++ [.bind (u i) (watcher (u i) h)])⟩ :: calls) := by
  have hother (j : Connection) (hj : j ≠ u i) (d : Option Context) (g : History) :
      watcher j (g ++ [.bind (u i) d]) = watcher j g :=
    watcher_append_of_ne (by simp) (by simp [hj.symm]) g
  refine .hold _ (O.restores_of_tidy (fun j hj => ?_) htidy fun hdone => by simp [hlive] at hdone)
    hinside (watcher_bind ..) (fun j hj => hother j hj _ h) (fun _ => rfl) (by simp [Exchange.isOn])
  rw [← List.append_assoc]
  by_cases hji : j = u i
  · -- Whatever is bound inside, the last exchange gives the watch back.
    subst hji
    exact watcher_bind ..
  · rw [hother j hji, ← List.append_assoc,
      hinside.kept j (Nat.le_trans hj (connections_le_append ..)), hother j hji]

/-- A call that opens a connection watches it from then on. -/
theorem watched_opened {calls : List Call} {inside : History}
    (hlive : c.isDone (O.moment h) = false)
    (hinside : Watched O (u.push (next h)) (h ++ [.connect c (.ok (next h))]) inside calls)
    (htidy : Tidy u h ([.connect c (.ok (next h))] ++ inside)) :
    Watched O u h ([.connect c (.ok (next h))] ++ inside)
      (⟨c, some (next h), h, h ++ ([.connect c (.ok (next h))] ++ inside)⟩ :: calls) := by
  have hother (j : Connection) (hj : j ≠ next h) :
      watcher j (h ++ [.connect c (.ok (next h))]) = watcher j h :=
    watcher_append_of_ne (by simp [hj.symm]) (by simp) h
  have hrestores : Call.Restores O
      ⟨c, some (next h), h, h ++ ([.connect c (.ok (next h))] ++ inside)⟩
      ([.connect c (.ok (next h))] ++ inside) := by
    refine O.restores_of_tidy (fun j hj => ?_) htidy fun hdone => by simp [hlive] at hdone
    have hne : j ≠ next h := by
      rintro rfl
      exact absurd hj (Nat.not_succ_le_self _)
    rw [← List.append_assoc, hinside.kept j (Nat.le_trans hj (connections_le_append ..)),
      hother j hne]
  have hheld := Watched.hold [] (by simpa using hrestores) hinside (watcher_connect ..)
    hother (fun _ => rfl) (List.forall_mem_nil _)
  simpa using hheld

end

/-- Work on a transaction of someone else. -/
theorem isWatched_join (c : Context) (i : Fin n) {w : Connection → Work History α}
    (calls : Connection → History → List Call)
    (hw : IsWatched O (u.push (u i)) (w (u i)) (calls (u i)))
    (htidy : IsTidy u (O.store.join c (u i) w)) :
    IsWatched O u (O.store.join c (u i) w) fun h =>
      ⟨c, if c.isDone (O.moment h) then none else some (u i), h,
          ((O.store.join c (u i) w).on h).2⟩ ::
        (if c.isDone (O.moment h) then none else some (u i, h ++ [.bind (u i) (some c)])).elim []
          fun (k, g) => calls k g := by
  intro h hu
  obtain ⟨new, hnew, htidy⟩ := htidy h hu
  refine ⟨new, hnew, ?_⟩
  simp only [hnew]
  rw [Store.join_on] at hnew
  cases hc : c.problem? (O.store.moment h) with
  | some p =>
    have hdone : c.isDone (O.moment h) = true := (kind_of_problem? hc).1
    rw [hc] at hnew
    rw [if_pos hdone, if_pos hdone]
    exact O.watched_idle hnew htidy
  | none =>
    have hlive : ¬c.isDone (O.moment h) = true := Bool.eq_false_iff.1 (isDone_of_problem? hc)
    obtain ⟨inside, hrun, hinside⟩ := hw _ ((hu.append [.bind (u i) (some c)]).push (hu.append _ i))
    rw [hc] at hnew
    have hnew : ((w (u i)).on (h ++ [.bind (u i) (some c)])).2 ++
      [.bind (u i) (watcher (u i) h)] = h ++ new := hnew
    obtain rfl : new = [.bind (u i) (some c)] ++ inside ++ [.bind (u i) (watcher (u i) h)] := by
      simpa [hrun] using hnew.symm
    rw [if_neg hlive, if_neg hlive]
    exact O.watched_joined (isDone_of_problem? hc) hinside htidy

/-- Work in a transaction of its own. -/
theorem isWatched_runOwned (c : Context) {w : Connection → Work History α}
    {calls : Connection → History → List Call} (hw : ∀ k, IsWatched O (u.push k) (w k) (calls k))
    (htidy : IsTidy u (O.store.runOwned c w)) :
    IsWatched O u (O.store.runOwned c w) fun h =>
      ⟨c, if c.isDone (O.moment h) then none else (O.connect h c).toOption, h,
          ((O.store.runOwned c w).on h).2⟩ ::
        (match (O.store.begin c).on h with
          | (.ok k, g) => some (k, g)
          | (.error _, _) => none).elim [] fun (k, g) => calls k g := by
  intro h hu
  obtain ⟨new, hnew, htidy⟩ := htidy h hu
  refine ⟨new, hnew, ?_⟩
  simp only [hnew]
  have hnext : Within (u.push (next h)) (h ++ [.connect c (.ok (next h))]) :=
    (hu.append _).push (Nat.le_of_eq (by simp [next, connections, Exchange.isConnect]))
  have hcontrol {g : History} (hg : Within (u.push (next h)) g) (fin : Control)
      (answer : Except Error Unit) :
      Watched O (u.push (next h)) g [.control (next h) fin answer] [] :=
    .controls hg 0 (by simp)
  obtain ⟨e, hdone, hbegin⟩ | ⟨e, hlive, hconnect, hbegin⟩ |
    ⟨e, hlive, hconnect, -, hbegin⟩ | ⟨hopens, hbegin⟩ := O.begin_steps c h
  · -- The context is done.
    rw [Store.runOwned_on, hbegin] at hnew
    rw [if_pos hdone, hbegin]
    exact O.watched_idle hnew htidy
  · -- There is no connection to watch.
    rw [Store.runOwned_on, hbegin] at hnew
    obtain rfl := List.append_cancel_left hnew
    rw [if_neg (Bool.eq_false_iff.1 hlive), hbegin, hconnect]
    exact .unheld (by simp [Exchange.isOn])
      (O.restores_of_tidy (fun k _ => by simp [watcher]) htidy (by simp [hlive]))
  · -- The connection is watched, but its transaction does not begin.
    rw [Store.runOwned_on, hbegin] at hnew
    obtain rfl := List.append_cancel_left hnew
    rw [if_neg (Bool.eq_false_iff.1 hlive), hbegin, hconnect]
    exact O.watched_opened hlive (hcontrol hnext _ _) htidy
  · have hopening : h ++ opening c h =
        h ++ [.connect c (.ok (next h))] ++ [.control (next h) .begin (.ok ())] := by
      simp [opening]
    rw [hopening] at hbegin
    obtain ⟨inside, hrun, hinside⟩ := hw (next h) _ (hnext.append _)
    obtain ⟨ending, fin, answer, hcall, -⟩ := O.runOwned_of_begin hbegin (Prod.ext rfl hrun)
    rw [hcall] at hnew
    obtain rfl : new = [.connect c (.ok (next h))] ++ ([.control (next h) .begin (.ok ())] ++
        inside ++ [.control (next h) fin answer]) := by
      simpa using hnew.symm
    have hwork := (hcontrol hnext .begin (.ok ())).append hnext hinside
    have hall := hwork.append hnext (hcontrol (hnext.append _) fin answer)
    rw [if_neg (Bool.eq_false_iff.1 hopens.isLive), hbegin, hopens.connect]
    simpa only [List.nil_append, List.append_nil, Except.toOption, Option.elim] using
      O.watched_opened hopens.isLive hall htidy

/-- A call does what its closure does, behind its savepoint if it has one. -/
theorem isWatched_propagate (c : Context) (mode : Propagation) (ambient : Option (Fin n))
    {f : Connection → Work History α} {calls : Connection → History → List Call}
    (hf : ∀ k, IsTidy (u.push k) (f k)) (hcalls : ∀ k, IsWatched O (u.push k) (f k) (calls k)) :
    IsWatched O u (O.store.propagate c (ambient.map u) mode f) fun h =>
      ⟨c, O.held c mode (ambient.map u) h, h,
          ((O.store.propagate c (ambient.map u) mode f).on h).2⟩ ::
        (O.entered c mode (ambient.map u) h).elim [] fun (k, g) =>
          (O.behind mode k g).elim [] (calls k) := by
  have hguarded (k : Connection) : IsWatched O (u.push k) (O.store.guarded mode f k) fun g =>
      (O.behind mode k g).elim [] (calls k) := O.isWatched_guarded mode 0 (hcalls k)
  have htidy := O.isTidy_propagate c mode ambient hf
  unfold held entered
  rw [Store.propagate_eq] at htidy ⊢
  cases hscope : mode.scope (ambient.map u) with
  | refused =>
    intro h hu
    refine ⟨[], (List.append_nil h).symm, ?_⟩
    simpa using O.watched_idle (List.append_nil h).symm (.nil u h)
  | joined k =>
    obtain ⟨i, -, rfl⟩ := Option.map_eq_some_iff.1 (Propagation.eq_some_of_scope hscope)
    rw [hscope] at htidy
    exact O.isWatched_join c i (fun k g => (O.behind mode k g).elim [] (calls k))
      (hguarded (u i)) htidy
  | owned =>
    rw [hscope] at htidy
    exact O.isWatched_runOwned c hguarded htidy

/-- The calls of a procedure are those in progress along its run, by induction on the tree. -/
theorem isWatched_run (p : Procedure α n) (u : Surrounding n) :
    IsWatched O u (p.run O.store pass u) (p.calls O u) := by
  induction p with
  | give a => exact isWatched_resume (.ok a)
  | fail e => exact isWatched_resume (.error (.error e))
  | panic message => exact isWatched_resume (.error (.panic message))
  | execute i sql next ih =>
    have hfirst : IsWatched O u (O.store.execute (u i) sql) fun _ => [] := fun h _ =>
      ⟨_, rfl, .single (fun k hk => ⟨i, eq_of_beq hk⟩) fun k _ => by simp [watcher]⟩
    exact isWatched_bind hfirst fun answer => ih answer u
  | query i sql next ih =>
    have hfirst : IsWatched O u (O.store.query (u i) sql) fun _ => [] := fun h _ =>
      ⟨_, rfl, .single (fun k hk => ⟨i, eq_of_beq hk⟩) fun k _ => by simp [watcher]⟩
    exact isWatched_bind hfirst fun answer => ih answer u
  | wait next ih =>
    intro h hu
    have hpause : Watched O u h [.pause] [] :=
      .single (fun k hk => nomatch hk) fun k _ => by simp [watcher]
    obtain ⟨new, hrun, hnew⟩ := ih (O.moment (h ++ [.pause])) u (h ++ [.pause]) (hu.append _)
    refine ⟨[.pause] ++ new, ?_, hpause.append hu hnew⟩
    rw [Procedure.run_wait_on, ← List.append_assoc]
    exact hrun
  | call c mode ambient body next ihbody ihnext =>
    exact isWatched_bind (O.isWatched_propagate c mode ambient
      (fun k => O.isTidy_run body (u.push k)) fun k => ihbody (u.push k)) fun answer =>
        ihnext answer u

/-- Calls borrow the watch on a connection and give it back, in every run of a program, whatever the
store answers, whenever contexts are done and however closures end. Whenever a call comes back, each
connection from before it is watched by what watched it when the call started, and those opened in
it are finished; a call whose context is done makes no exchange. Whenever a statement is sent, its
connection is watched by the context of the innermost of the calls in progress that have joined or
opened this connection. -/
theorem run_watched (p : Procedure α 0) (h : History) :
    ∃ ending new, (p.run O.store pass .none).on h = (ending, h ++ new) ∧
      (∀ a ∈ p.calls O .none h, ∃ own, a.Restores O own) ∧
      (∀ before x after k, new = before ++ x :: after → x.isOn k →
        ∃ a : Call, a.Innermost (p.calls O .none h) k (h ++ before) ∧
          watcher k (h ++ before) = some a.context) := by
  obtain ⟨new, hrun, hnew⟩ := O.isWatched_run p .none h fun i => i.elim0
  refine ⟨_, new, Prod.ext rfl hrun, hnew.restores, fun before x after k hposition hx => ?_⟩
  cases hnew.attributed before x after k hposition hx with
  | inside ha hwatch => exact ⟨_, ha, hwatch⟩
  | around hnone i => exact i.elim0

/-- The statement of the closure is watched by the context of its own call again, once the call that
it has made with another context has come back. -/
example :
    let d : Context := ⟨1, none⟩
    let p : Procedure Unit 0 := .call .background .requiredNew none
      (.call d .mandatory (some 0) (.execute 0 [.raw "a"] fun _ => .give ()) fun _ =>
        .execute 0 [.raw "b"] fun _ => .give ()) fun _ => .give ()
    (p.calls (accepting []) .none []).map
        (fun a => (a.context, a.connection, a.start.length, a.finish.length)) =
      [(.background, some ⟨1⟩, 0, 7), (d, some ⟨1⟩, 2, 5)] := rfl

end Oracle

end ResourceEngine
