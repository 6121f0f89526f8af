import ResourceEngine.Proofs.Store.Nesting

/-!
# Who closes a savepoint

Every savepoint is closed by the call that has set it, whatever the store rejects and however
closures end. `isNested_run` says that a procedure keeps to the grammar of nested calls, where the
closures behind savepoints are those of its own tree; what the grammar says of savepoints then holds
for every call.
-/

namespace ResourceEngine

open History

/-- Started after a history, the work ends in this way and makes these calls. -/
def Makes {α : Type} (w : Work History α) (h : History) (ended : Ending) (new : History) : Prop :=
  ∃ ending, w.on h = (ending, h ++ new) ∧ Ending.of ending = ended

/-- How a call goes: it gets no transaction, it joins the ambient one, or it owns a new one. The
calls of its work, whatever they are, stand between those of the call itself. -/
inductive Conduct (c : Context) (ambient : Option Connection)
    (works : Connection → History → History → Prop) (h : History) : History → Prop where
  | idle : Conduct c ambient works h []
  | refused (e : Error) : Conduct c ambient works h [.connect c (.error e)]
  | unbegun (e : Error) : Conduct c ambient works h
    [.connect c (.ok (Oracle.next h)), .control (Oracle.next h) .begin (.error e)]
  | joined {k : Connection} (hk : ambient = some k) {inside : History}
    (hinside : works k (h ++ [.bind k (some c)]) inside) (previous : Option Context) :
    Conduct c ambient works h ([.bind k (some c)] ++ inside ++ [.bind k previous])
  | owned {inside : History} (hinside : works (Oracle.next h) (h ++ Oracle.opening c h) inside)
    {fin : Control} (hfin : fin = .commit ∨ fin = .rollback) (answer : Except Error Unit) :
    Conduct c ambient works h
      (Oracle.opening c h ++ inside ++ [.control (Oracle.next h) fin answer])

namespace Conduct

variable {c : Context} {ambient : Option Connection}
  {works works' : Connection → History → History → Prop} {h new : History}

/-- What the work of a call does may be said in another way wherever the call may start it. -/
theorem mono (hnew : Conduct c ambient works h new)
    (hworks : ∀ {k a inside}, ambient = some k ∨ k.id ≤ connections (h ++ a) →
      works k (h ++ a) inside → works' k (h ++ a) inside) :
    Conduct c ambient works' h new := by
  cases hnew with
  | idle => exact .idle
  | refused e => exact .refused e
  | unbegun e => exact .unbegun e
  | joined hk hinside previous => exact .joined hk (hworks (.inl hk) hinside) previous
  | owned hinside hfin answer =>
    exact .owned (hworks (.inr (by simp [Oracle.next])) hinside) hfin answer

/-- A call whose work keeps to the grammar keeps to it. -/
theorem nested {runs : Closures} (hnew : Conduct c ambient (fun _ => Nested runs) h new) :
    Nested runs h new := by
  cases hnew with
  | idle => exact .nil h
  | refused e => exact .refused h c e
  | unbegun e => exact .unbegun h c e
  | joined hk hinside previous => exact .append (.append (.plain h rfl) hinside) (.plain _ rfl)
  | owned hinside hfin answer => exact .owned c hinside hfin answer

end Conduct

/-- The calls for one savepoint are nested if those of the closure behind it are. -/
theorem Bracket.nested {runs runs' : Closures} {k : Connection} {h new : History}
    (hcall : Bracket runs k ⟨savepoints h⟩ h new) (hk : k.id ≤ connections h)
    (hruns : ∀ {ended inside}, runs k (h ++ setting k h) ended inside →
      runs' k (h ++ setting k h) ended inside ∧ Nested runs' (h ++ setting k h) inside) :
    Nested runs' h new := by
  cases hcall with
  | rejected e => exact .unset k e
  | closed hclosure _ htail => exact .behind hk (hruns hclosure).1 (hruns hclosure).2 htail

/-! ### Closures of a procedure -/

namespace Procedure

variable {α : Type}

/-- In the tree there is a call behind a savepoint with this closure. -/
inductive Behind {m : Nat} (q : Procedure α (m + 1)) : {n : Nat} → Procedure α n → Prop where
  | here (c : Context) (ambient : Option (Fin m)) (next : Except Stop (Outcome α) → Procedure α m) :
    Behind q (.call c .savepoint ambient q next)
  | inside {n : Nat} (c : Context) (mode : Propagation) (ambient : Option (Fin n))
    {body : Procedure α (n + 1)} (h : Behind q body)
    (next : Except Stop (Outcome α) → Procedure α n) : Behind q (.call c mode ambient body next)
  | after {n : Nat} (c : Context) (mode : Propagation) (ambient : Option (Fin n))
    (body : Procedure α (n + 1)) {next : Except Stop (Outcome α) → Procedure α n}
    {answer : Except Stop (Outcome α)} (h : Behind q (next answer)) :
    Behind q (.call c mode ambient body next)
  | execute {n : Nat} (i : Fin n) (sql : Sql) {next : Except Stop Nat → Procedure α n}
    {answer : Except Stop Nat} (h : Behind q (next answer)) : Behind q (.execute i sql next)
  | query {n : Nat} (i : Fin n) (sql : Sql) {next : Except Stop (List Row) → Procedure α n}
    {answer : Except Stop (List Row)} (h : Behind q (next answer)) : Behind q (.query i sql next)
  | wait {n : Nat} {next : Moment → Procedure α n} {m : Moment} (h : Behind q (next m)) :
    Behind q (.wait next)

/-- The closures behind the savepoints of a procedure, whatever is around them. -/
def closures (O : Oracle) {n : Nat} (p : Procedure α n) : Closures :=
  fun k h ended inside => ∃ m, ∃ q : Procedure α (m + 1), ∃ v : Surrounding m,
    q.Behind p ∧ Makes (q.run O.store Oracle.pass (v.push k)) h ended inside

theorem closures_mono {O : Oracle} {m n : Nat} {p : Procedure α m} {p' : Procedure α n}
    (hp : ∀ {l : Nat} {q : Procedure α (l + 1)}, q.Behind p → q.Behind p') {k : Connection}
    {h inside : History} {ended : Ending} (hruns : p.closures O k h ended inside) :
    p'.closures O k h ended inside := by
  obtain ⟨l, q, v, hq, hmakes⟩ := hruns
  exact ⟨l, q, v, hp hq, hmakes⟩

end Procedure

/-! ### Work that keeps to the grammar -/

/-- The calls that the work makes are nested, with these closures behind savepoints. -/
def IsNested {n : Nat} {α : Type} (runs : Closures) (u : Surrounding n) (w : Work History α) :
    Prop :=
  ∀ h, Within u h → ∃ new, (w.on h).2 = h ++ new ∧ Nested runs h new

section

variable {n : Nat} {α β : Type} {u : Surrounding n} {runs runs' : Closures}

theorem IsNested.mono {w : Work History α} (hw : IsNested runs u w)
    (hruns : ∀ {k g ended inside}, runs k g ended inside → runs' k g ended inside) :
    IsNested runs' u w := by
  intro h hu
  obtain ⟨new, hrun, hnew⟩ := hw h hu
  exact ⟨new, hrun, hnew.mono fun _ => hruns⟩

theorem isNested_resume (ending : Except Stop α) : IsNested runs u (Work.resume ending) :=
  fun h _ => ⟨[], (List.append_nil h).symm, .nil h⟩

/-- Work that goes on, whatever the ending of its first part, keeps to the grammar if its parts do.
-/
theorem isNested_bind {w : Work History α} {g : Except Stop α → Work History β}
    (hw : IsNested runs u w) (hg : ∀ ending, IsNested runs u (g ending)) :
    IsNested runs u (w.attempt >>= g) := by
  intro h hu
  obtain ⟨a, hrun, ha⟩ := hw h hu
  obtain ⟨b, hrest, hb⟩ := hg (w.on h).1 (h ++ a) (hu.append a)
  refine ⟨a ++ b, ?_, ha.append hb⟩
  rw [Work.on_bind, Work.on_attempt]
  simp only [hrun, hrest, List.append_assoc]

/-- Work that makes one plain call keeps to the grammar. -/
theorem isNested_plain {w : Work History α} {x : History → Exchange}
    (hw : ∀ h, (w.on h).2 = h ++ [x h]) (hx : ∀ h, (x h).isPlain) : IsNested runs u w :=
  fun h _ => ⟨[x h], hw h, .plain h (hx h)⟩

end

namespace Oracle

variable {n : Nat} {α : Type} {u : Surrounding n} (O : Oracle)

/-! ### Savepoints -/

/-- A rollback to a savepoint makes the calls that take it back. -/
theorem takenBack_rollbackTo (k : Connection) (p : Savepoint) (h : History) :
    ∃ tail, ((O.store.rollbackTo k p).run h).2 = h ++ tail ∧ TakenBack k p tail := by
  rw [Store.rollbackTo_run, control_run]
  rcases O.control h k (.rollbackTo p) with e | ⟨⟩
  · exact ⟨_, rfl, .rejected e⟩
  · refine ⟨_, ?_,
      .released (O.control (h ++ [.control k (.rollbackTo p) (.ok ())]) k (.release p))⟩
    simp [control_run]

section

variable {f : Connection → Work History α} {k : Connection} {h : History}

/-- The answer to the statement that sets the next savepoint. -/
def answerToSet (k : Connection) (h : History) : Except Error Unit :=
  O.control (h ++ [.draw ⟨savepoints h⟩]) k (.savepoint ⟨savepoints h⟩)

/-- Where the savepoint is rejected nothing follows. -/
theorem savepointOn_of_unset {e : Error} (hset : O.answerToSet k h = .error e) :
    ((O.store.savepointOn k f).on h).2 =
      h ++ [.draw ⟨savepoints h⟩, .control k (.savepoint ⟨savepoints h⟩) (.error e)] := by
  have hdraw : O.store.freshSavepoint.run h =
      (⟨savepoints h⟩, h ++ [.draw ⟨savepoints h⟩]) := rfl
  have hcontrol : O.control (h ++ [.draw ⟨savepoints h⟩]) k (.savepoint ⟨savepoints h⟩) =
      .error e := hset
  rw [Store.savepointOn_on, hdraw]
  simp only [control_run, hcontrol, List.append_assoc, List.singleton_append]

/-- Behind a savepoint that is set the closure runs, and then the savepoint is released or rolled
back to. -/
theorem savepointOn_of_set (hset : O.answerToSet k h = .ok ()) :
    ((O.store.savepointOn k f).on h).2 =
      match (f k).on (h ++ setting k h) with
      | (.ok _, g) =>
        match O.control g k (.release ⟨savepoints h⟩) with
        | .ok () => g ++ [.control k (.release ⟨savepoints h⟩) (.ok ())]
        | .error e => ((O.store.rollbackTo k ⟨savepoints h⟩).run
            (g ++ [.control k (.release ⟨savepoints h⟩) (.error e)])).2
      | (.error _, g) => ((O.store.rollbackTo k ⟨savepoints h⟩).run g).2 := by
  have hdraw : O.store.freshSavepoint.run h =
      (⟨savepoints h⟩, h ++ [.draw ⟨savepoints h⟩]) := rfl
  have hcontrol : O.control (h ++ [.draw ⟨savepoints h⟩]) k (.savepoint ⟨savepoints h⟩) =
      .ok () := hset
  rw [Store.savepointOn_on, hdraw, setting]
  simp only [control_run, hcontrol, List.append_assoc, List.singleton_append]
  rcases (f k).on _ with ⟨(e | message) | a, g⟩
  · rfl
  · rfl
  simp only
  rcases O.control g k (.release ⟨savepoints h⟩) with e | ⟨⟩ <;> rfl

/-- A call sets its savepoint, runs its closure behind it and closes it. -/
theorem bracket_savepointOn {inside : History}
    (hrun : ((f k).on (h ++ setting k h)).2 = h ++ setting k h ++ inside)
    (hinside : ∀ x ∈ inside, x.savepoint? ≠ some ⟨savepoints h⟩) :
    ∃ new, ((O.store.savepointOn k f).on h).2 = h ++ new ∧
      Bracket (fun j => Makes (f j)) k ⟨savepoints h⟩ h new := by
  rcases hset : O.answerToSet k h with e | ⟨⟩
  · exact ⟨_, O.savepointOn_of_unset hset, .rejected e⟩
  have hclosed {ending : Except Stop α} {tail : History}
      (hon : (f k).on (h ++ setting k h) = (ending, h ++ setting k h ++ inside))
      (htail : Closing k ⟨savepoints h⟩ (.of ending) tail) :
      ∃ new, h ++ setting k h ++ inside ++ tail = h ++ new ∧
        Bracket (fun j => Makes (f j)) k ⟨savepoints h⟩ h new :=
    ⟨setting k h ++ inside ++ tail, by simp, .closed ⟨ending, hon, rfl⟩ hinside htail⟩
  rw [O.savepointOn_of_set hset]
  -- The closure ends with an error, or with a value whose release may be rejected: the three ways
  -- of `Closing`.
  rcases hon : (f k).on (h ++ setting k h) with ⟨stop | a, g⟩ <;> rw [hon] at hrun <;>
    obtain rfl := hrun <;> simp only
  · obtain ⟨tail, hback, htail⟩ := O.takenBack_rollbackTo k ⟨savepoints h⟩
      (h ++ setting k h ++ inside)
    rw [hback]
    exact hclosed hon (.failed (by cases stop <;> exact Ending.noConfusion) htail)
  · rcases O.control (h ++ setting k h ++ inside) k (.release ⟨savepoints h⟩) with e | ⟨⟩
    · obtain ⟨tail, hback, htail⟩ := O.takenBack_rollbackTo k ⟨savepoints h⟩
        (h ++ setting k h ++ inside ++ [.control k (.release ⟨savepoints h⟩) (.error e)])
      simp only [hback]
      rw [List.append_assoc _ [_] tail]
      exact hclosed hon (.unreleased e htail)
    · exact hclosed hon .released

end

/-! ### Calls -/

section

variable {c : Context} {ambient : Option Connection} {mode : Propagation}
  {f : Connection → Work History α} {h : History}

/-- What the guarded work of a call does on a connection. -/
def works (mode : Propagation) (f : Connection → Work History α) (k : Connection)
    (h new : History) : Prop :=
  ((O.store.guarded mode f k).on h).2 = h ++ new

/-- A call goes in one of the ways of `Conduct`, given what its guarded work does wherever it may
start. -/
theorem conduct_propagate
    (hworks : ∀ k a, ambient = some k ∨ k.id ≤ connections (h ++ a) →
      ∃ inside, O.works mode f k (h ++ a) inside) :
    ∃ new, ((O.store.propagate c ambient mode f).on h).2 = h ++ new ∧
      Conduct c ambient (O.works mode f) h new := by
  rw [Store.propagate_eq]
  cases hscope : mode.scope ambient with
  | refused => exact ⟨[], by simp, .idle⟩
  | joined k =>
    have hk := Propagation.eq_some_of_scope hscope
    simp only
    rw [Store.join_on]
    cases c.problem? (O.store.moment h) with
    | some p => exact ⟨[], by simp, .idle⟩
    | none =>
      obtain ⟨inside, hinside⟩ := hworks k [.bind k (some c)] (.inl hk)
      refine ⟨_, ?_, .joined hk hinside (watcher k h)⟩
      show ((O.store.guarded mode f k).on (h ++ [.bind k (some c)])).2 ++
        [.bind k (watcher k h)] = _
      rw [hinside]
      simp
  | owned =>
    simp only
    obtain ⟨e, hbegin, -⟩ | ⟨e, hbegin⟩ | ⟨e, hbegin⟩ | hbegin := O.begin_cases c h
    · exact ⟨[], by rw [Store.runOwned_on, hbegin]; simp, .idle⟩
    · exact ⟨_, by rw [Store.runOwned_on, hbegin], .refused e⟩
    · exact ⟨_, by rw [Store.runOwned_on, hbegin], .unbegun e⟩
    obtain ⟨inside, hinside⟩ := hworks (next h) (opening c h) (.inr (by simp [next]))
    obtain ⟨ending, fin, answer, hcall, hfin, -⟩ :=
      O.runOwned_of_begin hbegin (Prod.ext rfl hinside)
    refine ⟨_, ?_, .owned hinside hfin answer⟩
    rw [hcall]
    simp

end

/-- The closures behind the savepoints of a call: its own, if it has one, and those inside of it. -/
def closuresOf (mode : Propagation) (u : Surrounding n) (body : Procedure α (n + 1)) : Closures :=
  fun k h ended inside =>
    mode = .savepoint ∧ Makes (body.run O.store pass (u.push k)) h ended inside ∨
      body.closures O k h ended inside

/-- How the work of a call keeps to the grammar, with its savepoint if it has one. -/
theorem nested_guarded (mode : Propagation) {body : Procedure α (n + 1)} {k : Connection}
    {h : History} (hu : Within u h) (hk : k.id ≤ connections h)
    (hbody : IsNested (body.closures O) (u.push k) (body.run O.store pass (u.push k))) :
    ∃ new, O.works mode (fun k => body.run O.store pass (u.push k)) k h new ∧
      Nested (O.closuresOf mode u body) h new ∧
      (mode = .savepoint →
        Bracket (fun j => Makes (body.run O.store pass (u.push j))) k ⟨savepoints h⟩ h new) := by
  by_cases hmode : mode = .savepoint
  · subst hmode
    obtain ⟨inside, hrun, hinside⟩ := hbody _ ((hu.append (setting k h)).push (by simpa using hk))
    obtain ⟨new, hcall, hbracket⟩ :=
      O.bracket_savepointOn (f := fun k => body.run O.store pass (u.push k)) hrun
        (hinside.namesWithin.ne_of_lt (by simp))
    refine ⟨new, hcall, hbracket.nested hk fun {ended inside'} hmakes => ⟨.inl ⟨rfl, hmakes⟩, ?_⟩,
      fun _ => hbracket⟩
    -- The closure runs only once, so these are the calls that it has made.
    obtain ⟨ending, hon, -⟩ := hmakes
    rw [hon] at hrun
    obtain rfl := List.append_cancel_left hrun
    exact hinside.mono fun _ => .inr
  · obtain ⟨new, hrun, hnew⟩ := hbody h (hu.push hk)
    refine ⟨new, ?_, hnew.mono fun _ => .inr, fun h => absurd h hmode⟩
    rw [works, Store.guarded_of_ne _ hmode, Work.on_map]
    exact hrun

/-- A call keeps to the grammar if the closures of its body do, and behind a savepoint it makes the
calls of a bracket. -/
theorem nested_propagate (c : Context) (mode : Propagation) (ambient : Option (Fin n))
    {body : Procedure α (n + 1)} {h : History} (hu : Within u h)
    (hbody : ∀ v, IsNested (body.closures O) v (body.run O.store pass v)) :
    ∃ new, ((O.store.propagate c (ambient.map u) mode fun k =>
        body.run O.store pass (u.push k)).on h).2 = h ++ new ∧
      Nested (O.closuresOf mode u body) h new ∧
      (mode = .savepoint → Conduct c (ambient.map u) (fun k g call =>
        Bracket (fun j => Makes (body.run O.store pass (u.push j))) k ⟨savepoints g⟩ g call) h
        new) := by
  have hguarded {k : Connection} {a : History}
      (hk : ambient.map u = some k ∨ k.id ≤ connections (h ++ a)) := by
    refine O.nested_guarded mode (hu.append a) ?_ (hbody (u.push k))
    rcases hk with hk | hk
    · obtain ⟨i, -, rfl⟩ := Option.map_eq_some_iff.1 hk
      exact hu.append a i
    · exact hk
  obtain ⟨new, hrun, hnew⟩ := O.conduct_propagate (c := c)
    (f := fun k => body.run O.store pass (u.push k))
    fun k a hk => (hguarded hk).imp fun _ h => h.1
  -- The oracle answers alike to the same history, so the work at one place makes one list of calls.
  have hsame {k : Connection} {a inside inside' : History}
      (h₁ : O.works mode (fun k => body.run O.store pass (u.push k)) k (h ++ a) inside)
      (h₂ : O.works mode (fun k => body.run O.store pass (u.push k)) k (h ++ a) inside') :
      inside' = inside := List.append_cancel_left (h₂.symm.trans h₁)
  refine ⟨new, hrun, (hnew.mono fun hk hinside => ?_).nested, fun hmode =>
    hnew.mono fun hk hinside => ?_⟩
  · obtain ⟨inside', hworks, hnested, -⟩ := hguarded hk
    exact hsame hinside hworks ▸ hnested
  · obtain ⟨inside', hworks, -, hbracket⟩ := hguarded hk
    exact hsame hinside hworks ▸ hbracket hmode

/-- The closures of a call are among those of the procedure that makes it. -/
theorem closuresOf_call {c : Context} {mode : Propagation} {ambient : Option (Fin n)}
    {body : Procedure α (n + 1)} {next : Except Stop (Outcome α) → Procedure α n} {k : Connection}
    {h inside : History} {ended : Ending} (hruns : O.closuresOf mode u body k h ended inside) :
    (Procedure.call c mode ambient body next).closures O k h ended inside := by
  obtain ⟨rfl, hmakes⟩ | hruns := hruns
  · exact ⟨n, body, u, .here c ambient next, hmakes⟩
  · exact Procedure.closures_mono (fun hq => .inside c mode ambient hq next) hruns

/-- A procedure keeps to the grammar, with the closures of its tree. -/
theorem isNested_run (p : Procedure α n) (u : Surrounding n) :
    IsNested (p.closures O) u (p.run O.store pass u) := by
  -- By induction on the tree; the closures of a part are those of the whole, so each case only
  -- widens them.
  induction p with
  | give a => exact isNested_resume (.ok a)
  | fail e => exact isNested_resume (.error (.error e))
  | panic message => exact isNested_resume (.error (.panic message))
  | execute i sql next ih =>
    refine isNested_bind (isNested_plain (x := fun h => .execute (u i) sql _) (fun _ => rfl)
      fun _ => rfl) fun answer => ?_
    exact (ih answer u).mono (Procedure.closures_mono (.execute i sql))
  | query i sql next ih =>
    refine isNested_bind (isNested_plain (x := fun h => .query (u i) sql _) (fun _ => rfl)
      fun _ => rfl) fun answer => ?_
    exact (ih answer u).mono (Procedure.closures_mono (.query i sql))
  | wait next ih =>
    intro h hu
    obtain ⟨new, hrun, hnew⟩ := ih _ u (h ++ [.pause]) (hu.append _)
    refine ⟨[.pause] ++ new, ?_, .append (.plain h rfl)
      (hnew.mono fun _ => Procedure.closures_mono .wait)⟩
    rw [Procedure.run_wait_on, ← List.append_assoc]
    exact hrun
  | call c mode ambient body next ihbody ihnext =>
    refine isNested_bind ?_ fun answer => ?_
    · intro h hu
      obtain ⟨new, hrun, hnew, -⟩ := O.nested_propagate c mode ambient hu ihbody
      exact ⟨new, hrun, hnew.mono fun _ => O.closuresOf_call⟩
    · exact (ihnext answer u).mono (Procedure.closures_mono (.after c mode ambient body))

/-- Savepoints are well bracketed, wherever a call stands in a tree of calls, whatever has happened
before, whatever the store rejects and however closures end. A call behind a savepoint, unless it
gets no transaction, makes the calls that `Bracket` allows for a savepoint of its own, by the way
that its closure has ended. Of every savepoint that is drawn in the call, by itself or inside of its
closure, all statements stand in one such bracket, and no other statement on any connection names
it; nor does the call name a savepoint that has been drawn before. So if no release of a savepoint
and no rollback to one is rejected, the same savepoints are open afterwards. -/
theorem propagate_bracketed (c : Context) (mode : Propagation) (ambient : Option (Fin n))
    (body : Procedure α (n + 1)) (u : Surrounding n) (h : History)
    (hu : ∀ i, (u i).id ≤ connections h) :
    let closure := fun k => body.run O.store pass (u.push k)
    ∃ ending new,
      (O.store.propagate c (ambient.map u) mode closure).on h = (ending, h ++ new) ∧
      (mode = .savepoint → Conduct c (ambient.map u)
        (fun k g call => Bracket (fun j => Makes (closure j)) k ⟨savepoints g⟩ g call) h new) ∧
      (∀ p, savepoints h ≤ p.number → p.number < savepoints (h ++ new) →
        Bracketed (O.closuresOf mode u body) p h new) ∧
      NamesWithin (savepoints h) (savepoints (h ++ new)) new ∧
      (Granted new → Level h new) := by
  obtain ⟨new, hrun, hnested, hconduct⟩ :=
    O.nested_propagate c mode ambient hu (O.isNested_run body)
  exact ⟨_, new, Prod.ext rfl hrun, hconduct, fun p => hnested.bracketed, hnested.namesWithin,
    hnested.level⟩

/-- A call behind a savepoint, whose closure makes another one that fails. -/
theorem propagate_bracketed_inside :
    let O := accepting []
    let k := next []
    let h := opening .background []
    let u : Surrounding 1 := fun _ => k
    let body : Procedure Unit 2 :=
      .call .background .savepoint (some 0) (.fail (Error.badRequest "nested")) fun _ => .give ()
    let inside : History :=
      [.bind k (some .background), .draw ⟨1⟩, .control k (.savepoint ⟨1⟩) (.ok ()),
        .control k (.rollbackTo ⟨1⟩) (.ok ()), .control k (.release ⟨1⟩) (.ok ()),
        .bind k (some .background)]
    let new : History :=
      [.bind k (some .background), .draw ⟨0⟩, .control k (.savepoint ⟨0⟩) (.ok ())] ++ inside ++
        [.control k (.release ⟨0⟩) (.ok ()), .bind k (some .background)]
    (∀ i, (u i).id ≤ connections h) ∧
      ((O.store.propagate .background (some k) .savepoint fun k =>
        body.run O.store pass (u.push k)).on h).2 = h ++ new ∧
      Bracketed (O.closuresOf .savepoint u body) ⟨0⟩ h new ∧
      Bracketed (O.closuresOf .savepoint u body) ⟨1⟩ h new ∧ Granted new ∧ Level h new := by
  intro O k h u body inside new
  have hu : ∀ i, (u i).id ≤ connections h := fun _ => Nat.le_refl 1
  have hnew : ((O.store.propagate .background (some k) .savepoint fun k =>
      body.run O.store pass (u.push k)).on h).2 = h ++ new := rfl
  have hgranted : Granted new := by simp [Granted, new, inside]
  obtain ⟨ending, new', hrun, -, hbracketed, -, hlevel⟩ :=
    O.propagate_bracketed .background .savepoint (some 0) body u h hu
  obtain rfl : new' = new := List.append_cancel_left ((congrArg Prod.snd hrun).symm.trans hnew)
  exact ⟨hu, hnew, hbracketed ⟨0⟩ (by decide) (by decide), hbracketed ⟨1⟩ (by decide) (by decide),
    hgranted, hlevel hgranted⟩

end Oracle

end ResourceEngine
