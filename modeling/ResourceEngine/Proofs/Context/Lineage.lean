import Mathlib.Data.List.Basic
import Mathlib.Data.List.Induction
import ResourceEngine.Context

/-!
# Lineages of contexts

Contexts are made from each other and cancelled while time passes. A `World` holds the contexts that
have been made; a `Chronicle` holds what happened to them, without families or deadlines: which
context was made from which, and under which deadline. From the chronicle it is said which contexts
are cancelled and which deadline each has, and the world agrees.
-/

namespace ResourceEngine.Lineage

/-- What happens to contexts, each of which is called by its number among those made so far. -/
inductive Event where
  | create
  | withDeadline (parent deadline : Nat)
  | withTimeout (parent span : Nat)
  | clone (parent : Nat)
  | cancel (i : Nat)
  /-- Time passes. -/
  | pass (span : Nat)

/-! ### Worlds -/

/-- The contexts in the order in which they were made, the moment, and the number of families. -/
structure World where
  contexts : List Context
  moment : Moment
  families : Nat

namespace World

def start (now : Nat) : World := ⟨[], ⟨[], now⟩, 0⟩

/-- The world with a context made from another one, if there is that one. -/
def derive (w : World) (parent : Nat) (f : Context → Context) : World :=
  match w.contexts[parent]? with
  | some c => { w with contexts := w.contexts ++ [f c] }
  | none => w

/-- What an event makes of the world. -/
def step (w : World) : Event → World
  | .create =>
    { w with contexts := w.contexts ++ [⟨w.families + 1, none⟩], families := w.families + 1 }
  | .withDeadline parent deadline => w.derive parent fun c => c.withDeadline deadline
  | .withTimeout parent span => w.derive parent fun c => c.withTimeout w.moment span
  | .clone parent => w.derive parent id
  | .cancel i =>
    match w.contexts[i]? with
    | some c => { w with moment := w.moment.cancel c }
    | none => w
  | .pass span => { w with moment := { w.moment with now := w.moment.now + span } }

/-- The world after events, from a start at some time. -/
def run (now : Nat) (es : List Event) : World := es.foldl step (start now)

end World

/-! ### Chronicles -/

/-- How a context came about: on its own, or from a parent and with a deadline if one was given. -/
inductive Origin where
  | root
  | derived (parent : Nat) (deadline : Option Nat)

/-- The origins of the contexts in the order in which they were made, those that were cancelled, and
the time. -/
structure Chronicle where
  origins : List Origin
  cancelled : List Nat
  now : Nat

namespace Chronicle

def start (now : Nat) : Chronicle := ⟨[], [], now⟩

def derive (l : Chronicle) (parent : Nat) (deadline : Option Nat) : Chronicle :=
  if parent < l.origins.length then { l with origins := l.origins ++ [.derived parent deadline] }
  else l

/-- The chronicle with an event. -/
def step (l : Chronicle) : Event → Chronicle
  | .create => { l with origins := l.origins ++ [.root] }
  | .withDeadline parent deadline => l.derive parent (some deadline)
  | .withTimeout parent span => l.derive parent (some (l.now + span))
  | .clone parent => l.derive parent none
  | .cancel i => if i < l.origins.length then { l with cancelled := i :: l.cancelled } else l
  | .pass span => { l with now := l.now + span }

/-- The chronicle of events, from a start at some time. -/
def run (now : Nat) (es : List Event) : Chronicle := es.foldl step (start now)

/-- One context comes from another, itself or through others, and these deadlines were given on the
way. -/
inductive Descends (l : Chronicle) (i : Nat) : Nat → List Nat → Prop where
  | self (hi : i < l.origins.length) : Descends l i i []
  | step {j k : Nat} {ds : List Nat} {deadline : Option Nat} (hj : Descends l i j ds)
    (hk : l.origins[k]? = some (.derived j deadline)) : Descends l i k (ds ++ deadline.toList)

/-- A context comes from a root. -/
def StemsFrom (l : Chronicle) (root i : Nat) (ds : List Nat) : Prop :=
  l.origins[root]? = some .root ∧ l.Descends root i ds

end Chronicle

/-! ### Deadlines -/

theorem min?_concat (ds : List Nat) (d : Nat) :
    (ds ++ [d]).min? = (ds.min?.toList ++ [d]).min? := by
  cases ds with
  | nil => rfl
  | cons e ds =>
    rw [List.cons_append, List.min?_cons', List.min?_cons', List.foldl_append]
    rfl

theorem deadline_withDeadline (c : Context) (d : Nat) :
    (c.withDeadline d).deadline = (c.deadline.toList ++ [d]).min? := by
  cases hc : c.deadline with
  | none => simp [Context.withDeadline, hc]
  | some e =>
    simp only [Context.withDeadline, hc, Option.toList_some, List.singleton_append,
      List.min?_cons', List.foldl_cons, List.foldl_nil, Option.some.injEq]
    split <;> omega

/-- The context under a deadline if there is one. -/
def narrowed (c : Context) (deadline : Option Nat) : Context := deadline.elim c c.withDeadline

@[simp] theorem family_narrowed (c : Context) (deadline : Option Nat) :
    (narrowed c deadline).family = c.family := by
  cases deadline with
  | none => rfl
  | some d => exact c.family_withDeadline d

theorem deadline_narrowed {c : Context} {ds : List Nat} (h : c.deadline = ds.min?)
    (deadline : Option Nat) :
    (narrowed c deadline).deadline = (ds ++ deadline.toList).min? := by
  cases deadline with
  | none => rw [Option.toList_none, List.append_nil, ← h]; rfl
  | some d => rw [Option.toList_some, min?_concat, ← h]; exact deadline_withDeadline c d

theorem isDone_narrowed {c : Context} {m : Moment} (h : c.isDone m = true)
    (deadline : Option Nat) : (narrowed c deadline).isDone m = true := by
  cases deadline with
  | none => exact h
  | some d =>
    show (c.withDeadline d).isDone m = true
    rw [Context.isDone_withDeadline, h, Bool.true_or]

/-! ### What a chronicle says of a world -/

theorem getElem?_append_of_some {α : Type} {as : List α} {i : Nat} {a : α} (h : as[i]? = some a)
    (bs : List α) : (as ++ bs)[i]? = some a := by
  rw [List.getElem?_append_left (List.getElem?_eq_some_iff.1 h).1, h]

theorem concat_cases {α β : Type} {as : List α} {bs : List β} (hlength : as.length = bs.length)
    {a a' : α} {b b' : β} {i : Nat} (ha : (as ++ [a])[i]? = some a')
    (hb : (bs ++ [b])[i]? = some b') :
    as[i]? = some a' ∧ bs[i]? = some b' ∨ i = as.length ∧ a' = a ∧ b' = b := by
  by_cases hi : i < as.length
  · rw [List.getElem?_append_left hi] at ha
    rw [List.getElem?_append_left (hlength ▸ hi)] at hb
    exact .inl ⟨ha, hb⟩
  · have hlt := (List.getElem?_eq_some_iff.1 ha).1
    rw [List.length_append, List.length_singleton] at hlt
    obtain rfl : i = as.length := by omega
    rw [List.getElem?_concat_length] at ha
    rw [hlength, List.getElem?_concat_length] at hb
    exact .inr ⟨rfl, (Option.some.inj ha).symm, (Option.some.inj hb).symm⟩

/-- The context with the number is of the family. -/
def World.IsOf (w : World) (i family : Nat) : Prop :=
  ∃ c, w.contexts[i]? = some c ∧ c.family = family

/-- The chronicle is one of the world: roots are of families of their own and have no deadline, a
derived context is its parent narrowed, and the cancelled families are those of the contexts that
were cancelled. -/
structure Records (l : Chronicle) (w : World) : Prop where
  length : w.contexts.length = l.origins.length
  now : w.moment.now = l.now
  families : ∀ c ∈ w.contexts, c.family ≤ w.families
  deadline : ∀ {i : Nat} {c : Context}, l.origins[i]? = some .root → w.contexts[i]? = some c →
    c.deadline = none
  unique : ∀ {i j : Nat} {c d : Context}, l.origins[i]? = some .root → w.contexts[i]? = some c →
    l.origins[j]? = some .root → w.contexts[j]? = some d → c.family = d.family → i = j
  derived : ∀ {i j : Nat} {deadline : Option Nat} {c : Context},
    l.origins[i]? = some (.derived j deadline) → w.contexts[i]? = some c →
      j < i ∧ ∃ parent, w.contexts[j]? = some parent ∧ c = narrowed parent deadline
  bounded : ∀ i ∈ l.cancelled, i < l.origins.length
  cancelled : ∀ family, family ∈ w.moment.cancelled ↔ ∃ i ∈ l.cancelled, w.IsOf i family

namespace Records

variable {l : Chronicle} {w : World}

theorem start (now : Nat) : Records (.start now) (.start now) where
  length := rfl
  now := rfl
  families := List.forall_mem_nil _
  deadline h := nomatch h
  unique h := nomatch h
  derived h := nomatch h
  bounded := List.forall_mem_nil _
  cancelled _ := ⟨nofun, nofun⟩

theorem lt_length (h : Records l w) {i : Nat} {c : Context} (hc : w.contexts[i]? = some c) :
    i < l.origins.length := h.length ▸ (List.getElem?_eq_some_iff.1 hc).1

/-- A context is recorded with its origin: a root with a family of its own, or a derived context. -/
theorem add (h : Records l w) {o : Origin} {c : Context} {families : Nat}
    (hfamilies : w.families ≤ families) (hc : c.family ≤ families)
    (hroot : o = .root → c.deadline = none ∧ w.families < c.family)
    (hderived : ∀ j deadline, o = .derived j deadline →
      ∃ parent, w.contexts[j]? = some parent ∧ c = narrowed parent deadline) :
    Records { l with origins := l.origins ++ [o] }
      { w with contexts := w.contexts ++ [c], families } where
  length := by simp [h.length]
  now := h.now
  families := by
    rw [List.forall_mem_append, List.forall_mem_singleton]
    exact ⟨fun d hd => Nat.le_trans (h.families d hd) hfamilies, hc⟩
  deadline ho hd := by
    obtain ⟨ho, hd⟩ | ⟨-, rfl, rfl⟩ := concat_cases h.length.symm ho hd
    · exact h.deadline ho hd
    · exact (hroot rfl).1
  unique hoi hi hoj hj hfamily := by
    -- A new root is of a later family than any context before it.
    have hlater : o = .root → ∀ d ∈ w.contexts, d.family < c.family := fun ho d hd =>
      Nat.lt_of_le_of_lt (h.families d hd) (hroot ho).2
    obtain ⟨hoi', hi'⟩ | ⟨hi', hoi', rfl⟩ := concat_cases h.length.symm hoi hi
    · obtain ⟨hoj', hj'⟩ | ⟨-, hoj', rfl⟩ := concat_cases h.length.symm hoj hj
      · exact h.unique hoi' hi' hoj' hj' hfamily
      · exact absurd hfamily (Nat.ne_of_lt (hlater hoj'.symm _ (List.mem_of_getElem? hi')))
    · obtain ⟨hoj', hj'⟩ | ⟨hj', -, -⟩ := concat_cases h.length.symm hoj hj
      · exact absurd hfamily (Nat.ne_of_gt (hlater hoi'.symm _ (List.mem_of_getElem? hj')))
      · exact hi'.trans hj'.symm
  derived ho hd := by
    obtain ⟨ho, hd⟩ | ⟨rfl, rfl, rfl⟩ := concat_cases h.length.symm ho hd
    · obtain ⟨hlt, parent, hparent, rfl⟩ := h.derived ho hd
      exact ⟨hlt, parent, getElem?_append_of_some hparent _, rfl⟩
    · obtain ⟨parent, hparent, rfl⟩ := hderived _ _ rfl
      exact ⟨h.lt_length hparent, parent, getElem?_append_of_some hparent _, rfl⟩
  bounded i hi := by
    have := h.bounded i hi
    simp only [List.length_append]
    omega
  cancelled family := by
    refine (h.cancelled family).trans (exists_congr fun i => and_congr_right fun hi => ?_)
    rw [World.IsOf, World.IsOf, List.getElem?_append_left (h.length ▸ h.bounded i hi)]

theorem derive (h : Records l w) (parent : Nat) {deadline : Option Nat} {f : Context → Context}
    (hf : ∀ c, f c = narrowed c deadline) : Records (l.derive parent deadline) (w.derive parent f) := by
  rw [Chronicle.derive, World.derive, ← h.length]
  cases hparent : w.contexts[parent]? with
  | none =>
    rw [if_neg (Nat.not_lt.2 (List.getElem?_eq_none_iff.1 hparent))]
    exact h
  | some c =>
    rw [if_pos (List.getElem?_eq_some_iff.1 hparent).1]
    refine h.add (Nat.le_refl _) ?_ nofun ?_
    · rw [hf, family_narrowed]
      exact h.families c (List.mem_of_getElem? hparent)
    · rintro j deadline ⟨⟩
      exact ⟨c, hparent, hf c⟩

theorem cancel (h : Records l w) {i : Nat} {c : Context} (hi : w.contexts[i]? = some c) :
    Records { l with cancelled := i :: l.cancelled } { w with moment := w.moment.cancel c } :=
  { h with
    bounded := List.forall_mem_cons.2 ⟨h.lt_length hi, h.bounded⟩
    cancelled := fun family => by
      have hof : family = c.family ↔ w.IsOf i family := by
        rw [World.IsOf, hi]
        simp [eq_comm]
      refine List.mem_cons.trans ((or_congr hof (h.cancelled family)).trans ?_)
      exact (List.exists_mem_cons_iff (w.IsOf · family) i l.cancelled).symm }

/-- Each event is recorded. -/
theorem step (h : Records l w) (e : Event) : Records (l.step e) (w.step e) := by
  cases e with
  | create => exact h.add (Nat.le_succ _) (Nat.le_refl _) (fun _ => ⟨rfl, Nat.lt_succ_self _⟩) nofun
  | withDeadline parent deadline => exact h.derive parent fun c => rfl
  | withTimeout parent span =>
    refine h.derive parent fun c => ?_
    rw [← h.now]
    rfl
  | clone parent => exact h.derive parent fun c => rfl
  | cancel i =>
    rw [Chronicle.step, World.step, ← h.length]
    cases hi : w.contexts[i]? with
    | none =>
      rw [if_neg (Nat.not_lt.2 (List.getElem?_eq_none_iff.1 hi))]
      exact h
    | some c =>
      rw [if_pos (List.getElem?_eq_some_iff.1 hi).1]
      exact h.cancel hi
  | pass span => exact { h with now := congrArg (· + span) h.now }

theorem run (now : Nat) (es : List Event) : Records (.run now es) (.run now es) := by
  induction es using List.reverseRecOn with
  | nil => exact start now
  | append_singleton es e ih =>
    rw [Chronicle.run, World.run, List.foldl_append, List.foldl_append]
    exact ih.step e

/-! ### Families and deadlines along a lineage -/

theorem exists_context (h : Records l w) {i : Nat} (hi : i < l.origins.length) :
    ∃ c, w.contexts[i]? = some c := ⟨_, List.getElem?_eq_getElem (h.length ▸ hi)⟩

theorem exists_stemsFrom (h : Records l w) {i : Nat} (hi : i < l.origins.length) :
    ∃ root ds, l.StemsFrom root i ds := by
  induction i using Nat.strongRecOn with
  | _ i ih =>
    obtain ⟨c, hc⟩ := h.exists_context hi
    have ho := List.getElem?_eq_getElem hi
    cases ho' : l.origins[i] with
    | root =>
      rw [ho'] at ho
      exact ⟨i, [], ho, .self hi⟩
    | derived j deadline =>
      rw [ho'] at ho
      obtain ⟨hlt, -⟩ := h.derived ho hc
      obtain ⟨root, ds, hroot, hds⟩ := ih j hlt (Nat.lt_trans hlt hi)
      exact ⟨root, _, hroot, hds.step ho⟩

/-- A context that comes from another is of its family, and done if that one is. -/
theorem of_descends (h : Records l w) {i k : Nat} {ds : List Nat} (hk : l.Descends i k ds)
    {c d : Context} (hc : w.contexts[i]? = some c) (hd : w.contexts[k]? = some d) :
    d.family = c.family ∧
      (c.deadline = none → d.deadline = ds.min?) ∧
      (c.isDone w.moment = true → d.isDone w.moment = true) := by
  induction hk generalizing d with
  | self hi =>
    cases hc.symm.trans hd
    exact ⟨rfl, id, id⟩
  | step hj ho ih =>
    obtain ⟨-, parent, hparent, rfl⟩ := h.derived ho hd
    obtain ⟨hfamily, hdeadline, hdone⟩ := ih hparent
    exact ⟨(family_narrowed _ _).trans hfamily, fun hnone => deadline_narrowed (hdeadline hnone) _,
      fun hc => isDone_narrowed (hdone hc) _⟩

section Lineage

variable {root i : Nat} {ds : List Nat} {c : Context}

theorem family_eq_iff (h : Records l w) {root' j : Nat} {ds' : List Nat} {d : Context}
    (hi : l.StemsFrom root i ds) (hc : w.contexts[i]? = some c)
    (hj : l.StemsFrom root' j ds') (hd : w.contexts[j]? = some d) :
    c.family = d.family ↔ root = root' := by
  obtain ⟨r, hr⟩ := h.exists_context (List.getElem?_eq_some_iff.1 hi.1).1
  obtain ⟨r', hr'⟩ := h.exists_context (List.getElem?_eq_some_iff.1 hj.1).1
  rw [(h.of_descends hi.2 hr hc).1, (h.of_descends hj.2 hr' hd).1]
  refine ⟨h.unique hi.1 hr hj.1 hr', ?_⟩
  rintro rfl
  rw [Option.some.inj (hr.symm.trans hr')]

theorem deadline_eq (h : Records l w) (hi : l.StemsFrom root i ds)
    (hc : w.contexts[i]? = some c) : c.deadline = ds.min? := by
  obtain ⟨r, hr⟩ := h.exists_context (List.getElem?_eq_some_iff.1 hi.1).1
  exact (h.of_descends hi.2 hr hc).2.1 (h.deadline hi.1 hr)

theorem existsUnique_root (h : Records l w) (hc : w.contexts[i]? = some c) :
    ∃! root, ∃ ds, l.StemsFrom root i ds := by
  obtain ⟨root, ds, hi⟩ := h.exists_stemsFrom (h.lt_length hc)
  refine ⟨root, ⟨ds, hi⟩, ?_⟩
  rintro root' ⟨ds', hi'⟩
  exact (h.family_eq_iff hi' hc hi hc).1 rfl

/-- A context is cancelled exactly if one from its root has been. -/
theorem isCancelled_iff (h : Records l w) (hi : l.StemsFrom root i ds)
    (hc : w.contexts[i]? = some c) :
    c.isCancelled w.moment = true ↔ ∃ j ∈ l.cancelled, ∃ ds', l.StemsFrom root j ds' := by
  rw [Context.isCancelled, List.contains_iff_mem, h.cancelled]
  refine exists_congr fun j => and_congr_right fun hj => ?_
  obtain ⟨root', ds', hj'⟩ := h.exists_stemsFrom (h.bounded j hj)
  constructor
  · rintro ⟨d, hd, hfamily⟩
    obtain rfl := (h.family_eq_iff hj' hd hi hc).1 hfamily
    exact ⟨ds', hj'⟩
  · rintro ⟨ds'', hj''⟩
    obtain ⟨d, hd⟩ := h.exists_context (h.bounded j hj)
    exact ⟨d, hd, (h.family_eq_iff hj'' hd hi hc).2 rfl⟩

/-- A context is done exactly if it is cancelled or a deadline on the way from its root has passed.
-/
theorem isDone_iff (h : Records l w) (hi : l.StemsFrom root i ds) (hc : w.contexts[i]? = some c) :
    c.isDone w.moment = true ↔ c.isCancelled w.moment = true ∨ ∃ d ∈ ds, d ≤ l.now := by
  rw [Context.isDone, Bool.or_eq_true, Context.isExpired, h.deadline_eq hi hc, h.now]
  refine or_congr_right ?_
  cases hmin : ds.min? with
  | none =>
    obtain rfl := List.min?_eq_none_iff.1 hmin
    simp
  | some d =>
    -- The earliest deadline has passed as soon as any of them has.
    obtain ⟨hd, hleast⟩ := List.min?_eq_some_iff.1 hmin
    simp only [decide_eq_true_eq]
    constructor
    · intro hle
      exact ⟨d, hd, hle⟩
    · rintro ⟨e, he, hle⟩
      exact Nat.le_trans (hleast e he) hle

end Lineage

end Records

/-! ### Worlds that go on -/

/-- Contexts stay what they are, families stay cancelled, and time does not go back. -/
structure World.Precedes (v w : World) : Prop where
  contexts : v.contexts <+: w.contexts
  cancelled : v.moment.cancelled ⊆ w.moment.cancelled
  now : v.moment.now ≤ w.moment.now

namespace World

variable {u v w : World}

theorem Precedes.refl (w : World) : w.Precedes w := ⟨List.prefix_refl _, List.Subset.refl _, Nat.le_refl _⟩

theorem Precedes.trans (huv : u.Precedes v) (hvw : v.Precedes w) : u.Precedes w :=
  ⟨huv.contexts.trans hvw.contexts, List.Subset.trans huv.cancelled hvw.cancelled,
    Nat.le_trans huv.now hvw.now⟩

theorem precedes_derive (w : World) (parent : Nat) (f : Context → Context) :
    w.Precedes (w.derive parent f) := by
  unfold derive
  split
  · exact ⟨List.prefix_append _ _, List.Subset.refl _, Nat.le_refl _⟩
  · exact .refl w

theorem precedes_step (w : World) (e : Event) : w.Precedes (w.step e) := by
  cases e with
  | create => exact ⟨List.prefix_append _ _, List.Subset.refl _, Nat.le_refl _⟩
  | withDeadline parent deadline => exact w.precedes_derive parent _
  | withTimeout parent span => exact w.precedes_derive parent _
  | clone parent => exact w.precedes_derive parent _
  | cancel i =>
    rw [step]
    split
    · exact ⟨List.prefix_refl _, List.subset_cons_self _ _, Nat.le_refl _⟩
    · exact .refl w
  | pass span => exact ⟨List.prefix_refl _, List.Subset.refl _, Nat.le_add_right _ _⟩

theorem precedes_run (now : Nat) (es more : List Event) : (run now es).Precedes (run now (es ++ more)) := by
  rw [run, run, List.foldl_append]
  generalize es.foldl step (start now) = w
  induction more generalizing w with
  | nil => exact .refl w
  | cons e more ih => exact (w.precedes_step e).trans (ih _)

/-- A context that is done stays done. -/
theorem Precedes.isDone (h : v.Precedes w) {c : Context} (hc : c.isDone v.moment = true) :
    c.isDone w.moment = true := by
  rw [Context.isDone, Bool.or_eq_true] at hc ⊢
  refine hc.imp (fun hcancelled => ?_) fun hexpired => ?_
  · rw [Context.isCancelled, List.contains_iff_mem] at hcancelled ⊢
    exact h.cancelled hcancelled
  · unfold Context.isExpired at hexpired ⊢
    cases hdeadline : c.deadline with
    | none => rw [hdeadline] at hexpired; exact hexpired
    | some d =>
      rw [hdeadline] at hexpired
      exact decide_eq_true (Nat.le_trans (of_decide_eq_true hexpired) h.now)

end World

/-- The error of a context that is done: a cancellation comes before a deadline. -/
theorem map_problem? (c : Context) (m : Moment) :
    (c.problem? m).map Problem.error =
      if c.isCancelled m then some (.internal "execution cancelled")
      else if c.isDone m then some (.internal "execution deadline exceeded")
      else none := by
  unfold Context.problem? Context.isDone
  cases c.isCancelled m <;> cases c.isExpired m <;> rfl

section Agreement

variable {l : Chronicle} {w : World} {root root' i j : Nat} {ds ds' : List Nat} {c d : Context}

/-- The contexts from one root agree on being cancelled. -/
theorem Records.isCancelled_eq (h : Records l w) (hi : l.StemsFrom root i ds)
    (hc : w.contexts[i]? = some c) (hj : l.StemsFrom root j ds') (hd : w.contexts[j]? = some d) :
    c.isCancelled w.moment = d.isCancelled w.moment := by
  rw [Bool.eq_iff_iff, h.isCancelled_iff hi hc, h.isCancelled_iff hj hd]

/-- Cancelling a context leaves those from other roots as they are. -/
theorem Records.isCancelled_step_cancel (h : Records l w) (hi : l.StemsFrom root i ds)
    (hc : w.contexts[i]? = some c) (hj : l.StemsFrom root' j ds') (hroot : root ≠ root') :
    c.isCancelled (w.step (.cancel j)).moment = c.isCancelled w.moment := by
  rw [World.step]
  cases hd : w.contexts[j]? with
  | none => rfl
  | some d =>
    have hfamily : c.family ≠ d.family := mt (h.family_eq_iff hi hc hj hd).1 hroot
    rw [Moment.isCancelled_cancel, beq_false_of_ne hfamily, Bool.false_or]

end Agreement

/-- After any events, each context comes from one root. Its deadline is the earliest of those given
on the way from there, and it is cancelled exactly if a context from that root has been; so the
contexts from one root agree, and cancelling one does nothing to those from other roots. A context
is done exactly if it is cancelled or one of those deadlines has passed. One that comes from one
that is done is done, and one that is done stays done whatever happens next. It fails to be checked
exactly if it is done, as cancelled before as too late. -/
theorem run_lineage (now : Nat) (es : List Event) :
    (World.run now es).contexts.length = (Chronicle.run now es).origins.length ∧
    (∀ i c, (World.run now es).contexts[i]? = some c →
      (∃! root, ∃ ds, (Chronicle.run now es).StemsFrom root i ds) ∧
      ∀ root ds, (Chronicle.run now es).StemsFrom root i ds →
        c.deadline = ds.min? ∧
        (c.isCancelled (World.run now es).moment = true ↔
          ∃ j ∈ (Chronicle.run now es).cancelled, ∃ ds', (Chronicle.run now es).StemsFrom root j ds') ∧
        (c.isDone (World.run now es).moment = true ↔
          c.isCancelled (World.run now es).moment = true ∨
            ∃ d ∈ ds, d ≤ (Chronicle.run now es).now) ∧
        (∀ j d ds', (World.run now es).contexts[j]? = some d →
          (Chronicle.run now es).StemsFrom root j ds' →
            c.isCancelled (World.run now es).moment = d.isCancelled (World.run now es).moment) ∧
        ∀ j root' ds', (Chronicle.run now es).StemsFrom root' j ds' → root ≠ root' →
          c.isCancelled (World.run now (es ++ [.cancel j])).moment =
            c.isCancelled (World.run now es).moment) ∧
    (∀ i j c d ds, (World.run now es).contexts[i]? = some c →
      (World.run now es).contexts[j]? = some d → (Chronicle.run now es).Descends i j ds →
        c.isDone (World.run now es).moment = true → d.isDone (World.run now es).moment = true) ∧
    (∀ (more : List Event) (i : Nat) (c : Context), (World.run now es).contexts[i]? = some c →
      (World.run now (es ++ more)).contexts[i]? = some c ∧
        (c.isDone (World.run now es).moment = true →
          c.isDone (World.run now (es ++ more)).moment = true)) ∧
    ∀ c ∈ (World.run now es).contexts,
      (c.problem? (World.run now es).moment).map Problem.error =
        if c.isCancelled (World.run now es).moment then some (.internal "execution cancelled")
        else if c.isDone (World.run now es).moment then
          some (.internal "execution deadline exceeded")
        else none := by
  have h := Records.run now es
  refine ⟨h.length, fun i c hc => ⟨h.existsUnique_root hc, fun root ds hi => ?_⟩,
    fun i j c d ds hc hd hj => (h.of_descends hj hc hd).2.2, fun more i c hc => ?_,
    fun c _ => map_problem? c _⟩
  · refine ⟨h.deadline_eq hi hc, h.isCancelled_iff hi hc, h.isDone_iff hi hc,
      fun j d ds' hd hj => h.isCancelled_eq hi hc hj hd, fun j root' ds' hj hroot => ?_⟩
    rw [World.run, List.foldl_append]
    exact h.isCancelled_step_cancel hi hc hj hroot
  · have hprecedes := World.precedes_run now es more
    refine ⟨?_, hprecedes.isDone⟩
    obtain ⟨rest, hrest⟩ := hprecedes.contexts
    rw [← hrest]
    exact getElem?_append_of_some hc rest

/-- Two roots, of which the first has a child and a grandchild and the second a clone. -/
def cousins : List Event :=
  [.create, .withDeadline 0 10, .create, .withTimeout 1 3, .clone 2, .cancel 3]

/-- The grandchild has the earlier of two deadlines. When it is cancelled its root is, and the clone
is not. -/
theorem run_lineage_cousins :
    (Chronicle.run 0 cousins).StemsFrom 0 3 [10, 3] ∧
    (World.run 0 cousins).contexts[3]? = some ⟨1, [10, 3].min?⟩ ∧
    (⟨1, none⟩ : Context).isCancelled (World.run 0 cousins).moment = true ∧
    (⟨2, none⟩ : Context).isCancelled (World.run 0 cousins).moment = false := by
  have hroot : (Chronicle.run 0 cousins).StemsFrom 0 0 [] := ⟨rfl, .self (by decide)⟩
  have hchild : (Chronicle.run 0 cousins).origins[1]? = some (.derived 0 (some 10)) := rfl
  have hgrandchild : (Chronicle.run 0 cousins).origins[3]? = some (.derived 1 (some 3)) := rfl
  have hdescends : (Chronicle.run 0 cousins).StemsFrom 0 3 [10, 3] :=
    ⟨rfl, (hroot.2.step hchild).step hgrandchild⟩
  have hcontexts := (run_lineage 0 cousins).2.1
  have hcancelled := ((hcontexts 0 ⟨1, none⟩ rfl).2 0 [] hroot).2.1
  exact ⟨hdescends, rfl, hcancelled.2 ⟨3, by decide, [10, 3], hdescends⟩, by decide⟩

end ResourceEngine.Lineage
