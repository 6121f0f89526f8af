import Mathlib.Algebra.GroupWithZero.Nat
import Mathlib.Data.List.Basic
import ResourceEngine.Regex.AutomatonSize

/-!
# Bounds of the size of automata

What an expression adds to an automaton is bounded by the sum of what its parts add, wherever in the
automaton they stand. The states of a set are bounded by the ranges of its sequences of octets; that
states may be remembered only makes them fewer.
-/

namespace ResourceEngine.Regex

namespace Draft

@[simp] theorem size_add (d : Draft) (n : Nat) : (d.add n).size = d.size + stateSize * n := by
  simp only [size, add, Nat.mul_add]
  omega

@[simp] theorem size_addArcs (d : Draft) (n : Nat) :
    (d.addArcs n).size = d.size + stateSize + arcSize * n := by
  simp only [size, addArcs, Nat.mul_add]
  omega

@[simp] theorem size_link (d : Draft) (n : Nat) : (d.link n).size = d.size + linkSize * n := by
  simp only [size, link]
  omega

end Draft

theorem Counted.size_le_goOn (c : Counted) : c.draft.size ≤ c.goOn.size := by
  unfold Counted.goOn
  split
  next => exact Draft.size_link .. ▸ Nat.le_add_right ..
  next => exact Nat.le_refl _

namespace Fragment

/-- A part adds at most `n` octets, the way to what follows it included. -/
def Adds (p : Fragment) (n : Nat) : Prop :=
  ∀ d, ∃ c, p d = some c ∧ c.goOn.size ≤ d.size + n

theorem Adds.mono {p : Fragment} {m n : Nat} (hp : p.Adds m) (h : m ≤ n) : p.Adds n :=
  fun d => (hp d).imp fun _ hc => ⟨hc.1, Nat.le_trans hc.2 (Nat.add_le_add_left h _)⟩

theorem adds_states (n : Nat) : Adds (states n) (stateSize * n) :=
  fun d => ⟨_, rfl, Nat.le_of_eq (Draft.size_add d n)⟩

variable {p q : Fragment} {m n : Nat}

theorem Adds.andThen (hp : p.Adds m) (hq : q.Adds n) : (p.andThen q).Adds (m + n) := by
  intro d
  obtain ⟨c, hc, hm⟩ := hp d
  obtain ⟨c', hc', hn⟩ := hq c.goOn
  refine ⟨c', ?_, by omega⟩
  rw [Fragment.andThen, hc]
  exact hc'

theorem Adds.anyTimes (hp : p.Adds n) (takesSomething : Bool) :
    (p.anyTimes takesSomething).Adds (n + 3 * stateSize + 4 * linkSize) := by
  intro d
  cases takesSomething with
  | true =>
    obtain ⟨c, hc, hn⟩ := hp (d.add 1)
    refine ⟨⟨c.goOn.link 1, true⟩, by simp [Fragment.anyTimes, hc], ?_⟩
    rw [Draft.size_add] at hn
    show ((c.goOn.link 1).link 1).size ≤ _
    rw [Draft.size_link, Draft.size_link]
    omega
  | false =>
    obtain ⟨c, hc, hn⟩ := hp d
    refine ⟨⟨(c.goOn.add 3).link 4, false⟩, by simp [Fragment.anyTimes, hc], ?_⟩
    show ((c.goOn.add 3).link 4).size ≤ _
    rw [Draft.size_link, Draft.size_add]
    omega

end Fragment

/-! ### Sets of characters -/

/-- The number of ranges in some sequences. -/
def rangeCount (sequences : List (List OctetRange)) : Nat := (sequences.map List.length).sum

/-- A state adds what it takes, or nothing if it is remembered. -/
theorem size_remember_le (places : Nat) (key : List Nat) (counted : Draft × StateMemory)
    (grow : Draft → Draft) {n : Nat} (hgrow : (grow counted.1).size = counted.1.size + n) :
    (remember places key grow counted).2.1.size ≤ counted.1.size + n := by
  unfold remember
  dsimp only
  split
  · exact Nat.le_add_right ..
  · exact Nat.le_of_eq hgrow

/-- Every group takes a range off each of its sequences. -/
theorem rangeCount_groupHeads_le (sequences : List (List OctetRange)) :
    ((groupHeads sequences).map fun group => rangeCount group.2).sum +
      (groupHeads sequences).length ≤ rangeCount sequences := by
  fun_induction groupHeads sequences with
  | case1 => exact Nat.le_refl 0
  | case2 rest ih => simpa [rangeCount] using ih
  | case3 tail rest r tails groups h ih =>
    simp only [rangeCount, List.map_cons, List.sum_cons, List.length_cons, h] at ih ⊢
    omega
  | case4 r tail rest r' tails groups h hne ih =>
    simp only [rangeCount, List.map_cons, List.map_nil, List.sum_cons, List.sum_nil,
      List.length_cons, h] at ih ⊢
    omega
  | case5 r tail rest h ih => simp [rangeCount]

/-- The octets that a range can add: a state and a way out of it. -/
def rangeSize : Nat := stateSize + arcSize

/-- What the steps of a fold add, each in proportion to what it takes, the fold adds in all. -/
theorem size_foldl_le {σ α : Type} (size : σ → Nat) (f : σ → α → σ) (count : α → Nat) {k : Nat}
    (hf : ∀ s a, size (f s a) ≤ size s + k * count a) (as : List α) (s : σ) :
    size (as.foldl f s) ≤ size s + k * (as.map count).sum := by
  induction as generalizing s with
  | nil => exact Nat.le_add_right ..
  | cons a as ih =>
    rw [List.foldl_cons, List.map_cons, List.sum_cons, Nat.mul_add, ← Nat.add_assoc]
    exact Nat.le_trans (ih _) (Nat.add_le_add_right (hf s a) _)

/-- The state of some sequences, the states after it included, adds no more than their ranges can.
-/
theorem size_treeState_le (target n : Nat) (sequences : List (List OctetRange))
    (counted : Draft × StateMemory) :
    (treeState target n sequences counted).2.1.size ≤
      counted.1.size + rangeSize * rangeCount sequences := by
  induction n generalizing sequences counted with
  | zero => exact Nat.le_add_right ..
  | succ n ih =>
    have hranges := rangeCount_groupHeads_le sequences
    rw [treeState]
    dsimp only
    split
    next => exact Nat.le_add_right ..
    next hsome =>
      have hpos : 0 < (groupHeads sequences).length :=
        List.length_pos_iff.2 (by simpa using hsome)
      refine Nat.le_trans
        (size_remember_le _ _ _ _ ((Draft.size_addArcs ..).trans (Nat.add_assoc ..))) ?_
      -- the groups' own states come first, and then the state that chooses between them
      refine Nat.le_trans (Nat.add_le_add_right (size_foldl_le
        (fun state : List Nat × Draft × StateMemory => state.2.1.size) _
        (fun group : OctetRange × List (List OctetRange) => rangeCount group.2)
        (fun state group => ih group.2 state.2) _ _) _) ?_
      simp only [rangeSize, stateSize, arcSize]
      omega

/-- Backward, every range is a state of its own. -/
theorem size_chainState_le (target : Nat) (sequence : List OctetRange)
    (counted : Draft × StateMemory) :
    (chainState target sequence counted).2.1.size ≤ counted.1.size + rangeSize * sequence.length := by
  have hstep (state : Nat × Draft × StateMemory) (r : OctetRange) :
      (remember backwardPlaces [state.1, r.lo.toNat, r.hi.toNat] (·.add 1) state.2).2.1.size ≤
        state.2.1.size + rangeSize * 1 :=
    Nat.le_trans (size_remember_le _ _ _ _ (Draft.size_add _ 1))
      (Nat.add_le_add_left (Nat.mul_le_mul_right 1 (Nat.le_add_right stateSize arcSize)) _)
  have hsum : (sequence.map fun _ => 1).sum = sequence.length := by
    rw [List.map_const', List.sum_replicate_nat, Nat.mul_one]
  rw [← hsum]
  exact size_foldl_le (fun state : Nat × Draft × StateMemory => state.2.1.size) _ _ hstep sequence
    (target, counted)

theorem size_foldl_chainState_le (target : Nat) (sequences : List (List OctetRange))
    (counted : Draft × StateMemory) :
    (sequences.foldl (fun counted sequence => (chainState target sequence counted).2)
      counted).1.size ≤ counted.1.size + rangeSize * rangeCount sequences :=
  size_foldl_le (fun counted : Draft × StateMemory => counted.1.size) _ _
    (fun counted sequence => size_chainState_le target sequence counted) sequences counted

theorem Fragment.adds_oneCharacter (forward : Bool) {s : CharSet} (hs : s.isAscii = false) :
    (oneCharacter forward s).Adds (2 * stateSize + rangeSize * rangeCount s.octetSequences +
      linkSize * s.octetSequences.length) := by
  intro d
  rw [oneCharacter, hs, if_neg Bool.false_ne_true]
  cases forward with
  | true =>
    refine ⟨_, rfl, ?_⟩
    have htree := size_treeState_le d.states 4 s.octetSequences (d.add 1, ∅)
    show (treeState d.states 4 s.octetSequences (d.add 1, ∅)).2.1.size ≤ _
    rw [Draft.size_add] at htree
    omega
  | false =>
    refine ⟨_, rfl, ?_⟩
    have hchains := size_foldl_chainState_le (d.states + 1) s.octetSequences (d.add 2, ∅)
    rw [Draft.size_add] at hchains
    show (Draft.link _ _).size ≤ _
    rw [Draft.size_link]
    omega

/-! ### Expressions -/

/-- In the given direction, the expression adds at most `n` octets. -/
def Adds (forward : Bool) (r : Regex) (n : Nat) : Prop :=
  (Fragment.alternation forward r.branches (fragments forward r)).Adds n

section

variable {forward : Bool} {r s : Regex} {m n : Nat}

theorem adds_assertion (a : Assertion) : (Regex.assertion a).Adds forward stateSize :=
  Fragment.adds_states 1

theorem adds_literal (cs : List Char) :
    (Regex.literal cs).Adds forward (stateSize * (cs.map Char.utf8Size).sum) := by
  have hsum : cs.foldl (fun n c => n + c.utf8Size) 0 = (cs.map Char.utf8Size).sum := by
    rw [List.sum_eq_foldl, List.foldl_map]
  rw [← hsum]
  exact Fragment.adds_states _

theorem adds_set {octets : Bool} {s : CharSet} (hs : s.isAscii = false) :
    (Regex.set octets s).Adds forward (2 * stateSize + rangeSize * rangeCount s.octetSequences +
      linkSize * s.octetSequences.length) :=
  Fragment.adds_oneCharacter forward hs

theorem Adds.seq (hr : r.Adds forward m) (hs : s.Adds forward n) :
    (Regex.seq r s).Adds forward (m + n) := by
  cases forward with
  | true => exact hr.andThen hs
  | false => exact Nat.add_comm m n ▸ hs.andThen hr

theorem Adds.anyTimes {greedy : Bool} (hr : r.Adds forward n) :
    (Regex.times r 0 none greedy).Adds forward (n + 3 * stateSize + 4 * linkSize) :=
  Fragment.Adds.anyTimes hr r.takesSomething

/-- Expressions in sequence add what each of them adds, and one state if there are none. -/
theorem adds_ofParts {rs : List Regex} {weight : Regex → Nat}
    (h : ∀ r ∈ rs, r.Adds forward (weight r)) :
    (ofParts rs).Adds forward (stateSize + (rs.map weight).sum) := by
  induction rs with
  | nil => exact Fragment.adds_states 1
  | cons r rs ih =>
    obtain ⟨hr, hrs⟩ := List.forall_mem_cons.1 h
    cases rs with
    | nil => exact Fragment.Adds.mono hr (by simp)
    | cons s rs =>
      refine Fragment.Adds.mono (hr.seq (ih hrs)) ?_
      simp only [List.map_cons, List.sum_cons]
      omega

/-- The octets of a literal, or what any other expression adds at most. -/
def weight (other : Nat) : Regex → Nat
  | .literal cs => stateSize * (cs.map Char.utf8Size).sum
  | _ => other

theorem sum_weight_joinLiterals (other : Nat) (rs : List Regex) :
    ((joinLiterals rs).map (weight other)).sum = (rs.map (weight other)).sum := by
  induction rs with
  | nil => rfl
  | cons r rs ih =>
    cases r with
    | literal cs =>
      rw [joinLiterals, List.map_cons, List.sum_cons, ← ih]
      split
      next ds rest h => simp [h, weight, Nat.mul_add, Nat.add_assoc]
      next => simp
    | _ => simp only [joinLiterals, List.map_cons, List.sum_cons, ih]

/-- What holds of some expressions, and of every literal, holds of them when literals are joined. -/
theorem forall_mem_joinLiterals {P : Regex → Prop} {rs : List Regex}
    (hliteral : ∀ cs, P (.literal cs)) (h : ∀ r ∈ rs, P r) : ∀ r ∈ joinLiterals rs, P r := by
  induction rs with
  | nil => exact h
  | cons r rs ih =>
    obtain ⟨hr, hrs⟩ := List.forall_mem_cons.1 h
    have hrest := ih hrs
    cases r with
    | literal cs =>
      rw [joinLiterals]
      split
      next ds rest heq =>
        rw [heq] at hrest
        exact List.forall_mem_cons.2 ⟨hliteral _, (List.forall_mem_cons.1 hrest).2⟩
      next => exact List.forall_mem_cons.2 ⟨hr, hrest⟩
    | _ => exact List.forall_mem_cons.2 ⟨hr, hrest⟩

/-- A sequence adds what its parts add. -/
theorem adds_concat {rs : List Regex} {other : Nat}
    (h : ∀ r ∈ rs.flatMap parts, r.Adds forward (weight other r)) :
    (concat rs).Adds forward (stateSize + ((rs.flatMap parts).map (weight other)).sum) := by
  rw [← sum_weight_joinLiterals]
  exact adds_ofParts (forall_mem_joinLiterals adds_literal h)

theorem parts_ofParts {rs : List Regex} (h : ∀ r ∈ rs, parts r = [r]) : parts (ofParts rs) = rs := by
  induction rs with
  | nil => rfl
  | cons r rs ih =>
    obtain ⟨hr, hrs⟩ := List.forall_mem_cons.1 h
    cases rs with
    | nil => exact hr
    | cons s rs => exact congrArg (r :: ·) (ih hrs)

/-- The parts of a sequence of expressions that are parts themselves. -/
theorem parts_concat {rs : List Regex} (h : ∀ r ∈ rs, parts r = [r]) :
    parts (concat rs) = joinLiterals rs := by
  have hflat : rs.flatMap parts = rs := by
    rw [List.flatMap_congr h]
    exact List.flatMap_singleton' rs
  rw [concat, hflat]
  exact parts_ofParts (forall_mem_joinLiterals (fun _ => rfl) h)

/-- An expression is small if it is in both directions, with the states around it. -/
theorem isSmall_of_adds (h : ∀ forward, r.Adds forward n) (hn : n + 8 * stateSize ≤ sizeLimit) :
    r.isSmall = true := by
  have hgroup (forward : Bool) : (Regex.capture 0 r).Adds forward (n + 2 * stateSize) := by
    cases forward with
    | true =>
      have h' := ((Fragment.adds_states 1).andThen (h true)).andThen (Fragment.adds_states 1)
      exact (by omega : stateSize * 1 + n + stateSize * 1 = n + 2 * stateSize) ▸ h'
    | false => exact (h false).mono (Nat.le_add_right ..)
  have hsize (forward : Bool) : (automatonSize? forward r).any (· ≤ sizeLimit) = true := by
    have hstart (anchored : Bool) : (if anchored then (⟨1, 0⟩ : Draft)
        else ((⟨2, 0⟩ : Draft).addArcs 1).link 2).size ≤ 5 * stateSize := by
      cases anchored <;> decide
    have hstart := hstart (if forward then r.beginsAtStart else r.endsAtEnd)
    obtain ⟨c, hc, hle⟩ := (hgroup forward).andThen (Fragment.adds_states 1)
      (if (if forward then r.beginsAtStart else r.endsAtEnd) then ⟨1, 0⟩
        else ((⟨2, 0⟩ : Draft).addArcs 1).link 2)
    have hend := c.size_le_goOn
    rw [automatonSize?, hc]
    simp only [Option.map_some, Option.any_some, decide_eq_true_eq]
    omega
  simp [isSmall, hsize]

end

end ResourceEngine.Regex
