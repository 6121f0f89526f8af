import Mathlib.Data.Nat.Bitwise
import ResourceEngine.Regex.Reduced

/-!
# What sequences reach

A sequence in reduced form reaches what its parts reach one after another. Anchors keep one position
each. A repetition of one character reaches what runs of such characters lead to.
-/

namespace ResourceEngine.Regex

/-- A match of the expression begins at the one position and ends at the other. -/
def Matches (r : Regex) (text : List Char) (i j : Nat) : Prop :=
  (reach text r (1 <<< i)).testBit j = true

instance (r : Regex) (text : List Char) (i j : Nat) : Decidable (Matches r text i j) :=
  inferInstanceAs (Decidable (_ = true))

section

variable {text : List Char}

/-- The positions that expressions reach one after another. -/
def reachAll (text : List Char) (rs : List Regex) (ps : Positions) : Positions :=
  rs.foldl (fun ps r => reach text r ps) ps

@[simp] theorem reachAll_nil (text : List Char) (ps : Positions) : reachAll text [] ps = ps := rfl

@[simp] theorem reachAll_cons (text : List Char) (r : Regex) (rs : List Regex) (ps : Positions) :
    reachAll text (r :: rs) ps = reachAll text rs (reach text r ps) := rfl

@[simp] theorem reachAll_append (text : List Char) (rs ss : List Regex) (ps : Positions) :
    reachAll text (rs ++ ss) ps = reachAll text ss (reachAll text rs ps) :=
  List.foldl_append

theorem reach_seq (r s : Regex) (ps : Positions) :
    reach text (.seq r s) ps = reach text s (reach text r ps) := rfl

theorem reach_literal_cons (c : Char) (cs : List Char) (ps : Positions) :
    reach text (.literal (c :: cs)) ps = reach text (.literal cs) (reach text (.literal [c]) ps) :=
  rfl

theorem reach_literal_append (cs ds : List Char) (ps : Positions) :
    reach text (.literal (cs ++ ds)) ps = reach text (.literal ds) (reach text (.literal cs) ps) := by
  induction cs generalizing ps with
  | nil => rfl
  | cons c cs ih => rw [List.cons_append, reach_literal_cons, ih, ← reach_literal_cons]

theorem reach_ofParts (rs : List Regex) (ps : Positions) :
    reach text (ofParts rs) ps = reachAll text rs ps := by
  induction rs generalizing ps with
  | nil => rfl
  | cons r rs ih =>
    cases rs with
    | nil => rfl
    | cons s rs => exact ih (reach text r ps)

theorem reachAll_parts (r : Regex) (ps : Positions) : reachAll text r.parts ps = reach text r ps := by
  induction r generalizing ps with
  | empty => rfl
  | seq r s _ ihs => rw [parts, reachAll_cons, ihs, reach_seq]
  | _ => rfl

theorem reachAll_joinLiterals (rs : List Regex) (ps : Positions) :
    reachAll text (joinLiterals rs) ps = reachAll text rs ps := by
  induction rs generalizing ps with
  | nil => rfl
  | cons r rs ih =>
    cases r with
    | literal cs =>
      rw [joinLiterals, reachAll_cons, ← ih]
      split
      next ds rest h => rw [h, reachAll_cons, reachAll_cons, reach_literal_append]
      next => rfl
    | _ => exact ih _

/-- A sequence reaches what its parts reach in order. -/
theorem reach_concat (rs : List Regex) (ps : Positions) :
    reach text (concat rs) ps = reachAll text rs ps := by
  rw [concat, reach_ofParts, reachAll_joinLiterals]
  induction rs generalizing ps with
  | nil => rfl
  | cons r rs ih => rw [List.flatMap_cons, reachAll_append, reachAll_parts, ih, reachAll_cons]

/-! ### Anchors -/

theorem between_textStart_of_some (c : Char) (cs : List Char) :
    Positions.between (Assertion.holds .textStart) (some c) cs = 0 := by
  induction cs generalizing c with
  | nil => rfl
  | cons d cs ih => simp [Positions.between, ih, Assertion.holds]

theorem between_textEnd (before : Option Char) (cs : List Char) :
    Positions.between (Assertion.holds .textEnd) before cs = 1 <<< cs.length := by
  induction cs generalizing before with
  | nil => rfl
  | cons c cs ih => simp [Positions.between, ih, Assertion.holds, Nat.shiftLeft_succ]

theorem reach_textStart (ps : Positions) : reach text (.assertion .textStart) ps = ps &&& 1 := by
  show ps &&& Positions.between (Assertion.holds .textStart) none text = ps &&& 1
  cases text with
  | nil => rfl
  | cons c cs => simp [Positions.between, between_textStart_of_some, Assertion.holds]

theorem reach_textEnd (ps : Positions) :
    reach text (.assertion .textEnd) ps = ps &&& 1 <<< text.length := by
  rw [← between_textEnd none text]
  rfl

theorem iterate_zero {step : Positions → Positions} (hstep : step 0 = 0) (n : Nat) :
    iterate step n 0 = 0 := by
  cases n <;> simp [iterate, hstep]

theorem closure_zero {step : Positions → Positions} (hstep : step 0 = 0) (n : Nat) :
    closure step n 0 0 = 0 := by
  cases n <;> simp [closure, hstep]

theorem Route.reach_zero (length : Nat) (r : Route) : r.reach length 0 = 0 := by
  induction r with
  | stay => rfl
  | step places => simp [Route.reach]
  | stand places => simp [Route.reach]
  | seq r s ihr ihs => simp [Route.reach, ihr, ihs]
  | alt r s ihr ihs => simp [Route.reach, ihr, ihs]
  | times r least most ih =>
    simp only [Route.reach, iterate_zero ih]
    exact closure_zero ih _

/-- From nowhere nothing is reached. -/
theorem reach_zero (r : Regex) : reach text r 0 = 0 := Route.reach_zero ..

section Anchored

variable {r : Regex}

/-- The expression between the start and the end of a text. -/
def anchored (r : Regex) : Regex :=
  concat [.empty, .assertion .textStart, r, .assertion .textEnd]

theorem reach_anchored (r : Regex) (ps : Positions) :
    reach text (anchored r) ps = reach text r (ps &&& 1) &&& 1 <<< text.length := by
  have hempty (ps : Positions) : reach text .empty ps = ps := rfl
  simp only [anchored, reach_concat, reachAll_cons, reachAll_nil, hempty, reach_textStart,
    reach_textEnd]

/-- Between anchors, a match goes from the start of the text to its end. -/
theorem matches_anchored {i j : Nat} (h : Matches (anchored r) text i j) :
    i = 0 ∧ j = text.length := by
  rw [Matches, reach_anchored, Nat.testBit_and, Bool.and_eq_true] at h
  obtain ⟨hr, hj⟩ := h
  constructor
  · cases i with
    | zero => rfl
    | succ i =>
      have hnone : (1 <<< (i + 1) &&& 1 : Nat) = 0 := by simp [Nat.shiftLeft_succ]
      rw [hnone, reach_zero] at hr
      simp at hr
  · simpa [Nat.one_shiftLeft, Nat.testBit_two_pow, eq_comm] using hj

/-- Between anchors, a text has a match exactly if there is one from its start to its end. -/
theorem isMatch_anchored : isMatch (anchored r) text ↔ Matches (anchored r) text 0 text.length := by
  have hodd (n : Nat) : (2 <<< n) - 1 &&& 1 = 1 := by
    have hpos := Nat.two_pow_pos n
    rw [Nat.shiftLeft_eq, Nat.and_one_is_mod]
    omega
  have hbit (x n : Nat) : (x &&& 1 <<< n != 0) = true ↔ (x &&& 1 <<< n).testBit n = true := by
    rw [Nat.one_shiftLeft, Nat.and_two_pow]
    cases x.testBit n <;> simp
  have hall : reach text (anchored r) (Positions.all text) = reach text (anchored r) (1 <<< 0) := by
    rw [reach_anchored, reach_anchored, Positions.all, hodd]
    rfl
  rw [isMatch, Matches, hall, reach_anchored]
  exact hbit _ _

end Anchored

/-! ### Characters -/

theorem testBit_accepted (p : Char → Bool) (text : List Char) (i : Nat) :
    (Positions.accepted p text).testBit i = text[i]?.any p := by
  induction text generalizing i with
  | nil => simp [Positions.accepted]
  | cons c cs ih =>
    cases i with
    | zero => cases hc : p c <;> simp [Positions.accepted, hc]
    | succ i =>
      have htail (n : Nat) : (2 * n + if p c then 1 else 0) / 2 = n := by split <;> omega
      rw [Positions.accepted, Nat.testBit_succ, htail, ih]
      rfl

/-- Taking a character moves by one from where one may be taken. -/
theorem testBit_step {places ps : Positions} {j : Nat} :
    ((ps &&& places) <<< 1).testBit j = true ↔
      ∃ i, j = i + 1 ∧ ps.testBit i = true ∧ places.testBit i = true := by
  rw [Nat.testBit_shiftLeft, Nat.testBit_and, Bool.and_eq_true, Bool.and_eq_true,
    decide_eq_true_eq]
  constructor
  · rintro ⟨hj, hps, hplaces⟩
    exact ⟨j - 1, by omega, hps, hplaces⟩
  · rintro ⟨i, rfl, hps, hplaces⟩
    exact ⟨by omega, hps, hplaces⟩

theorem testBit_reach_literal {c : Char} {ps : Positions} {j : Nat} :
    (reach text (.literal [c]) ps).testBit j = true ↔
      ∃ i, j = i + 1 ∧ ps.testBit i = true ∧ text[i]? = some c := by
  have hplace (i : Nat) :
      (Positions.accepted (· == c) text).testBit i = true ↔ text[i]? = some c := by
    simp [testBit_accepted, Option.any_eq_true]
  simp only [← hplace]
  exact testBit_step

theorem testBit_reach_set {octets : Bool} {s : CharSet} {ps : Positions} {j : Nat} :
    (reach text (.set octets s) ps).testBit j = true ↔
      ∃ i, j = i + 1 ∧ ps.testBit i = true ∧ text[i]?.any s.contains = true := by
  simp only [← testBit_accepted]
  exact testBit_step

/-! ### Runs of characters -/

/-- What a repetition of one character has found so far: the newest positions are among those
reached, and from the others it has gone on already. -/
structure Explored (places reached newest : Positions) : Prop where
  among : ∀ i, newest.testBit i = true → reached.testBit i = true
  gone : ∀ i, reached.testBit i = true → newest.testBit i = false → places.testBit i = true →
    reached.testBit (i + 1) = true

variable {places reached newest : Positions}

theorem testBit_fresh {next : Positions} {i : Nat} :
    (next ^^^ (next &&& reached)).testBit i = true ↔
      next.testBit i = true ∧ reached.testBit i = false := by
  rw [Nat.testBit_xor, Nat.testBit_and]
  cases next.testBit i <;> cases reached.testBit i <;> decide

/-- Going on once more keeps what is known, and goes on from all that was reached. -/
theorem Explored.step (h : Explored places reached newest) :
    Explored places (reached ||| (newest &&& places) <<< 1)
      ((newest &&& places) <<< 1 ^^^ ((newest &&& places) <<< 1 &&& reached)) ∧
    ∀ k, reached.testBit k = true → places.testBit k = true →
      (reached ||| (newest &&& places) <<< 1).testBit (k + 1) = true := by
  have hgone (k : Nat) (hk : reached.testBit k = true) (hplace : places.testBit k = true) :
      (reached ||| (newest &&& places) <<< 1).testBit (k + 1) = true := by
    rw [Nat.testBit_or, Bool.or_eq_true]
    cases hnew : newest.testBit k with
    | true => exact .inr (testBit_step.2 ⟨k, rfl, hnew, hplace⟩)
    | false => exact .inl (h.gone k hk hnew hplace)
  refine ⟨⟨fun k hk => ?_, fun k hk hnot hplace => hgone k ?_ hplace⟩, hgone⟩
  · rw [Nat.testBit_or, (testBit_fresh.1 hk).1, Bool.or_true]
  · by_contra hold
    rw [Nat.testBit_or, Bool.eq_false_iff.2 hold, Bool.false_or] at hk
    exact Bool.eq_false_iff.1 hnot (testBit_fresh.2 ⟨hk, Bool.eq_false_iff.2 hold⟩)

/-- A repetition finds only what a run of characters leads to. -/
theorem Explored.exists_run {n j : Nat} (h : Explored places reached newest)
    (hj : (closure (fun ps => (ps &&& places) <<< 1) n reached newest).testBit j = true) :
    ∃ i, i ≤ j ∧ reached.testBit i = true ∧ ∀ k, i ≤ k → k < j → places.testBit k = true := by
  induction n generalizing reached newest with
  | zero => exact ⟨j, le_rfl, hj, fun k hik hkj => by omega⟩
  | succ n ih =>
    rw [closure] at hj
    split at hj
    next => exact ⟨j, le_rfl, hj, fun k hik hkj => by omega⟩
    next =>
      obtain ⟨i, hij, hi, hrun⟩ := ih h.step.1 hj
      rw [Nat.testBit_or, Bool.or_eq_true] at hi
      rcases hi with hi | hi
      · exact ⟨i, hij, hi, hrun⟩
      · obtain ⟨i, rfl, hi, hplace⟩ := testBit_step.1 hi
        refine ⟨i, by omega, h.among i hi, fun k hik hkj => ?_⟩
        rcases Nat.eq_or_lt_of_le hik with rfl | hik
        · exact hplace
        · exact hrun k hik hkj

/-- Where nothing new is found, the reached positions are closed under going on. -/
theorem Explored.testBit_of_run {i j : Nat} (h : Explored places reached newest)
    (hdone : ∀ k, ((newest &&& places) <<< 1).testBit k = true → reached.testBit k = true)
    (hij : i ≤ j) (hi : reached.testBit i = true)
    (hrun : ∀ k, i ≤ k → k < j → places.testBit k = true) : reached.testBit j = true := by
  induction j, hij using Nat.le_induction with
  | base => exact hi
  | succ j hij ih =>
    have hj := ih fun k hik hkj => hrun k hik (by omega)
    have hplace := hrun j hij (by omega)
    cases hk : newest.testBit j with
    | true => exact hdone (j + 1) (testBit_step.2 ⟨j, rfl, hk, hplace⟩)
    | false => exact h.gone j hj hk hplace

/-- A repetition finds all that a run of characters leads to, of as many as it may take. -/
theorem Explored.testBit_closure {n i j : Nat} (h : Explored places reached newest) (hij : i ≤ j)
    (hn : j ≤ i + n) (hi : reached.testBit i = true)
    (hrun : ∀ k, i ≤ k → k < j → places.testBit k = true) :
    (closure (fun ps => (ps &&& places) <<< 1) n reached newest).testBit j = true := by
  induction n generalizing reached newest i with
  | zero =>
    obtain rfl : i = j := by omega
    exact hi
  | succ n ih =>
    rw [closure]
    split
    next hfresh =>
      refine h.testBit_of_run (fun k hk => ?_) hij hi hrun
      by_contra hnot
      have hbit := testBit_fresh.2 ⟨hk, Bool.eq_false_iff.2 hnot⟩
      rw [hfresh, Nat.zero_testBit] at hbit
      exact nomatch hbit
    next =>
      obtain ⟨hexplored, hgone⟩ := h.step
      rcases Nat.eq_or_lt_of_le hij with rfl | hlt
      · refine ih hexplored le_rfl (by omega) ?_ hrun
        rw [Nat.testBit_or, hi, Bool.true_or]
      · exact ih hexplored hlt (by omega) (hgone i hi (hrun i le_rfl hlt)) fun k hik hkj =>
          hrun k (by omega) hkj

/-- Any number of characters of a set. -/
theorem testBit_reach_times_set {octets greedy : Bool} {s : CharSet} {ps : Positions} {j : Nat}
    (hj : j ≤ text.length) :
    (reach text (.times (.set octets s) 0 none greedy) ps).testBit j = true ↔
      ∃ i, i ≤ j ∧ ps.testBit i = true ∧
        ∀ k, i ≤ k → k < j → text[k]?.any s.contains = true := by
  simp only [← testBit_accepted]
  have hexplored : Explored (Positions.accepted s.contains text) ps ps :=
    ⟨fun _ h => h, fun k hk hnot _ => absurd (hk.symm.trans hnot) (by decide)⟩
  constructor
  · exact hexplored.exists_run
  · rintro ⟨i, hij, hi, hrun⟩
    exact hexplored.testBit_closure hij (Nat.le_add_left_of_le (Nat.le_succ_of_le hj)) hi hrun

end

end ResourceEngine.Regex
