import ResourceEngine.Binary64.Shortest
import ResourceEngine.Proofs.Binary64.Rounding

/-!
# The shortest decimal is found

Eighteen digits are enough to tell a number from its neighbours, so one of the grids that are
searched has a point that reads back. The decimal that is found has a digit other than zero, has no
more than eighteen of them before the trailing zeros go, and is at most half a unit above the number.
-/

namespace ResourceEngine

namespace Decimal

/-- The number that a decimal stands for. -/
def value (d : Decimal) : ℚ := d.digits * 10 ^ d.exponent

/-- Stripping changes neither the number nor its sign, and makes the digits no more. -/
theorem strip_spec (n : ℕ) (d : Decimal) :
    (d.strip n).value = d.value ∧ (d.strip n).digits ≤ d.digits ∧
      (0 < d.digits → 0 < (d.strip n).digits) ∧ d.exponent ≤ (d.strip n).exponent := by
  induction n generalizing d with
  | zero => exact ⟨rfl, le_refl _, id, le_refl _⟩
  | succ n ih =>
    rw [strip]
    split_ifs with hzero
    · obtain ⟨hvalue, hdigits, hpos, hexponent⟩ := ih ⟨d.digits / 10, d.exponent + 1⟩
      refine ⟨hvalue.trans ?_, hdigits.trans (Nat.div_le_self ..), fun _ => hpos (by simp only; omega),
        (le_add_of_nonneg_right zero_le_one).trans hexponent⟩
      have hten : d.digits = d.digits / 10 * 10 := by omega
      have hten' : (d.digits : ℚ) = (d.digits / 10 : ℕ) * 10 := by exact_mod_cast hten
      rw [value, value, hten', zpow_add_one₀ (by norm_num)]
      ring
    · exact ⟨rfl, le_refl _, id, le_refl _⟩

end Decimal

namespace Binary64

/-! ### The leading digit -/

theorem zpow_length_toDigits_bounds {n : ℕ} (hn : n ≠ 0) :
    (10 : ℚ) ^ (((Nat.toDigits 10 n).length : ℤ) - 1) ≤ n ∧
      (n : ℚ) < 10 ^ (((Nat.toDigits 10 n).length : ℤ) - 1 + 1) := by
  obtain ⟨len, hlen⟩ : ∃ len, (Nat.toDigits 10 n).length = len + 1 :=
    Nat.exists_eq_succ_of_ne_zero (List.length_pos_iff.2 Nat.toDigits_ne_nil).ne'
  have hexponent : ((len + 1 : ℕ) : ℤ) - 1 = len := by push_cast; ring
  rw [hlen, hexponent]
  constructor
  · rw [zpow_natCast]
    have hlower : 10 ^ len ≤ n := by
      rcases Nat.eq_zero_or_pos len with rfl | hpos
      · rw [pow_zero]
        omega
      · by_contra hlt
        have := (Nat.length_toDigits_le_iff (by omega) hpos).2 (not_le.1 hlt)
        omega
    exact_mod_cast hlower
  · have hupper := (Nat.length_toDigits_le_iff (b := 10) (by omega) (Nat.succ_pos len)).1 hlen.le
    rw [← Nat.cast_succ, zpow_natCast]
    exact_mod_cast hupper

/-- Powers of ten on either side scale a comparison. -/
theorem mul_pow_le_mul_pow_iff {num den : ℕ} (hden : 0 < den) (e : ℤ) :
    den * Nat.pow 10 e.toNat ≤ num * Nat.pow 10 (-e).toNat ↔ (10 : ℚ) ^ e ≤ num / den := by
  have hden' : (0 : ℚ) < den := by exact_mod_cast hden
  rw [← Nat.cast_le (α := ℚ), le_div_iff₀ hden', Nat.pow_eq, Nat.pow_eq]
  obtain ⟨n, rfl | rfl⟩ := e.eq_nat_or_neg
  · simp [mul_comm]
  · rw [zpow_neg, zpow_natCast, inv_mul_le_iff₀ (by positivity)]
    simp [mul_comm]

theorem decimalExponent_bounds {num den : ℕ} (hnum : num ≠ 0) (hden : den ≠ 0) :
    (10 : ℚ) ^ decimalExponent num den ≤ num / den ∧
      (num : ℚ) / den < 10 ^ (decimalExponent num den + 1) := by
  obtain ⟨hlower, hupper⟩ := ratio_bounds (by norm_num) (zpow_length_toDigits_bounds hnum)
    (zpow_length_toDigits_bounds hden)
  rw [sub_sub_sub_cancel_right] at hlower hupper
  exact exponent_of_estimate (mul_pow_le_mul_pow_iff (Nat.pos_of_ne_zero hden) _) hlower hupper

/-! ### Points of a grid -/

section Grid

variable (x : Binary64) (k : ℤ)

/-- The step of a grid against a quarter of a unit in the last place: the numerator. -/
def gridUp : ℕ := Nat.pow 10 k.toNat <<< (-(x.scale - 2)).toNat

/-- The step of a grid against a quarter of a unit in the last place: the denominator. -/
def gridDown : ℕ := Nat.pow 10 (-k).toNat <<< (x.scale - 2).toNat

/-- The point reads back as the number. -/
def isInside (d : ℕ) : Bool :=
  let lo := (4 * x.significand - x.lowerGap) * x.gridDown k
  let hi := (4 * x.significand + 2) * x.gridDown k
  (decide (lo < d * x.gridUp k) && decide (d * x.gridUp k < hi)) ||
    (x.significand % 2 == 0 && (lo == d * x.gridUp k || d * x.gridUp k == hi))

/-- The point of the grid at or below the number. -/
def pointBelow : ℕ := 4 * x.significand * x.gridDown k / x.gridUp k

/-- The nearer of the two points next to the number. -/
def nearer (tieUpward : Bool) : ℕ :=
  let remainder := 4 * x.significand * x.gridDown k % x.gridUp k
  if 2 * remainder < x.gridUp k then x.pointBelow k
  else if x.gridUp k < 2 * remainder then x.pointBelow k + 1
  else if tieUpward || x.pointBelow k % 2 == 1 then x.pointBelow k + 1
  else x.pointBelow k

theorem gridPoint?_eq (tieUpward : Bool) :
    x.gridPoint? tieUpward k =
      let near := x.nearer k tieUpward
      let far := if near = x.pointBelow k then x.pointBelow k + 1 else x.pointBelow k
      if x.isInside k near then some near else if x.isInside k far then some far else none := rfl

theorem gridUp_pos : 0 < x.gridUp k := Nat.shiftLeft_pos_iff.2 (Nat.pow_pos (by omega))

theorem gridDown_pos : 0 < x.gridDown k := Nat.shiftLeft_pos_iff.2 (Nat.pow_pos (by omega))

theorem gridUp_div_gridDown : (x.gridUp k : ℚ) / x.gridDown k = 10 ^ k / 2 ^ (x.scale - 2) := by
  rw [gridUp, gridDown, shiftLeft_div_shiftLeft, Nat.pow_eq, Nat.pow_eq]
  obtain ⟨n, rfl | rfl⟩ := k.eq_nat_or_neg <;> simp

/-- The nearer point is at most half a step away. -/
theorem nearer_spec (tieUpward : Bool) :
    2 * (x.nearer k tieUpward * x.gridUp k) ≤ 2 * (4 * x.significand * x.gridDown k) + x.gridUp k ∧
      2 * (4 * x.significand * x.gridDown k) ≤ 2 * (x.nearer k tieUpward * x.gridUp k) + x.gridUp k := by
  have hparts : x.gridUp k * x.pointBelow k + 4 * x.significand * x.gridDown k % x.gridUp k =
      4 * x.significand * x.gridDown k := Nat.div_add_mod ..
  have hremainder := Nat.mod_lt (4 * x.significand * x.gridDown k) (x.gridUp_pos k)
  have hnext := Nat.add_one_mul (x.pointBelow k) (x.gridUp k)
  rw [Nat.mul_comm (x.gridUp k)] at hparts
  unfold nearer
  simp only
  split_ifs <;> omega

variable {x k}

/-- Where half a step is less than a quarter of a unit, the nearer point reads back. -/
theorem isSome_gridPoint? (hx : x.significand ≠ 0) (h : x.gridUp k < 2 * x.gridDown k)
    (tieUpward : Bool) : (x.gridPoint? tieUpward k).isSome = true := by
  obtain ⟨hupper, hlower⟩ := x.nearer_spec k tieUpward
  have hgap : x.lowerGap = 1 ∨ x.lowerGap = 2 := by
    unfold lowerGap
    split_ifs <;> simp
  have hfour : 4 * 1 * x.gridDown k ≤ 4 * x.significand * x.gridDown k := by
    gcongr
    omega
  -- Half a step is less than the gap to either side, whichever neighbour is the closer one.
  have hinside : x.isInside k (x.nearer k tieUpward) = true := by
    have hlo : (4 * x.significand - x.lowerGap) * x.gridDown k < x.nearer k tieUpward * x.gridUp k := by
      rw [Nat.sub_mul]
      rcases hgap with hgap | hgap <;> rw [hgap] <;> omega
    have hhi : x.nearer k tieUpward * x.gridUp k < (4 * x.significand + 2) * x.gridDown k := by
      rw [Nat.add_mul]
      omega
    simp [isInside, hlo, hhi]
  simp [gridPoint?_eq, hinside]

theorem bounds_of_isInside {d : ℕ} (hx : x.significand ≠ 0) (h : x.isInside k d = true) :
    0 < d ∧ d * x.gridUp k ≤ (4 * x.significand + 2) * x.gridDown k := by
  have hlo : 0 < (4 * x.significand - x.lowerGap) * x.gridDown k := by
    have hgap : x.lowerGap ≤ 2 := by
      unfold lowerGap
      split_ifs <;> simp
    exact Nat.mul_pos (by omega) (x.gridDown_pos k)
  have hhi : (4 * x.significand - x.lowerGap) * x.gridDown k ≤
      (4 * x.significand + 2) * x.gridDown k := by gcongr; omega
  simp only [isInside, Bool.or_eq_true, Bool.and_eq_true, decide_eq_true_eq, beq_iff_eq] at h
  have hbetween : (4 * x.significand - x.lowerGap) * x.gridDown k ≤ d * x.gridUp k ∧
      d * x.gridUp k ≤ (4 * x.significand + 2) * x.gridDown k := by omega
  exact ⟨Nat.pos_of_mul_pos_right (hlo.trans_le hbetween.1), hbetween.2⟩

theorem nearer_eq_or (tieUpward : Bool) :
    x.nearer k tieUpward = x.pointBelow k ∨ x.nearer k tieUpward = x.pointBelow k + 1 := by
  unfold nearer
  simp only
  split_ifs <;> simp

theorem isInside_of_gridPoint? {tieUpward : Bool} {d : ℕ} (h : x.gridPoint? tieUpward k = some d) :
    x.isInside k d = true ∧ d ≤ x.pointBelow k + 1 := by
  have hnear := nearer_eq_or (x := x) (k := k) tieUpward
  rw [gridPoint?_eq] at h
  simp only at h
  split_ifs at h with hinside hbelow hfar hfar
  all_goals
    cases h
    exact ⟨by assumption, by omega⟩

/-- A point of the grid, in quarters of a unit in the last place. -/
theorem mul_ten_zpow_eq (d : ℕ) :
    (d : ℚ) * 10 ^ k = d * x.gridUp k / x.gridDown k * 2 ^ (x.scale - 2) := by
  rw [mul_div_assoc, gridUp_div_gridDown]
  field_simp

theorem mul_ten_zpow_le {d m : ℕ} (h : d * x.gridUp k ≤ m * x.gridDown k) :
    (d : ℚ) * 10 ^ k ≤ m * 2 ^ (x.scale - 2) := by
  have hdown : (0 : ℚ) < x.gridDown k := by exact_mod_cast x.gridDown_pos k
  rw [mul_ten_zpow_eq (x := x)]
  gcongr
  rw [div_le_iff₀ hdown]
  exact_mod_cast h

theorem value_eq_quarters : x.value = (4 * x.significand : ℕ) * 2 ^ (x.scale - 2) := by
  rw [value, zpow_sub₀ two_ne_zero]
  push_cast
  ring

theorem value_add_half_eq_quarters :
    x.value + 2 ^ (x.scale - 1) = (4 * x.significand + 2 : ℕ) * 2 ^ (x.scale - 2) := by
  rw [value, zpow_sub₀ two_ne_zero, zpow_sub₀ two_ne_zero]
  push_cast
  ring

/-- What a grid point that reads back is: not zero, at most half a unit above the number, and at most
one step. -/
theorem bounds_of_gridPoint? {tieUpward : Bool} {d : ℕ} (hx : x.significand ≠ 0)
    (h : x.gridPoint? tieUpward k = some d) :
    0 < d ∧ (d : ℚ) * 10 ^ k ≤ x.value + 2 ^ (x.scale - 1) ∧ ((d : ℚ) - 1) * 10 ^ k ≤ x.value := by
  obtain ⟨hinside, hnext⟩ := isInside_of_gridPoint? h
  obtain ⟨hpos, hle⟩ := bounds_of_isInside hx hinside
  refine ⟨hpos, (mul_ten_zpow_le hle).trans_eq value_add_half_eq_quarters.symm, ?_⟩
  have hbelow : x.pointBelow k * x.gridUp k ≤ 4 * x.significand * x.gridDown k :=
    Nat.div_mul_le_self ..
  calc ((d : ℚ) - 1) * 10 ^ k ≤ x.pointBelow k * 10 ^ k := by
        gcongr
        rw [sub_le_iff_le_add]
        exact_mod_cast hnext
    _ ≤ (4 * x.significand : ℕ) * 2 ^ (x.scale - 2) := mul_ten_zpow_le hbelow
    _ = x.value := value_eq_quarters.symm

end Grid

/-! ### The search -/

theorem exists_of_firstGridPoint {x : Binary64} {tieUpward : Bool} {n : ℕ} {k : ℤ}
    (h : (x.gridPoint? tieUpward (k - n)).isSome = true) :
    ∃ j d, j ≤ n ∧ x.gridPoint? tieUpward (k - j) = some d ∧
      x.firstGridPoint tieUpward n k = ⟨d, k - j⟩ := by
  induction n generalizing k with
  | zero =>
    rw [Nat.cast_zero, sub_zero] at h
    obtain ⟨d, hd⟩ := Option.isSome_iff_exists.1 h
    exact ⟨0, d, le_refl 0, by rwa [Nat.cast_zero, sub_zero], by simp [firstGridPoint, hd]⟩
  | succ n ih =>
    cases hpoint : x.gridPoint? tieUpward k with
    | some d =>
      exact ⟨0, d, Nat.zero_le _, by rwa [Nat.cast_zero, sub_zero], by simp [firstGridPoint, hpoint]⟩
    | none =>
      have hexponent (m : ℕ) : k - (m + 1 : ℕ) = k - 1 - m := by
        push_cast
        ring
      rw [hexponent] at h
      obtain ⟨j, d, hj, hd, hfirst⟩ := ih h
      refine ⟨j + 1, d, Nat.succ_le_succ hj, by rwa [hexponent], ?_⟩
      rw [firstGridPoint, hpoint, hexponent]
      exact hfirst

theorem two_pow_lt_ten_zpow : (2 : ℚ) ^ 1024 < 10 ^ ((308 : ℤ) + 1) := by
  have hpow : ((2 ^ 1024 : ℕ) : ℚ) < (10 ^ 309 : ℕ) := Nat.cast_lt.2 (by decide +kernel)
  rw [Nat.cast_pow, Nat.cast_pow] at hpow
  exact hpow

/-- The least positive number is above this power of ten. -/
theorem ten_zpow_le_two_zpow : (10 : ℚ) ^ (-324 : ℤ) ≤ 2 ^ (-1074 : ℤ) := by
  have hpow : ((2 ^ 1074 : ℕ) : ℚ) ≤ (10 ^ 324 : ℕ) := Nat.cast_le.2 (by decide +kernel)
  rw [Nat.cast_pow, Nat.cast_pow] at hpow
  rw [zpow_neg, zpow_neg]
  exact inv_anti₀ (by positivity) hpow

section Search

variable {x : Binary64} (hx : x.significand ≠ 0)

include hx

theorem value_decimalExponent_bounds :
    (10 : ℚ) ^ decimalExponent x.numerator x.denominator ≤ x.value ∧
      x.value < 10 ^ (decimalExponent x.numerator x.denominator + 1) := by
  have hnum : x.numerator ≠ 0 := fun hzero => hx (Nat.shiftLeft_eq_zero_iff.1 hzero)
  have hbounds := decimalExponent_bounds hnum x.denominator_pos.ne'
  rwa [numerator_div_denominator] at hbounds

/-- The last grid that is searched is fine enough. -/
theorem gridUp_lt_gridDown :
    x.gridUp (decimalExponent x.numerator x.denominator - 17) <
      2 * x.gridDown (decimalExponent x.numerator x.denominator - 17) := by
  obtain ⟨hlower, -⟩ := value_decimalExponent_bounds hx
  generalize decimalExponent x.numerator x.denominator = e at *
  have hs : (x.significand : ℚ) < 2 * leadingBit := by exact_mod_cast x.significand_lt
  have hdown : (0 : ℚ) < x.gridDown (e - 17) := by exact_mod_cast x.gridDown_pos _
  have hratio : (x.gridUp (e - 17) : ℚ) / x.gridDown (e - 17) < 2 := by
    rw [gridUp_div_gridDown, div_lt_iff₀ (by positivity)]
    calc (10 : ℚ) ^ (e - 17) = 10 ^ e / 10 ^ 17 := zpow_sub₀ (by norm_num) e 17
      _ ≤ x.value / 10 ^ 17 := div_le_div_of_nonneg_right hlower (by positivity)
      _ < 2 * leadingBit * 2 ^ x.scale / 10 ^ 17 :=
          div_lt_div_of_pos_right (mul_lt_mul_of_pos_right hs (by positivity)) (by positivity)
      _ = 2 * leadingBit / 10 ^ 17 * 2 ^ x.scale := by ring
      _ ≤ 1 / 2 * 2 ^ x.scale :=
          mul_le_mul_of_nonneg_right (by norm_num [leadingBit]) (by positivity)
      _ = 2 * 2 ^ (x.scale - 2) := by
          rw [zpow_sub₀ two_ne_zero]
          norm_num
          ring
  rw [div_lt_iff₀ hdown] at hratio
  exact_mod_cast hratio

/-- The shortest decimal of a positive number. -/
theorem shortest_spec (tieUpward : Bool) :
    0 < (x.shortest tieUpward).digits ∧ (x.shortest tieUpward).digits ≤ 10 ^ 18 ∧
      (x.shortest tieUpward).value ≤ x.value + 2 ^ (x.scale - 1) ∧
      decimalExponent x.numerator x.denominator - 17 ≤ (x.shortest tieUpward).exponent := by
  obtain ⟨j, d, hj, hpoint, hfirst⟩ :=
    exists_of_firstGridPoint (n := 17) (isSome_gridPoint? hx (gridUp_lt_gridDown hx) tieUpward)
  obtain ⟨hpos, hupper, hstep⟩ := bounds_of_gridPoint? hx hpoint
  obtain ⟨-, hbelow⟩ := value_decimalExponent_bounds hx
  obtain ⟨hvalue, hdigits, hpos', hexponent⟩ := Decimal.strip_spec 20
    ⟨d, decimalExponent x.numerator x.denominator - j⟩
  -- The point below has at most as many digits as there are grids down to this one.
  have hmany : d ≤ 10 ^ 18 := by
    have hlt : ((d : ℚ) - 1) * 10 ^ (decimalExponent x.numerator x.denominator - j) <
        10 ^ (j + 1) * 10 ^ (decimalExponent x.numerator x.denominator - j) := by
      refine (hstep.trans_lt hbelow).trans_eq ?_
      rw [← zpow_natCast, ← zpow_add₀ (by norm_num)]
      congr 1
      push_cast
      ring
    have hlt' : (d : ℚ) < 10 ^ (j + 1) + 1 := by
      rw [← sub_lt_iff_lt_add]
      exact lt_of_mul_lt_mul_right hlt (by positivity)
    have hle : d ≤ 10 ^ (j + 1) := Nat.lt_succ_iff.1 (by exact_mod_cast hlt')
    exact hle.trans (Nat.pow_le_pow_right (by omega) (by omega))
  rw [shortest, if_neg hx, hfirst]
  exact ⟨hpos' hpos, hdigits.trans hmany, hvalue.le.trans hupper,
    le_trans (by simp only; omega) hexponent⟩

/-- The exponent of a shortest decimal. -/
theorem exponent_shortest_bounds (hfinite : x.isFinite = true) (tieUpward : Bool) :
    -341 ≤ (x.shortest tieUpward).exponent ∧ (x.shortest tieUpward).exponent ≤ 308 := by
  obtain ⟨hpos, -, hvalue, hexponent⟩ := shortest_spec hx tieUpward
  obtain ⟨-, hbelow⟩ := value_decimalExponent_bounds hx
  constructor
  · have hs : (1 : ℚ) ≤ x.significand := by exact_mod_cast Nat.pos_of_ne_zero hx
    have hleast : (10 : ℚ) ^ (-324 : ℤ) ≤ x.value :=
      calc (10 : ℚ) ^ (-324 : ℤ) ≤ 2 ^ (-1074 : ℤ) := ten_zpow_le_two_zpow
        _ ≤ 2 ^ x.scale := zpow_le_zpow_right₀ one_le_two x.least_le_scale
        _ ≤ x.value := le_mul_of_one_le_left (by positivity) hs
    have := exponent_le_of_lt (by norm_num) hleast hbelow
    omega
  · have hdigits : (1 : ℚ) ≤ (x.shortest tieUpward).digits := by exact_mod_cast hpos
    have hlimit : x.value + 2 ^ (x.scale - 1) ≤ 2 ^ 1024 := by
      rw [isFinite, decide_eq_true_eq] at hfinite
      exact (value_add_half_le le_rfl (by decide) hfinite).trans
        (sub_le_self _ (mul_nonneg (by norm_num) (by positivity)))
    have hlt : (10 : ℚ) ^ (x.shortest tieUpward).exponent < 10 ^ ((308 : ℤ) + 1) :=
      calc (10 : ℚ) ^ (x.shortest tieUpward).exponent ≤ (x.shortest tieUpward).value :=
            le_mul_of_one_le_left (by positivity) hdigits
        _ ≤ 2 ^ 1024 := hvalue.trans hlimit
        _ < 10 ^ ((308 : ℤ) + 1) := two_pow_lt_ten_zpow
    exact Int.lt_add_one_iff.1 ((zpow_lt_zpow_iff_right₀ (by norm_num)).1 hlt)

end Search

end Binary64

end ResourceEngine
