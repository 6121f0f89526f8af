import ResourceEngine.Json.Basic
import ResourceEngine.Proofs.Binary64.Shortest

/-!
# Scaling a significand

A numeral is read as its significand times a power of ten, and both of them and their product are
rounded. No number that is written grows beyond the finite ones by this: a negative exponent divides
by a power that is not below one, and a positive one leaves the product of any number but the largest
below the last half unit, which is checked power by power.
-/

namespace ResourceEngine.Json.Numeral

open Binary64

/-- A power of ten, rounded. -/
def tenTo (k : ℕ) : Binary64 := ofDecimal false 1 k

/-- The upper end of the reals that round to the number before the largest finite one. -/
def belowLargest : ℕ := 2 ^ 1024 - 3 * 2 ^ 970

/-- The most that a shortest decimal with the exponent has as digits, unless it is that of the largest
number. -/
def mostDigits (k : ℕ) : ℕ := min (10 ^ 18) (belowLargest / 10 ^ k)

theorem denominator_tenTo_le : ∀ k < 309, (tenTo k).denominator ≤ (tenTo k).numerator := by
  decide +kernel

/-- The most digits, rounded up, times the rounded power stay below what rounds to infinity. -/
theorem mostDigits_mul_tenTo_lt : ∀ k < 309,
    (mostDigits k * 2 ^ 53 + 2 ^ (mostDigits k).log2) * (tenTo k).numerator +
        2 ^ 970 * 2 ^ 53 * (tenTo k).denominator <
      2 ^ 1024 * 2 ^ 53 * (tenTo k).denominator := by
  decide +kernel

theorem one_le_value_tenTo {k : ℕ} (hk : k ≤ 308) : 1 ≤ (tenTo k).value := by
  have hden : (0 : ℚ) < (tenTo k).denominator := by exact_mod_cast (tenTo k).denominator_pos
  rw [← numerator_div_denominator, one_le_div hden]
  exact_mod_cast denominator_tenTo_le k (by omega)

/-! ### The rounded significand -/

/-- Powers of two well below the largest finite number. -/
theorem two_pow_le_limit {n : ℕ} (hn : n ≤ 1023) : (2 : ℚ) ^ n ≤ 2 ^ 1024 - 2 ^ 970 := by
  have hle : (2 : ℚ) ^ n ≤ 2 ^ 1023 := pow_le_pow_right₀ one_le_two hn
  have hhalf : (2 : ℚ) ^ 970 ≤ 2 ^ 1023 := pow_le_pow_right₀ one_le_two (by omega)
  have hdouble : (2 : ℚ) ^ 1024 = 2 ^ 1023 * 2 := pow_succ 2 1023
  rw [le_sub_iff_add_le, hdouble, mul_two]
  exact add_le_add hle hhalf

theorem isFinite_ofInt {m : ℕ} (hm : m < 2 ^ 64) : (ofInt m).isFinite = true := by
  have hsmall : (m : ℚ) < 2 ^ 64 := by exact_mod_cast hm
  refine isFinite_ofRatio one_pos _ ?_
  rw [Int.natAbs_natCast, Nat.cast_one, div_one]
  exact hsmall.trans_le (two_pow_le_limit (by omega))

theorem value_ofInt_le {m most : ℕ} (hm : m ≤ most) (hmost : most < 2 ^ 64) :
    (ofInt m).value ≤ most + 2 ^ ((most.log2 : ℤ) - 53) := by
  have hlog : (m : ℚ) < 2 ^ ((most.log2 : ℤ) + 1) := by
    rw [← Nat.cast_succ, zpow_natCast]
    exact_mod_cast hm.trans_lt Nat.lt_log2_self
  have hround : (ofInt m).value ≤ (m : ℚ) / (1 : ℕ) + 2 ^ ((most.log2 : ℤ) - 53) :=
    value_ofRatio_le one_pos _ (by omega) (by rwa [Nat.cast_one, div_one])
      (isFinite_ofInt (hm.trans_lt hmost))
  rw [Nat.cast_one, div_one] at hround
  have hm' : (m : ℚ) ≤ most := by exact_mod_cast hm
  exact hround.trans (by linarith)

/-! ### Products and quotients -/

/-- A significand of a shortest decimal times the power of its exponent. -/
theorem isFinite_mul_tenTo {m k : ℕ} (hk : k ≤ 308) (hm : m ≤ mostDigits k) :
    ((ofInt m).mul (tenTo k)).isFinite = true := by
  have hmost : mostDigits k < 2 ^ 64 :=
    Nat.lt_of_le_of_lt (Nat.min_le_left ..) (by decide)
  have hvalue := value_ofInt_le hm hmost
  have htable := mostDigits_mul_tenTo_lt k (by omega)
  have hden := (tenTo k).denominator_pos
  refine isFinite_ofRatio (Nat.mul_pos (ofInt m).denominator_pos hden) _ ?_
  push_cast
  rw [mul_div_mul_comm, numerator_div_denominator]
  generalize mostDigits k = most at *
  generalize (tenTo k).numerator = num at *
  generalize (tenTo k).denominator = den at *
  have hden' : (0 : ℚ) < den := by exact_mod_cast hden
  have htable' : ((most : ℚ) * 2 ^ 53 + 2 ^ most.log2) * num + 2 ^ 970 * 2 ^ 53 * den <
      2 ^ 1024 * 2 ^ 53 * den := by exact_mod_cast htable
  have hround : (most : ℚ) + 2 ^ ((most.log2 : ℤ) - 53) = (most * 2 ^ 53 + 2 ^ most.log2) / 2 ^ 53 := by
    rw [zpow_sub₀ two_ne_zero, zpow_natCast, add_div, mul_div_cancel_right₀ _ (by positivity)]
    rfl
  calc (ofInt m).value * ((num : ℚ) / den)
      ≤ (most * 2 ^ 53 + 2 ^ most.log2) / 2 ^ 53 * (num / den) := by
        rw [← hround]
        gcongr
    _ = (most * 2 ^ 53 + 2 ^ most.log2) * num / (2 ^ 53 * den) := by rw [div_mul_div_comm]
    _ < 2 ^ 1024 - 2 ^ 970 := by
        rw [div_lt_iff₀ (by positivity), sub_mul, lt_sub_iff_add_lt]
        simpa only [mul_assoc] using htable'

/-- A number divided by a power of ten is finite, and less than doubled by the rounding. -/
theorem div_tenTo_spec {x : Binary64} {k t : ℕ} (hk : k ≤ 308) (ht : t ≤ 1000)
    (hx : x.value < 2 ^ t) :
    (x.div (tenTo k)).isFinite = true ∧ (x.div (tenTo k)).value < 2 ^ (t + 1) := by
  have hpower := one_le_value_tenTo hk
  have hnum : 0 < (tenTo k).numerator :=
    (tenTo k).denominator_pos.trans_le (denominator_tenTo_le k (by omega))
  have hden : 0 < x.denominator * (tenTo k).numerator := Nat.mul_pos x.denominator_pos hnum
  have hratio : ((x.numerator * (tenTo k).denominator : ℕ) : ℚ) /
      ((x.denominator * (tenTo k).numerator : ℕ) : ℚ) < 2 ^ t := by
    push_cast
    rw [mul_div_mul_comm, numerator_div_denominator, ← inv_div ((tenTo k).numerator : ℚ),
      numerator_div_denominator, ← div_eq_mul_inv]
    exact (div_le_self x.value_nonneg hpower).trans_lt hx
  have hfinite : (x.div (tenTo k)).isFinite = true :=
    isFinite_ofRatio hden _ (hratio.trans_le (two_pow_le_limit (by omega)))
  refine ⟨hfinite, ?_⟩
  have hround := value_ofRatio_le hden (x.negative != (tenTo k).negative) (t := (t : ℤ) - 1) (by omega)
    (by rwa [sub_add_cancel, zpow_natCast]) hfinite
  have hunit : (2 : ℚ) ^ ((t : ℤ) - 1 - 53) ≤ 2 ^ t := by
    rw [← zpow_natCast]
    exact zpow_le_zpow_right₀ one_le_two (by omega)
  calc (x.div (tenTo k)).value ≤ _ := hround
    _ < 2 ^ t + 2 ^ t := by linarith
    _ = 2 ^ (t + 1) := by rw [pow_succ, mul_two]

theorem isFinite_mul_tenTo_zero {x : Binary64} {t : ℕ} (ht : t ≤ 1000) (hx : x.value < 2 ^ t) :
    (x.mul (tenTo 0)).isFinite = true := by
  have hone : (tenTo 0).value = 1 := by
    have hsame : (tenTo 0).numerator = (tenTo 0).denominator := by decide +kernel
    rw [← numerator_div_denominator, hsame, div_self]
    exact_mod_cast (tenTo 0).denominator_pos.ne'
  refine isFinite_ofRatio (Nat.mul_pos x.denominator_pos (tenTo 0).denominator_pos) _ ?_
  push_cast
  rw [mul_div_mul_comm, numerator_div_denominator, numerator_div_denominator, hone, mul_one]
  exact hx.trans_le (two_pow_le_limit (by omega))

/-! ### Scaling -/

/-- One step is enough for an exponent that is not too large. -/
theorem isSome_scaled?_of_small {n : ℕ} {x : Binary64} {e : ℤ} (he : e.natAbs ≤ 308)
    (h : (if 0 ≤ e then x.mul (tenTo e.natAbs) else x.div (tenTo e.natAbs)).isFinite = true) :
    (scaled? (n + 1) x e).isSome = true := by
  unfold tenTo at h
  simp only [scaled?, if_pos he, if_pos h, Option.isSome_some]

/-- A number is scaled down, however many steps it takes. -/
theorem isSome_scaled?_of_nonpos {n t : ℕ} {x : Binary64} {e : ℤ} (hx : x.value < 2 ^ t)
    (ht : t + n ≤ 1000) (he : e ≤ 0) (hsteps : -(308 * n) < e) : (scaled? n x e).isSome = true := by
  induction n generalizing x t e with
  | zero => omega
  | succ n ih =>
    by_cases hone : e.natAbs ≤ 308
    · refine isSome_scaled?_of_small hone ?_
      split_ifs with hnonneg
      · obtain rfl : e = 0 := by omega
        exact isFinite_mul_tenTo_zero (by omega) hx
      · exact (div_tenTo_spec hone (by omega) hx).1
    · rw [scaled?, if_neg hone]
      split_ifs
      · rfl
      · omega
      · exact ih (div_tenTo_spec (le_refl 308) (by omega) hx).2 (by omega) (by omega) (by omega)

/-- A significand that fits 64 bits is scaled down. -/
theorem isSome_scaled?_ofInt {m : ℕ} (hm : m < 2 ^ 64) {e : ℤ} (he : e ≤ 0) (hsteps : -3080 < e) :
    (scaled? 10 (ofInt m) e).isSome = true := by
  have hvalue := value_ofInt_le (Nat.le_pred_of_lt hm) (by decide)
  have hlog : (2 ^ 64 - 1).log2 = 63 := by decide
  have hlt : (ofInt m).value < 2 ^ 65 := by
    refine hvalue.trans_lt ?_
    rw [Nat.pred_eq_sub_one, hlog]
    norm_num
  exact isSome_scaled?_of_nonpos hlt (by omega) he (by omega)

/-- The digits of a shortest decimal are scaled up. -/
theorem isSome_scaled?_of_nonneg {m k n : ℕ} (hk : k ≤ 308) (hm : m ≤ mostDigits k) :
    (scaled? (n + 1) (ofInt m) k).isSome = true := by
  refine isSome_scaled?_of_small (by rwa [Int.natAbs_natCast]) ?_
  rw [if_pos (Int.natCast_nonneg k), Int.natAbs_natCast]
  exact isFinite_mul_tenTo hk hm

/-- The largest finite number, whose digits have to be tried. -/
theorem isSome_scaled?_largest : ∀ negative : Bool,
    (scaled? 10 (ofInt ((ofMagnitude negative (infinityWord - 1)).shortest false).digits)
      ((ofMagnitude negative (infinityWord - 1)).shortest false).exponent).isSome = true := by
  decide +kernel

/-- The shortest decimal of a number below the largest has no more digits than are scaled up. -/
theorem digits_shortest_le {x : Binary64} (hx : x.significand ≠ 0) {tieUpward : Bool}
    (hlargest : x.magnitude + 2 ≤ infinityWord) {k : ℕ}
    (hk : (x.shortest tieUpward).exponent = k) : (x.shortest tieUpward).digits ≤ mostDigits k := by
  obtain ⟨-, hdigits, hvalue, -⟩ := shortest_spec hx tieUpward
  have hthree : (2 : ℚ) * (2 : ℕ) - 1 = 3 := by norm_num
  have hlimit := hvalue.trans (value_add_half_le (c := 2) (by decide) (by decide) hlargest)
  rw [Decimal.value, hk, zpow_natCast, hthree, le_sub_iff_add_le] at hlimit
  refine Nat.le_min.2 ⟨hdigits, (Nat.le_div_iff_mul_le (by positivity)).2 ?_⟩
  have hsum : (x.shortest tieUpward).digits * 10 ^ k + 3 * 2 ^ 970 ≤ 2 ^ 1024 :=
    (Nat.cast_le (α := ℚ)).1 (by
      simpa only [Nat.cast_add, Nat.cast_mul, Nat.cast_pow, Nat.cast_ofNat] using hlimit)
  exact Nat.le_sub_of_add_le hsum

/-- The shortest decimal of a number is scaled to a finite number. -/
theorem isSome_scaled?_shortest {x : Binary64} (hfinite : x.isFinite = true)
    (hx : x.significand ≠ 0) :
    (scaled? 10 (ofInt (x.shortest false).digits) (x.shortest false).exponent).isSome = true := by
  obtain ⟨-, hdigits, -⟩ := shortest_spec hx false
  obtain ⟨hlower, hupper⟩ := exponent_shortest_bounds hx hfinite false
  rw [isFinite, decide_eq_true_eq] at hfinite
  -- The bound of the table leaves no room for the largest number, which is computed.
  by_cases hlargest : x.magnitude = infinityWord - 1
  · rw [← x.ofMagnitude_magnitude, hlargest]
    exact isSome_scaled?_largest x.negative
  rcases le_total (x.shortest false).exponent 0 with hnonpos | hnonneg
  · exact isSome_scaled?_ofInt (hdigits.trans_lt (by decide)) hnonpos (by omega)
  · obtain ⟨k, hk⟩ := Int.eq_ofNat_of_zero_le hnonneg
    rw [hk] at hupper ⊢
    exact isSome_scaled?_of_nonneg (by omega) (digits_shortest_le hx (by omega) hk)

end ResourceEngine.Json.Numeral
