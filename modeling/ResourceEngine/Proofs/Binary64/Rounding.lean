import Mathlib.Algebra.Order.Field.Basic
import Mathlib.Algebra.Order.Field.Power
import Mathlib.Tactic.FieldSimp
import Mathlib.Tactic.Linarith
import Mathlib.Tactic.NormNum
import Mathlib.Tactic.Ring
import ResourceEngine.Binary64.Rounding

/-!
# Exact values and their rounding

The absolute value of a finite number as a rational number. A number that binary64 has is rounded to
itself, and any other grows by at most half a unit in the last place; so a quotient below the middle
between the largest finite number and the next power of two stays finite.
-/

namespace ResourceEngine.Binary64

/-! ### Words -/

/-- The word `n * bit + s` has the significand `s`, and `n` is its unit counted from the least. -/
theorem significand_of_packed {bit n s : ℕ} (hs : s < 2 * bit) (hn : n = 0 ∨ bit ≤ s) :
    (if (n * bit + s) / bit = 0 then (n * bit + s) % bit else bit + (n * bit + s) % bit) = s ∧
      max ((n * bit + s) / bit) 1 = n + 1 := by
  have hbit : 0 < bit := by omega
  by_cases hnormal : bit ≤ s
  · obtain ⟨fraction, rfl⟩ := Nat.exists_eq_add_of_le hnormal
    have hfraction : fraction < bit := by omega
    have hword : n * bit + (bit + fraction) = fraction + bit * (n + 1) := by ring
    rw [hword, Nat.add_mul_div_left _ _ hbit, Nat.add_mul_mod_self_left, Nat.div_eq_of_lt hfraction,
      Nat.mod_eq_of_lt hfraction, if_neg (by omega)]
    omega
  · obtain rfl : n = 0 := hn.resolve_right hnormal
    rw [Nat.zero_mul, Nat.zero_add, Nat.div_eq_of_lt (Nat.lt_of_not_le hnormal),
      Nat.mod_eq_of_lt (Nat.lt_of_not_le hnormal), if_pos rfl]
    omega

theorem toNat_bits_ofMagnitude (negative : Bool) {word : ℕ} (hword : word < signBit) :
    (ofMagnitude negative word).bits.toNat = (if negative then signBit else 0) + word := by
  rw [ofMagnitude, UInt64.toNat_ofNat_of_lt']
  rw [signBit] at hword ⊢
  rw [UInt64.size]
  split_ifs <;> omega

@[simp] theorem magnitude_ofMagnitude (negative : Bool) {word : ℕ} (hword : word < signBit) :
    (ofMagnitude negative word).magnitude = word := by
  rw [magnitude, toNat_bits_ofMagnitude negative hword]
  split_ifs
  · rw [Nat.add_mod_left, Nat.mod_eq_of_lt hword]
  · rw [Nat.zero_add, Nat.mod_eq_of_lt hword]

theorem ofMagnitude_magnitude (x : Binary64) : ofMagnitude x.negative x.magnitude = x := by
  have hbits : (if x.negative then signBit else 0) + x.magnitude = x.bits.toNat := by
    have hlt := x.bits.toNat_lt
    unfold negative magnitude signBit
    simp only [decide_eq_true_eq]
    split_ifs <;> omega
  rw [ofMagnitude, hbits, UInt64.ofNat_toNat]

theorem isNaN_eq_false_of_isFinite {x : Binary64} (hx : x.isFinite = true) : x.isNaN = false := by
  rw [isFinite, decide_eq_true_eq] at hx
  rw [isNaN, decide_eq_false_iff_not]
  omega

/-! ### Values -/

/-- The absolute value of a finite number. -/
def value (x : Binary64) : ℚ := x.significand * 2 ^ x.scale

theorem value_nonneg (x : Binary64) : 0 ≤ x.value := by
  unfold value
  positivity

theorem value_pos {x : Binary64} (hx : x.significand ≠ 0) : 0 < x.value := by
  have hpos : (0 : ℚ) < x.significand := by exact_mod_cast Nat.pos_of_ne_zero hx
  unfold value
  positivity

theorem least_le_scale (x : Binary64) : -1074 ≤ x.scale := by
  unfold scale
  omega

theorem significand_lt (x : Binary64) : x.significand < 2 * leadingBit := by
  have hfraction : x.fractionField < leadingBit := Nat.mod_lt _ (by decide)
  unfold significand
  split_ifs <;> omega

/-- Below the leading bit the unit is the least one. -/
theorem scale_eq_or_le_significand (x : Binary64) :
    (x.scale + 1074).toNat = 0 ∨ leadingBit ≤ x.significand := by
  unfold scale significand
  split_ifs <;> omega

theorem magnitude_eq (x : Binary64) :
    x.magnitude = (x.scale + 1074).toNat * leadingBit + x.significand := by
  have hparts : leadingBit * x.exponentField + x.fractionField = x.magnitude :=
    Nat.div_add_mod x.magnitude leadingBit
  have hscale : (x.scale + 1074).toNat = max x.exponentField 1 - 1 := by
    unfold scale
    omega
  rw [hscale, significand]
  unfold leadingBit at hparts ⊢
  split_ifs <;> omega

theorem leadingBit_mul_zpow (e : ℤ) : (leadingBit : ℚ) * 2 ^ e = 2 ^ (e + 52) := by
  rw [zpow_add₀ two_ne_zero, mul_comm]
  norm_num [leadingBit]

theorem value_lt_zpow (x : Binary64) : x.value < 2 ^ (x.scale + 52 + 1) := by
  have hs : (x.significand : ℚ) < 2 * leadingBit := by exact_mod_cast x.significand_lt
  rw [zpow_add_one₀ two_ne_zero, ← leadingBit_mul_zpow, mul_right_comm, mul_comm (leadingBit : ℚ) 2,
    value]
  gcongr

/-- A number with all digits of a significand. -/
theorem zpow_le_value {x : Binary64} (h : leadingBit ≤ x.significand) :
    2 ^ (x.scale + 52) ≤ x.value := by
  rw [← leadingBit_mul_zpow, value]
  gcongr

theorem significand_eq_zero_iff (x : Binary64) : x.significand = 0 ↔ x.magnitude = 0 := by
  have hzero := x.scale_eq_or_le_significand
  rw [magnitude_eq]
  unfold leadingBit at hzero ⊢
  omega

/-- The number with the given significand and unit. The significand may be one too large to be
packed, which is a power of two with the next unit. -/
theorem value_ofMagnitude (negative : Bool) {n s : ℕ} (hs : s ≤ 2 * leadingBit)
    (hn : n = 0 ∨ leadingBit ≤ s) (hword : n * leadingBit + s < infinityWord) :
    (ofMagnitude negative (n * leadingBit + s)).value = s * 2 ^ ((n : ℤ) - 1074) := by
  have hpacked {n s : ℕ} (hs : s < 2 * leadingBit) (hn : n = 0 ∨ leadingBit ≤ s)
      (hword : n * leadingBit + s < infinityWord) :
      (ofMagnitude negative (n * leadingBit + s)).value = s * 2 ^ ((n : ℤ) - 1074) := by
    have hsign : n * leadingBit + s < signBit := Nat.lt_trans hword (by decide)
    obtain ⟨hsignificand, hunit⟩ := significand_of_packed hs hn
    have hscale : (ofMagnitude negative (n * leadingBit + s)).scale = (n : ℤ) - 1074 := by
      rw [scale, exponentField, magnitude_ofMagnitude negative hsign, hunit]
      push_cast
      ring
    rw [value, hscale, significand, exponentField, fractionField,
      magnitude_ofMagnitude negative hsign, hsignificand]
  rcases Nat.lt_or_eq_of_le hs with hlt | rfl
  · exact hpacked hlt hn hword
  · -- The carry goes into the exponent bits, where it is one more unit and the least significand.
    have hcarry : n * leadingBit + 2 * leadingBit = (n + 1) * leadingBit + leadingBit := by ring
    rw [hcarry] at hword ⊢
    rw [hpacked (by decide) (.inr (Nat.le_refl _)) hword]
    have hunit : ((n + 1 : ℕ) : ℤ) - 1074 = (n : ℤ) - 1074 + 1 := by
      push_cast
      ring
    rw [hunit, zpow_add_one₀ two_ne_zero]
    push_cast
    ring

/-- A number whose word is at least `c` below infinity, with half a unit added. -/
theorem value_add_half_le {x : Binary64} {c : ℕ} (hc : 1 ≤ c) (hbit : c ≤ leadingBit)
    (hx : x.magnitude + c ≤ infinityWord) :
    x.value + 2 ^ (x.scale - 1) ≤ 2 ^ 1024 - (2 * c - 1) * 2 ^ 970 := by
  have hlt := x.significand_lt
  have hword := x.magnitude_eq
  have hpos : (0 : ℚ) ≤ 2 * x.significand + 1 := by positivity
  have hhalf : (2 : ℚ) ^ x.scale = 2 ^ (x.scale - 1) * 2 := by
    rw [← zpow_add_one₀ two_ne_zero, sub_add_cancel]
  have hsum : x.value + 2 ^ (x.scale - 1) = (2 * x.significand + 1) * 2 ^ (x.scale - 1) := by
    rw [value, hhalf]
    ring
  have hlarge : (2 : ℚ) ^ 1024 = 2 ^ 54 * 2 ^ 970 := pow_add 2 54 970
  rw [hsum, hlarge, ← sub_mul]
  have hscale := x.least_le_scale
  have hleading := x.scale_eq_or_le_significand
  -- At the largest unit the significand is what keeps the word below infinity, and below it half the
  -- range is left.
  by_cases htop : x.scale = 971
  · have hs : x.significand + c ≤ 2 * leadingBit := by
      rw [htop] at hword
      unfold leadingBit infinityWord at *
      omega
    have hs' : (x.significand : ℚ) + c ≤ 2 ^ 53 := by
      unfold leadingBit at hs
      exact_mod_cast hs
    have hexponent : x.scale - 1 = (970 : ℕ) := by omega
    rw [hexponent, zpow_natCast]
    gcongr
    linarith only [hs']
  · have hle : x.scale - 1 ≤ (969 : ℕ) := by
      unfold leadingBit infinityWord at *
      omega
    have hs : (x.significand : ℚ) + 1 ≤ 2 ^ 53 := by exact_mod_cast hlt
    have hc' : (c : ℚ) ≤ 2 ^ 52 := by exact_mod_cast hbit
    have hdouble : (2 : ℚ) ^ 970 = 2 * 2 ^ 969 := pow_succ' 2 969
    calc (2 * (x.significand : ℚ) + 1) * 2 ^ (x.scale - 1)
        ≤ (2 * x.significand + 1) * 2 ^ ((969 : ℕ) : ℤ) :=
          mul_le_mul_of_nonneg_left (zpow_le_zpow_right₀ one_le_two hle) hpos
      _ = (2 * x.significand + 1) * 2 ^ 969 := by rw [zpow_natCast]
      _ ≤ (2 ^ 54 - (2 * c - 1)) * 2 * 2 ^ 969 := by
          gcongr
          linarith only [hs, hc']
      _ = (2 ^ 54 - (2 * c - 1)) * 2 ^ 970 := by rw [hdouble, mul_assoc]

/-! ### Scaled ratios -/

/-- Shifting the numerator or the denominator scales the ratio by a power of two. -/
theorem shiftLeft_div_shiftLeft (num den : ℕ) (unit : ℤ) :
    ((num <<< (-unit).toNat : ℕ) : ℚ) / ((den <<< unit.toNat : ℕ) : ℚ) =
      (num : ℚ) / den / 2 ^ unit := by
  rw [Nat.shiftLeft_eq, Nat.shiftLeft_eq]
  obtain ⟨n, rfl | rfl⟩ := unit.eq_nat_or_neg
  · simp [div_div]
  · simp [mul_div_right_comm]

theorem numerator_div_denominator (x : Binary64) :
    (x.numerator : ℚ) / x.denominator = x.value := by
  have h := shiftLeft_div_shiftLeft x.significand 1 (-x.scale)
  rw [neg_neg] at h
  rw [numerator, denominator, h, value, zpow_neg, Nat.cast_one, div_one, div_inv_eq_mul]

theorem denominator_pos (x : Binary64) : 0 < x.denominator := Nat.shiftLeft_pos_iff.2 one_pos

/-- The exponents of powers around one number. -/
theorem exponent_le_of_lt {base r : ℚ} (hbase : 1 < base) {a b : ℤ} (ha : base ^ a ≤ r)
    (hb : r < base ^ (b + 1)) : a ≤ b :=
  Int.lt_add_one_iff.1 ((zpow_lt_zpow_iff_right₀ hbase).1 (ha.trans_lt hb))

/-- An exponent that is one too large at most is put right by one comparison. -/
theorem exponent_of_estimate {base r : ℚ} {e : ℤ} {p : Prop} [Decidable p]
    (hp : p ↔ base ^ e ≤ r) (hlower : base ^ (e - 1) ≤ r) (hupper : r < base ^ (e + 1)) :
    base ^ (if p then e else e - 1) ≤ r ∧ r < base ^ ((if p then e else e - 1) + 1) := by
  split_ifs with h
  · exact ⟨hp.1 h, hupper⟩
  · rw [sub_add_cancel]
    exact ⟨hlower, not_le.1 fun hle => h (hp.2 hle)⟩

/-- Bounds of a ratio from bounds of its two sides. -/
theorem ratio_bounds {base : ℚ} (hbase : 1 < base) {num den : ℚ} {a b : ℤ}
    (hnum : base ^ a ≤ num ∧ num < base ^ (a + 1)) (hden : base ^ b ≤ den ∧ den < base ^ (b + 1)) :
    base ^ (a - b - 1) ≤ num / den ∧ num / den < base ^ (a - b + 1) := by
  have hpos : 0 < base := zero_lt_one.trans hbase
  have hden' : 0 < den := (zpow_pos hpos b).trans_le hden.1
  constructor
  · rw [le_div_iff₀ hden']
    calc base ^ (a - b - 1) * den ≤ base ^ (a - b - 1) * base ^ (b + 1) := by
          gcongr
          exact hden.2.le
      _ = base ^ a := by rw [← zpow_add₀ hpos.ne']; congr 1; ring
      _ ≤ num := hnum.1
  · rw [div_lt_iff₀ hden']
    calc num < base ^ (a + 1) := hnum.2
      _ = base ^ (a - b + 1) * base ^ b := by rw [← zpow_add₀ hpos.ne']; congr 1; ring
      _ ≤ base ^ (a - b + 1) * den := by
          gcongr
          exact hden.1

theorem zpow_log2_bounds {n : ℕ} (hn : n ≠ 0) :
    (2 : ℚ) ^ (n.log2 : ℤ) ≤ n ∧ (n : ℚ) < 2 ^ ((n.log2 : ℤ) + 1) := by
  constructor
  · rw [zpow_natCast]
    exact_mod_cast Nat.log2_self_le hn
  · have hlt : n < 2 ^ (n.log2 + 1) := Nat.lt_log2_self
    rw [← Nat.cast_succ, zpow_natCast]
    exact_mod_cast hlt

theorem binaryExponent_bounds {num den : ℕ} (hnum : num ≠ 0) (hden : den ≠ 0) :
    (2 : ℚ) ^ binaryExponent num den ≤ num / den ∧
      (num : ℚ) / den < 2 ^ (binaryExponent num den + 1) := by
  obtain ⟨hlower, hupper⟩ :=
    ratio_bounds one_lt_two (zpow_log2_bounds hnum) (zpow_log2_bounds hden)
  refine exponent_of_estimate ?_ hlower hupper
  have hden' : (0 : ℚ) < den := by exact_mod_cast Nat.pos_of_ne_zero hden
  generalize (num.log2 : ℤ) - den.log2 = e
  have hshift := shiftLeft_div_shiftLeft num den e
  have hpow : (0 : ℚ) < 2 ^ e := by positivity
  have hpos : (0 : ℚ) < ((den <<< e.toNat : ℕ) : ℚ) := by
    exact_mod_cast Nat.shiftLeft_pos_iff.2 (Nat.pos_of_ne_zero hden)
  rw [← one_le_div hpow, ← hshift, one_le_div hpos, Nat.cast_le]

/-! ### The nearest integer -/

theorem roundHalfEven_le (num : ℕ) {den : ℕ} (hden : 0 < den) :
    (roundHalfEven num den : ℚ) ≤ num / den + 1 / 2 := by
  have hden' : (0 : ℚ) < den := by exact_mod_cast hden
  have hround : 2 * roundHalfEven num den * den ≤ 2 * num + den := by
    have hparts := Nat.div_add_mod num den
    unfold roundHalfEven
    simp only [Bool.or_eq_true, Bool.and_eq_true, decide_eq_true_eq, beq_iff_eq]
    split_ifs
    · calc 2 * (num / den + 1) * den = 2 * (den * (num / den)) + 2 * den := by ring
        _ ≤ 2 * num + den := by omega
    · calc 2 * (num / den) * den = 2 * (den * (num / den)) := by ring
        _ ≤ 2 * num + den := by omega
  have hround' : 2 * (roundHalfEven num den : ℚ) * den ≤ 2 * num + den := by exact_mod_cast hround
  rw [div_add_div _ _ hden'.ne' two_ne_zero, le_div_iff₀ (by positivity)]
  linarith

/-- An integer is not rounded. -/
theorem roundHalfEven_of_eq {num den s : ℕ} (hden : 0 < den) (h : (num : ℚ) / den = s) :
    roundHalfEven num den = s := by
  have hden' : (den : ℚ) ≠ 0 := by exact_mod_cast hden.ne'
  have hnum : num = s * den := by
    rw [div_eq_iff hden'] at h
    exact_mod_cast h
  subst hnum
  simp [roundHalfEven, Nat.mul_div_cancel _ hden, hden.ne]

/-- The nearest integer is not above one that the number is below. -/
theorem roundHalfEven_le_of_lt {num den s : ℕ} (hden : 0 < den) (h : (num : ℚ) / den < s) :
    roundHalfEven num den ≤ s := by
  have hround := roundHalfEven_le num hden
  have hlt : (roundHalfEven num den : ℚ) < s + 1 := by linarith
  exact Nat.lt_succ_iff.1 (by exact_mod_cast hlt)

/-- The nearest integer is not below one that the number is not below. -/
theorem le_roundHalfEven_of_le {num den s : ℕ} (hden : 0 < den) (h : (s : ℚ) ≤ num / den) :
    s ≤ roundHalfEven num den := by
  have hden' : (0 : ℚ) < den := by exact_mod_cast hden
  have hquotient : s ≤ num / den := by
    rw [le_div_iff₀ hden'] at h
    rw [Nat.le_div_iff_mul_le hden]
    exact_mod_cast h
  unfold roundHalfEven
  simp only
  split_ifs <;> omega

/-! ### The nearest number -/

section OfRatio

variable {num den : ℕ} (hden : 0 < den)

include hden

/-- A positive fraction is rounded to a significand with a unit. The significand is at most one half
above the exact one, and the unit is the least, or the fraction has all digits of a significand. -/
theorem exists_ofRatio (hnum : num ≠ 0) (negative : Bool) :
    ∃ n s : ℕ, ofRatio negative num den =
        ofMagnitude negative (min (n * leadingBit + s) infinityWord) ∧
      s ≤ 2 * leadingBit ∧ (n = 0 ∨ leadingBit ≤ s) ∧
      (s : ℚ) * 2 ^ ((n : ℤ) - 1074) ≤ num / den + 2 ^ ((n : ℤ) - 1075) ∧
      (n = 0 ∨ (2 : ℚ) ^ ((n : ℤ) - 1022) ≤ num / den) := by
  obtain ⟨hlower, hupper⟩ := binaryExponent_bounds hnum hden.ne'
  -- Exponents are counted from that of the least subnormal number.
  obtain ⟨n, hn⟩ : ∃ n : ℕ, max (binaryExponent num den - 52) (-1074) = (n : ℤ) - 1074 :=
    ⟨(max (binaryExponent num den - 52) (-1074) + 1074).toNat, by omega⟩
  have hunit : (n : ℤ) - 1074 + 1074 = n := by ring
  have hratio := shiftLeft_div_shiftLeft num den ((n : ℤ) - 1074)
  have hden' : 0 < den <<< ((n : ℤ) - 1074).toNat := Nat.shiftLeft_pos_iff.2 hden
  have hnormal : n = 0 ∨ (2 : ℚ) ^ ((n : ℤ) - 1022) ≤ num / den := by
    rcases Nat.eq_zero_or_pos n with hzero | hpos
    · exact .inl hzero
    · have hexponent : (n : ℤ) - 1022 = binaryExponent num den := by omega
      rw [hexponent]
      exact .inr hlower
  refine ⟨n, roundHalfEven (num <<< (-((n : ℤ) - 1074)).toNat) (den <<< ((n : ℤ) - 1074).toNat),
    ?_, roundHalfEven_le_of_lt hden' ?_, hnormal.imp_right fun h => le_roundHalfEven_of_le hden' ?_,
    ?_, hnormal⟩
  · rw [ofRatio, if_neg hnum]
    simp only [hn, hunit, Int.toNat_natCast]
  · rw [hratio, div_lt_iff₀ (by positivity)]
    calc (num : ℚ) / den < 2 ^ (binaryExponent num den + 1) := hupper
      _ ≤ 2 ^ (53 + ((n : ℤ) - 1074)) := zpow_le_zpow_right₀ one_le_two (by omega)
      _ = _ := by
          rw [zpow_add₀ two_ne_zero]
          norm_num [leadingBit]
  · rw [hratio, le_div_iff₀ (by positivity)]
    calc (leadingBit : ℚ) * 2 ^ ((n : ℤ) - 1074) = 2 ^ ((n : ℤ) - 1074 + 52) := leadingBit_mul_zpow _
      _ = 2 ^ ((n : ℤ) - 1022) := by
          congr 1
          ring
      _ ≤ num / den := h
  · have hround := roundHalfEven_le (num <<< (-((n : ℤ) - 1074)).toNat) hden'
    rw [hratio] at hround
    have hhalf : (2 : ℚ) ^ ((n : ℤ) - 1075) = 1 / 2 * 2 ^ ((n : ℤ) - 1074) := by
      have hexponent : (n : ℤ) - 1074 = (n : ℤ) - 1075 + 1 := by ring
      rw [hexponent, zpow_add_one₀ two_ne_zero]
      ring
    rw [hhalf]
    calc _ ≤ ((num : ℚ) / den / 2 ^ ((n : ℤ) - 1074) + 1 / 2) * 2 ^ ((n : ℤ) - 1074) := by
          gcongr
      _ = _ := by field_simp

/-- Below the middle between the largest finite number and the next power of two, the nearest number
is finite. -/
theorem isFinite_ofRatio (negative : Bool) (h : (num : ℚ) / den < 2 ^ 1024 - 2 ^ 970) :
    (ofRatio negative num den).isFinite = true := by
  by_cases hnum : num = 0
  · rw [ofRatio, if_pos hnum, isFinite, magnitude_ofMagnitude negative (by decide)]
    decide
  obtain ⟨n, s, hratio, hs, -, hround, hnormal⟩ := exists_ofRatio hden hnum negative
  have hword : n * leadingBit + s < infinityWord := by
    by_contra hle
    have hn : 2045 ≤ n := by
      unfold leadingBit infinityWord at *
      omega
    have hpos : (0 : ℚ) < 2 ^ 970 := by positivity
    -- Either the number has a digit beyond the range, or its significand was rounded up to a carry.
    rcases Nat.lt_or_eq_of_le hn with hlarge | rfl
    · have hpow : (2 : ℚ) ^ ((1024 : ℕ) : ℤ) ≤ 2 ^ ((n : ℤ) - 1022) :=
        zpow_le_zpow_right₀ one_le_two (by omega)
      have hge := hpow.trans (hnormal.resolve_left (by omega))
      rw [zpow_natCast] at hge
      exact absurd (hge.trans_lt (h.trans (sub_lt_self _ hpos))) (lt_irrefl _)
    · have hs' : s = 2 ^ 53 := by
        unfold leadingBit infinityWord at *
        omega
      have hpow : ((2 ^ 53 : ℕ) : ℚ) * 2 ^ (((2045 : ℕ) : ℤ) - 1074) = 2 ^ 1024 := by
        have hunit : ((2045 : ℕ) : ℤ) - 1074 = (971 : ℕ) := by norm_num
        rw [hunit, zpow_natCast, Nat.cast_pow, Nat.cast_ofNat]
        exact (pow_add 2 53 971).symm
      have hhalf : ((2045 : ℕ) : ℤ) - 1075 = (970 : ℕ) := by norm_num
      rw [hs', hpow, hhalf, zpow_natCast, ← sub_le_iff_le_add] at hround
      exact absurd (hround.trans_lt h) (lt_irrefl _)
  rw [hratio, min_eq_left hword.le, isFinite,
    magnitude_ofMagnitude negative (Nat.lt_trans hword (by decide)), decide_eq_true hword]

/-- The nearest number to one below a power of two is at most half a unit above it. -/
theorem value_ofRatio_le (negative : Bool) {t : ℤ} (ht : -1022 ≤ t)
    (h : (num : ℚ) / den < 2 ^ (t + 1)) (hfinite : (ofRatio negative num den).isFinite = true) :
    (ofRatio negative num den).value ≤ num / den + 2 ^ (t - 53) := by
  by_cases hnum : num = 0
  · have hzero := value_ofMagnitude negative (n := 0) (s := 0) (Nat.zero_le _) (.inl rfl) (by decide)
    rw [Nat.zero_mul, Nat.add_zero, Nat.cast_zero, zero_mul] at hzero
    rw [ofRatio, if_pos hnum, hzero]
    positivity
  obtain ⟨n, s, hratio, hs, hleading, hround, hnormal⟩ := exists_ofRatio hden hnum negative
  have hword : n * leadingBit + s < infinityWord := by
    by_contra hle
    rw [hratio, min_eq_right (not_lt.1 hle), isFinite, decide_eq_true_eq,
      magnitude_ofMagnitude negative (by decide)] at hfinite
    exact Nat.lt_irrefl _ hfinite
  have hn : (n : ℤ) - 1022 ≤ t := by
    rcases hnormal with rfl | hle
    · omega
    · exact exponent_le_of_lt one_lt_two hle h
  have hhalf : (2 : ℚ) ^ ((n : ℤ) - 1075) ≤ 2 ^ (t - 53) :=
    zpow_le_zpow_right₀ one_le_two (by omega)
  rw [hratio, min_eq_left hword.le, value_ofMagnitude negative hs hleading hword]
  linarith

end OfRatio

/-- A finite number is rounded to itself. -/
theorem ofRatio_of_eq_value {x : Binary64} (hfinite : x.isFinite = true) (negative : Bool)
    {num den : ℕ} (hden : 0 < den) (h : (num : ℚ) / den = x.value) :
    ofRatio negative num den = ofMagnitude negative x.magnitude := by
  have hden' : (den : ℚ) ≠ 0 := by exact_mod_cast hden.ne'
  by_cases hnum : num = 0
  · have hx : x.significand = 0 := by
      by_contra hx
      rw [hnum, Nat.cast_zero, zero_div] at h
      exact (value_pos hx).ne h
    rw [ofRatio, if_pos hnum, x.significand_eq_zero_iff.1 hx]
  obtain ⟨hlower, hupper⟩ := binaryExponent_bounds hnum hden.ne'
  rw [h] at hlower hupper
  have hscale := x.least_le_scale
  -- The unit that is rounded to is that of the number, so that the scaled fraction is an integer.
  have hunit : max (binaryExponent num den - 52) (-1074) = x.scale := by
    have hle := exponent_le_of_lt one_lt_two hlower x.value_lt_zpow
    rcases x.scale_eq_or_le_significand with hzero | hnormal
    · omega
    · have hge := exponent_le_of_lt one_lt_two (zpow_le_value hnormal) hupper
      omega
  have hratio := shiftLeft_div_shiftLeft num den x.scale
  rw [h, value, mul_div_assoc, div_self (by positivity), mul_one] at hratio
  have hshift : 0 < den <<< x.scale.toNat := Nat.shiftLeft_pos_iff.2 hden
  have hword : x.magnitude ≤ infinityWord := by
    rw [isFinite, decide_eq_true_eq] at hfinite
    exact hfinite.le
  rw [ofRatio, if_neg hnum]
  simp only [hunit, roundHalfEven_of_eq hshift hratio]
  rw [← magnitude_eq, min_eq_left hword]

end ResourceEngine.Binary64
