import ResourceEngine.Binary64.Interchange
import ResourceEngine.Proofs.Binary64.Rounding

/-!
# Narrow words read back

A number that a narrow format has is the number that its narrow word is widened to.
-/

namespace ResourceEngine.Binary64

namespace Format

variable {f : Format}

theorem leadingBit_pos (f : Format) : 0 < f.leadingBit := Nat.shiftLeft_pos_iff.2 one_pos

theorem signBit_eq (hf : 1 ≤ f.exponentBits) : f.signBit = (2 * f.bias + 2) * f.leadingBit := by
  have hbias : 2 * f.bias + 2 = 2 ^ f.exponentBits := by
    obtain ⟨n, hn⟩ := Nat.exists_eq_add_of_le' hf
    have hpos : 0 < 2 ^ n := by positivity
    rw [bias, Nat.one_shiftLeft, hn, Nat.add_sub_cancel, pow_succ]
    omega
  rw [hbias, signBit, Nat.shiftLeft_eq, Nat.mul_comm]

theorem infinityWord_eq (hf : 1 ≤ f.exponentBits) :
    f.infinityWord = (2 * f.bias + 1) * f.leadingBit := by
  rw [infinityWord, signBit_eq hf, ← Nat.sub_one_mul]
  rfl

theorem infinityWord_lt_signBit (hf : 1 ≤ f.exponentBits) : f.infinityWord < f.signBit := by
  rw [infinityWord_eq hf, signBit_eq hf]
  exact Nat.mul_lt_mul_of_pos_right (Nat.lt_succ_self _) f.leadingBit_pos

/-- A word of the format with the given sign and magnitude. -/
def word (f : Format) (negative : Bool) (magnitude : ℕ) : ℕ :=
  (if negative then f.signBit else 0) + magnitude

theorem word_lt (negative : Bool) {magnitude : ℕ} (h : magnitude < f.signBit) :
    f.word negative magnitude < 2 * f.signBit := by
  unfold word
  split_ifs <;> omega

theorem signBit_le_word_iff (negative : Bool) {magnitude : ℕ} (h : magnitude < f.signBit) :
    f.signBit ≤ f.word negative magnitude ↔ negative = true := by
  unfold word
  split_ifs with hnegative
  · simp [hnegative]
  · simp [hnegative, h]

theorem word_mod (negative : Bool) {magnitude : ℕ} (h : magnitude < f.signBit) :
    f.word negative magnitude % f.signBit = magnitude := by
  unfold word
  split_ifs
  · rw [Nat.add_mod_left, Nat.mod_eq_of_lt h]
  · rw [Nat.zero_add, Nat.mod_eq_of_lt h]

end Format

variable {f : Format}

/-! ### Widening -/

theorem widen_infinity (hf : 1 ≤ f.exponentBits) (negative : Bool) :
    widen f (f.word negative f.infinityWord) = infinity negative := by
  have h := Format.infinityWord_lt_signBit hf
  simp [widen, Format.word_mod negative h, Format.signBit_le_word_iff negative h]

/-- The word with a significand and a unit, counted from the least, is widened to their product. -/
theorem widen_packed (hf : 1 ≤ f.exponentBits) (negative : Bool) {n s : ℕ}
    (hs : s < 2 * f.leadingBit) (hn : n = 0 ∨ f.leadingBit ≤ s)
    (hword : n * f.leadingBit + s < f.infinityWord) :
    widen f (f.word negative (n * f.leadingBit + s)) =
      ofRatio negative (s <<< (f.leastScale + n).toNat) (1 <<< (-(f.leastScale + n)).toNat) := by
  have hsign := Nat.lt_trans hword (Format.infinityWord_lt_signBit hf)
  obtain ⟨hsignificand, hunit⟩ := significand_of_packed hs hn
  have hbelow : ¬f.infinityWord < n * f.leadingBit + s := Nat.not_lt.2 hword.le
  simp only [widen, Format.word_mod negative hsign, Format.signBit_le_word_iff negative hsign,
    if_neg hbelow, if_neg hword.ne, hsignificand, hunit, Nat.add_sub_cancel, Bool.decide_eq_true]

/-! ### Narrowing -/

theorem eq_mul_of_halve {n m odd k : ℕ} (h : halve n m = (odd, k)) : m = odd * 2 ^ k := by
  induction n generalizing m odd k with
  | zero =>
    obtain ⟨rfl, rfl⟩ := Prod.mk.inj h
    rw [pow_zero, Nat.mul_one]
  | succ n ih =>
    rw [halve] at h
    split_ifs at h with heven
    · obtain ⟨rfl, rfl⟩ := Prod.mk.inj h
      have hhalf := ih (m := m / 2) rfl
      rw [pow_succ, ← Nat.mul_assoc, ← hhalf]
      omega
    · obtain ⟨rfl, rfl⟩ := Prod.mk.inj h
      rw [pow_zero, Nat.mul_one]

theorem value_eq_of_halve {x : Binary64} {n odd k : ℕ} (h : halve n x.significand = (odd, k)) :
    x.value = odd * 2 ^ (x.scale + k) := by
  rw [value, eq_mul_of_halve h, zpow_add₀ two_ne_zero, zpow_natCast]
  push_cast
  ring

/-- A significand whose leading bit is moved by `d` places is packed, at the least unit where it is
short of the place of the leading bit. -/
theorem packed_of_log2 {m d n : ℕ} (hm : m ≠ 0) (hle : m.log2 + d ≤ f.fractionBits)
    (hn : n = 0 ∨ m.log2 + d = f.fractionBits) :
    m * 2 ^ d < 2 * f.leadingBit ∧ (n = 0 ∨ f.leadingBit ≤ m * 2 ^ d) := by
  have hlower : 2 ^ m.log2 ≤ m := Nat.log2_self_le hm
  have hupper : m < 2 ^ (m.log2 + 1) := Nat.lt_log2_self
  have hbit : f.leadingBit = 2 ^ f.fractionBits := Nat.one_shiftLeft _
  constructor
  · calc m * 2 ^ d < 2 ^ (m.log2 + 1) * 2 ^ d := by gcongr
      _ = 2 * 2 ^ (m.log2 + d) := by ring
      _ ≤ 2 * 2 ^ f.fractionBits := by gcongr; omega
      _ = 2 * f.leadingBit := by rw [hbit]
  · refine hn.imp_right fun hdigits => ?_
    rw [hbit, ← hdigits, pow_add]
    exact Nat.mul_le_mul_right _ hlower

theorem packed_lt_infinityWord (hf : 1 ≤ f.exponentBits) {n s : ℕ} (hs : s < 2 * f.leadingBit)
    (hn : n + 2 ≤ 2 * f.bias + 1) : n * f.leadingBit + s < f.infinityWord := by
  rw [Format.infinityWord_eq hf]
  calc n * f.leadingBit + s < n * f.leadingBit + 2 * f.leadingBit := by gcongr
    _ = (n + 2) * f.leadingBit := (Nat.add_mul ..).symm
    _ ≤ (2 * f.bias + 1) * f.leadingBit := Nat.mul_le_mul_right _ hn

/-- The narrow word of a finite number is the sign with a packed significand and unit whose product
is the number. -/
theorem exists_of_narrow? (hf : 2 ≤ f.exponentBits) {x : Binary64} {w : ℕ}
    (hfinite : x.isFinite = true) (h : x.narrow? f = some w) :
    ∃ n s : ℕ, w = f.word x.negative (n * f.leadingBit + s) ∧ s < 2 * f.leadingBit ∧
      (n = 0 ∨ f.leadingBit ≤ s) ∧ n * f.leadingBit + s < f.infinityWord ∧
      x.value = s * 2 ^ (f.leastScale + n) := by
  have hnan := isNaN_eq_false_of_isFinite hfinite
  by_cases hx : x.significand = 0
  · simp only [narrow?, hnan, hfinite, hx, Bool.not_true, Bool.false_eq_true, if_false, if_true,
      Option.some.injEq] at h
    refine ⟨0, 0, ?_, ?_, .inl rfl, ?_, ?_⟩
    · rw [Format.word, Nat.zero_mul, Nat.add_zero, h]
    · exact Nat.mul_pos two_pos f.leadingBit_pos
    · rw [Format.infinityWord_eq (by omega), Nat.zero_mul, Nat.add_zero]
      exact Nat.mul_pos (Nat.succ_pos _) f.leadingBit_pos
    · rw [value, hx, Nat.cast_zero, zero_mul, zero_mul]
  obtain ⟨odd, k, hhalve⟩ : ∃ odd k, halve 53 x.significand = (odd, k) := ⟨_, _, rfl⟩
  have hpos : odd ≠ 0 := by
    rintro rfl
    exact hx (by rw [eq_mul_of_halve hhalve, Nat.zero_mul])
  have hbias : 1 ≤ f.bias := by
    have hpow : 2 ^ 1 ≤ 2 ^ (f.exponentBits - 1) := Nat.pow_le_pow_right (by omega) (by omega)
    rw [Format.bias, Nat.one_shiftLeft]
    omega
  have hleast : f.leastScale = 1 - f.bias - f.fractionBits := rfl
  simp only [narrow?, hnan, hfinite, hx, hhalve, Bool.not_true, Bool.false_eq_true, if_false] at h
  obtain ⟨unit, hunit⟩ :
      ∃ unit, max (x.scale + k + odd.log2 - f.fractionBits) f.leastScale = unit := ⟨_, rfl⟩
  rw [hunit] at h
  -- In units of the narrow format the odd part is shifted by `d`, and `n` units stand before it.
  by_cases hfits : x.scale + k + odd.log2 ≤ f.bias ∧ unit ≤ x.scale + k
  · rw [if_pos hfits, Option.some.injEq] at h
    obtain ⟨d, hd⟩ : ∃ d : ℕ, x.scale + k = unit + d := ⟨(x.scale + k - unit).toNat, by omega⟩
    obtain ⟨n, hn⟩ : ∃ n : ℕ, unit = f.leastScale + n := ⟨(unit - f.leastScale).toNat, by omega⟩
    have hsignificand : (x.scale + k - unit).toNat = d := by omega
    have hposition : (unit - f.leastScale).toNat = n := by omega
    rw [hsignificand, hposition, Nat.shiftLeft_eq, Nat.add_assoc] at h
    obtain ⟨hs, hpacked⟩ := packed_of_log2 (f := f) (d := d) (n := n) hpos (by omega) (by omega)
    refine ⟨n, odd * 2 ^ d, h.symm, hs, hpacked,
      packed_lt_infinityWord (by omega) hs (by omega), ?_⟩
    have hexponent : x.scale + k = d + (f.leastScale + n) := by omega
    rw [value_eq_of_halve hhalve, hexponent, zpow_add₀ two_ne_zero, zpow_natCast]
    push_cast
    ring
  · rw [if_neg hfits] at h
    cases h

/-- A narrow word fits the format, and is widened to the number that it is of. -/
theorem widen_of_narrow? (hf : 2 ≤ f.exponentBits) {x : Binary64} {w : ℕ}
    (h : x.narrow? f = some w) : w < 2 * f.signBit ∧ widen f w = x := by
  have hinfinity := Format.infinityWord_lt_signBit (f := f) (by omega)
  by_cases hfinite : x.isFinite = true
  · obtain ⟨n, s, rfl, hs, hn, hword, hvalue⟩ := exists_of_narrow? hf hfinite h
    refine ⟨Format.word_lt _ (hword.trans hinfinity), ?_⟩
    have hratio := shiftLeft_div_shiftLeft s 1 (-(f.leastScale + n))
    rw [neg_neg, zpow_neg, Nat.cast_one, div_one, div_inv_eq_mul, ← hvalue] at hratio
    have hden : 0 < 1 <<< (-(f.leastScale + n)).toNat := Nat.shiftLeft_pos_iff.2 one_pos
    rw [widen_packed (by omega) x.negative hs hn hword,
      ofRatio_of_eq_value hfinite x.negative hden hratio, ofMagnitude_magnitude]
  · by_cases hnan : x.isNaN = true
    · simp only [narrow?, hnan, if_true] at h
      cases h
    · simp only [narrow?, hnan, hfinite, Bool.not_false, Bool.false_eq_true, if_false, if_true,
        Option.some.injEq] at h
      obtain rfl : f.word x.negative f.infinityWord = w := h
      have hmagnitude : x.magnitude = infinityWord := by
        rw [isNaN, decide_eq_true_eq] at hnan
        rw [isFinite, decide_eq_true_eq] at hfinite
        omega
      refine ⟨Format.word_lt _ hinfinity, ?_⟩
      rw [widen_infinity (by omega), infinity, ← hmagnitude, ofMagnitude_magnitude]

end ResourceEngine.Binary64
