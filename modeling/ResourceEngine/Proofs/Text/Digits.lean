import Mathlib.Data.List.Induction
import Mathlib.Tactic.IntervalCases
import Mathlib.Tactic.SplitIfs
import ResourceEngine.Text.Numeral

/-!
# Decimal digits

The digits of a natural number, as they are written and as they are read before something else. What
is read as a natural number is its digits after any number of zeros.
-/

namespace ResourceEngine.Text

theorem takeWhile_append_of_head {p : Char → Bool} {cs rest : List Char} (hcs : ∀ c ∈ cs, p c = true)
    (hrest : ∀ c ∈ rest.head?, p c = false) :
    (cs ++ rest).takeWhile p = cs ∧ (cs ++ rest).dropWhile p = rest := by
  rw [List.takeWhile_append_of_pos hcs, List.dropWhile_append_of_pos hcs]
  cases rest with
  | nil => simp
  | cons c rest => simp [hrest c rfl]

theorem isDigit_of_mem_toDigits {n : Nat} {c : Char} (hc : c ∈ Nat.toDigits 10 n) :
    c.isDigit = true :=
  Nat.isDigit_of_mem_toDigits (by omega) (by omega) hc

theorem digitsValue_toDigits (n : Nat) : digitsValue (Nat.toDigits 10 n) = n :=
  Nat.ofDigitChars_ten_toDigits

/-- A positive number has no leading zero. -/
theorem exists_head_toDigits {n : Nat} (hn : 0 < n) :
    ∃ c cs, Nat.toDigits 10 n = c :: cs ∧ c ≠ '0' := by
  induction n using Nat.strongRecOn with
  | ind n ih =>
    by_cases hsmall : n < 10
    · refine ⟨n.digitChar, [], Nat.toDigits_of_lt_base hsmall, ?_⟩
      interval_cases n <;> decide
    · obtain ⟨c, cs, hcs, hc⟩ := ih (n / 10) (by omega) (by omega)
      refine ⟨c, cs ++ [(n % 10).digitChar], ?_, hc⟩
      rw [Nat.toDigits_of_base_le (by omega) (by omega), hcs, List.cons_append]

/-! ### Leading zeros -/

variable {cs : List Char} {n : Nat}

theorem digitsValue_append_singleton (cs : List Char) (c : Char) :
    digitsValue (cs ++ [c]) = 10 * digitsValue cs + (c.toNat - 48) := by
  simp [digitsValue]

theorem digitChar_sub {c : Char} (hc : c.isDigit = true) :
    c.toNat - 48 < 10 ∧ (c.toNat - 48).digitChar = c := by
  have hbounds : 48 ≤ c.toNat ∧ c.toNat ≤ 57 := by
    simpa [Char.isDigit, UInt32.le_iff_toNat_le] using hc
  have hlt : c.toNat - 48 < 10 := by omega
  refine ⟨hlt, Char.toNat_inj.1 ?_⟩
  rw [Nat.toNat_digitChar_of_lt_ten hlt]
  omega

/-- The digits of a number after some zeros. -/
def padded (zeros n : Nat) : List Char := List.replicate zeros '0' ++ Nat.toDigits 10 n

/-- Zeros in front do not change the value. -/
theorem digitsValue_padded (zeros n : Nat) : digitsValue (padded zeros n) = n := by
  have hzeros : (List.replicate zeros '0').foldl (fun n c => 10 * n + (c.toNat - 48)) 0 = 0 := by
    induction zeros with
    | zero => rfl
    | succ zeros ih => exact ih
  rw [digitsValue, padded, List.foldl_append, hzeros]
  exact digitsValue_toDigits n

theorem isDigit_of_mem_padded {zeros n : Nat} {c : Char} (hc : c ∈ padded zeros n) :
    c.isDigit = true := by
  rcases List.mem_append.1 hc with hc | hc
  · rw [List.eq_of_mem_replicate hc]
    rfl
  · exact isDigit_of_mem_toDigits hc

/-- Digits are those of the number that they stand for, after some zeros. -/
theorem exists_padded (hne : cs ≠ []) (hcs : ∀ c ∈ cs, c.isDigit = true) :
    ∃ zeros, cs = padded zeros (digitsValue cs) := by
  induction cs using List.reverseRecOn with
  | nil => exact absurd rfl hne
  | append_singleton cs c ih =>
    obtain ⟨hc, hchar⟩ := digitChar_sub (hcs c (by simp))
    rw [digitsValue_append_singleton]
    have hsmall : Nat.toDigits 10 (c.toNat - 48) = [c] := by
      rw [Nat.toDigits_of_lt_base hc, hchar]
    by_cases hnil : cs = []
    · subst hnil
      exact ⟨0, by simpa [padded, digitsValue] using hsmall.symm⟩
    obtain ⟨zeros, hzeros⟩ := ih hnil fun d hd => hcs d (List.mem_append_left _ hd)
    rcases Nat.eq_zero_or_pos (digitsValue cs) with hzero | hpos
    · -- the digits before the last one are zeros
      refine ⟨zeros + 1, ?_⟩
      rw [hzero] at hzeros ⊢
      rw [hzeros, Nat.mul_zero, Nat.zero_add, padded, padded, hsmall, List.replicate_succ']
      rfl
    · refine ⟨zeros, ?_⟩
      have hlast := Nat.toDigits_of_base_le (b := 10) (n := 10 * digitsValue cs + (c.toNat - 48))
        (by omega) (by omega)
      have hdiv : (10 * digitsValue cs + (c.toNat - 48)) / 10 = digitsValue cs := by omega
      have hmod : (10 * digitsValue cs + (c.toNat - 48)) % 10 = c.toNat - 48 := by omega
      rw [padded, hlast, hdiv, hmod, hchar, ← List.append_assoc, ← padded, ← hzeros]

/-- A natural number is read from its digits, with any zeros in front of them. -/
theorem natural?_eq_some_iff : natural? cs = some n ↔ ∃ zeros, cs = padded zeros n := by
  constructor
  · intro h
    unfold natural? at h
    split_ifs at h with hrefused
    obtain rfl := Option.some.inj h
    simp only [Bool.or_eq_true, List.isEmpty_iff, Bool.not_eq_true', not_or,
      Bool.not_eq_false, List.all_eq_true] at hrefused
    exact exists_padded hrefused.1 hrefused.2
  · rintro ⟨zeros, rfl⟩
    have hne : padded zeros n ≠ [] := by simp [padded]
    have hall : (padded zeros n).all Char.isDigit = true :=
      List.all_eq_true.2 fun _ => isDigit_of_mem_padded
    simp [natural?, hne, hall, digitsValue_padded]

end ResourceEngine.Text
