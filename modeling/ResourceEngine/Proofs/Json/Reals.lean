import ResourceEngine.Json.Writing
import ResourceEngine.Proofs.Json.Numerals
import ResourceEngine.Proofs.Json.Scaling

/-!
# Reading reals back

Whatever real is written, its text is read as a number, though not always as the same one.
-/

namespace ResourceEngine.Json

open Draft

namespace Numeral

/-! ### Significands -/

theorem le_ofDigitChars (cs : List Char) (n : ℕ) : n ≤ Nat.ofDigitChars 10 cs n := by
  have hpos : 0 < 10 ^ cs.length := by positivity
  rw [Nat.ofDigitChars_eq_ofDigitChars_zero]
  exact (Nat.le_mul_of_pos_left n hpos).trans (Nat.le_add_right ..)

/-- The digits of a number that fits 64 bits are all taken. -/
theorem significand_of_lt {cs : List Char} {n : ℕ}
    (h : Nat.ofDigitChars 10 cs n < UInt64.size) :
    significand n cs = (Nat.ofDigitChars 10 cs n, 0) := by
  induction cs generalizing n with
  | nil => rfl
  | cons c cs ih =>
    rw [Nat.ofDigitChars_cons] at h ⊢
    have hlt : 10 * n + (c.toNat - 48) < UInt64.size := (le_ofDigitChars cs _).trans_lt h
    rw [significand]
    simp only [Char.reduceToNat] at h ih ⊢
    rw [if_pos hlt, ih h]

/-- A numeral with a point or an exponent is a number if its digits, taken together, are scaled to
one. -/
theorem exists_number? {n : Numeral} {m : ℕ} {e places : ℤ}
    (hreal : n.fraction.isSome || n.exponent.isSome)
    (hvalue : Text.digitsValue (n.whole ++ n.fraction.getD []) = m) (hsize : m < UInt64.size)
    (hexponent : n.exponentValue = (places, true)) (hplaces : places - (n.fraction.getD []).length = e)
    (hscaled : (scaled? 10 (.ofInt m) e).isSome = true) : ∃ x, n.number? = some x := by
  have hsplit : Text.digitsValue (n.whole ++ n.fraction.getD []) =
      Nat.ofDigitChars 10 (n.fraction.getD []) (Nat.ofDigitChars 10 n.whole 0) :=
    Nat.ofDigitChars_append 0
  rw [hsplit] at hvalue
  subst hvalue
  have hwhole := significand_of_lt ((le_ofDigitChars _ _).trans_lt hsize)
  have hfraction := significand_of_lt hsize
  have hpoint : ((0 : ℕ) : ℤ) - ((n.fraction.getD []).length - 0 : ℕ) + places = e := by omega
  obtain ⟨x, hx⟩ := Option.isSome_iff_exists.1 hscaled
  have hreal' : ∃ y, n.real? = some y := by
    simp only [real?, hwhole, hfraction, hexponent, if_true, hpoint, hx, Option.map_some]
    exact ⟨_, rfl⟩
  obtain ⟨y, hy⟩ := hreal'
  rw [number?]
  simp only [hreal, Bool.true_or, if_true, hy, Option.map_some]
  exact ⟨_, rfl⟩

/-! ### Layouts -/

/-- The numeral of a decimal with a point where the exponent puts it. -/
def positional (negative : Bool) (d : Decimal) : Numeral :=
  let digits := Nat.toDigits 10 d.digits
  let places := (-d.exponent).toNat
  if 0 ≤ d.exponent then
    ⟨negative, digits ++ List.replicate d.exponent.toNat '0', some ['0'], none⟩
  else if places < digits.length then
    ⟨negative, digits.take (digits.length - places), some (digits.drop (digits.length - places)),
      none⟩
  else ⟨negative, ['0'], some (List.replicate (places - digits.length) '0' ++ digits), none⟩

/-- The numeral of a decimal with one digit before the point. -/
def scientific (negative : Bool) (d : Decimal) : Numeral :=
  let digits := Nat.toDigits 10 d.digits
  ⟨negative, digits.take 1, if 1 < digits.length then some (digits.drop 1) else none,
    some (decide (d.leadingExponent < 0), Nat.toDigits 10 d.leadingExponent.natAbs)⟩

/-- The sign of a number. -/
def signText (negative : Bool) : String := if negative then "-" else ""

theorem toList_positionalText (negative : Bool) (d : Decimal) :
    (signText negative ++ Binary64.Layout.positionalText true d).toList =
      (positional negative d).text := by
  unfold Binary64.Layout.positionalText positional signText Binary64.Layout.zeros
  simp only
  split_ifs <;> cases negative <;> simp_all [text, fractionText, exponentText]

theorem toList_scientificText (negative : Bool) (d : Decimal) :
    (signText negative ++ Binary64.Layout.scientificText true d).toList =
      (scientific negative d).text := by
  have hexponent : ((if 0 ≤ d.leadingExponent && true then "e+" else "e") ++
      toString d.leadingExponent).toList =
        exponentText (some (decide (d.leadingExponent < 0),
          Nat.toDigits 10 d.leadingExponent.natAbs)) := by
    generalize d.leadingExponent = e
    cases e with
    | ofNat n => simp [Int.toString_eq_repr, Int.repr, exponentText]
    | negSucc n => simp [Int.toString_eq_repr, Int.repr, exponentText]
  unfold Binary64.Layout.scientificText scientific signText
  simp only [String.toList_append] at hexponent ⊢
  rw [text, ← hexponent]
  split_ifs <;> cases negative <;> simp [fractionText]

/-! ### The layouts are proper -/

section Proper

variable {n : ℕ} {ds : List Char}

theorem areDigits_of_subset (hne : ds ≠ []) (h : ∀ c ∈ ds, c ∈ Nat.toDigits 10 n ∨ c = '0') :
    AreDigits ds where
  nonempty := hne
  digits c hc := by
    rcases h c hc with hdigit | rfl
    · exact Text.isDigit_of_mem_toDigits hdigit
    · rfl

/-- The digits of a positive number do not begin with a zero, whatever is cut off behind the first or
put behind the last. -/
theorem take_toDigits_ne (hn : n ≠ 0) {len : ℕ} (hlen : 0 < len) (rest : List Char) (c : Char)
    (cs : List Char) : (Nat.toDigits 10 n).take len ++ rest ≠ '0' :: c :: cs := by
  obtain ⟨len, rfl⟩ := Nat.exists_eq_succ_of_ne_zero hlen.ne'
  obtain ⟨d, ds, hds, hd⟩ := Text.exists_head_toDigits (Nat.pos_of_ne_zero hn)
  rw [hds, List.take_succ_cons, List.cons_append]
  exact fun h => hd (List.cons.inj h).1

theorem isProper_positional {d : Decimal} (hd : d.digits = 0 → d.exponent = 0) (negative : Bool) :
    (positional negative d).IsProper := by
  have hlength := List.length_pos_iff.2 (Nat.toDigits_ne_nil (n := d.digits) (b := 10))
  unfold positional
  simp only
  split_ifs with hwhole hplaces
  · refine ⟨?_, fun c cs => ?_, ?_, nofun⟩
    · refine areDigits_of_subset (n := d.digits) (by simp) fun c hc => ?_
      exact (List.mem_append.1 hc).imp_right List.eq_of_mem_replicate
    · by_cases hzero : d.digits = 0
      · rw [hzero, hd hzero]
        exact nofun
      · have hne := take_toDigits_ne hzero hlength (List.replicate d.exponent.toNat '0') c cs
        rwa [List.take_length] at hne
    · rintro _ ⟨⟩
      exact areDigits_toDigits 0
  · have hpositive : d.digits ≠ 0 := fun hzero => hwhole (hd hzero).ge
    refine ⟨?_, fun c cs => ?_, ?_, nofun⟩
    · refine areDigits_of_subset (n := d.digits) ?_ fun c hc => .inl (List.mem_of_mem_take hc)
      rw [← List.length_pos_iff, List.length_take]
      omega
    · have hne := take_toDigits_ne hpositive (Nat.sub_pos_of_lt hplaces) [] c cs
      rwa [List.append_nil] at hne
    · rintro _ ⟨⟩
      refine areDigits_of_subset (n := d.digits) ?_ fun c hc => .inl (List.mem_of_mem_drop hc)
      rw [← List.length_pos_iff, List.length_drop]
      omega
  · refine ⟨areDigits_toDigits 0, nofun, ?_, nofun⟩
    rintro _ ⟨⟩
    refine areDigits_of_subset (n := d.digits) (by simp) fun c hc => ?_
    exact (List.mem_append.1 hc).symm.imp_right List.eq_of_mem_replicate

theorem isProper_scientific {d : Decimal} (hd : d.digits ≠ 0) (negative : Bool) :
    (scientific negative d).IsProper := by
  have hlength := List.length_pos_iff.2 (Nat.toDigits_ne_nil (n := d.digits) (b := 10))
  refine ⟨?_, fun c cs => ?_, ?_, ?_⟩
  · refine areDigits_of_subset (n := d.digits) ?_ fun c hc => .inl (List.mem_of_mem_take hc)
    rw [← List.length_pos_iff, scientific, List.length_take]
    omega
  · have hne := take_toDigits_ne hd one_pos [] c cs
    rwa [List.append_nil] at hne
  · unfold scientific
    simp only
    split_ifs with hmany
    · rintro _ ⟨⟩
      refine areDigits_of_subset (n := d.digits) ?_ fun c hc => .inl (List.mem_of_mem_drop hc)
      rw [← List.length_pos_iff, List.length_drop]
      omega
    · exact nofun
  · rintro _ ⟨⟩
    exact areDigits_toDigits _

end Proper

/-! ### The layouts are numbers -/

theorem digitsValue_append_zeros (n places : ℕ) :
    Text.digitsValue (Nat.toDigits 10 n ++ List.replicate places '0') = 10 ^ places * n := by
  have h := Nat.ofDigitChars_append (b := 10) (l := Nat.toDigits 10 n)
    (m := List.replicate places '0') 0
  rwa [Nat.ofDigitChars_ten_toDigits, Nat.ofDigitChars_replicate_zero] at h

theorem digitsValue_zeros_append (n places : ℕ) :
    Text.digitsValue (List.replicate places '0' ++ Nat.toDigits 10 n) = n := by
  have h := Nat.ofDigitChars_append (b := 10) (l := List.replicate places '0')
    (m := Nat.toDigits 10 n) 0
  rwa [Nat.ofDigitChars_replicate_zero, Nat.mul_zero, Nat.ofDigitChars_ten_toDigits] at h

theorem exists_number?_positional {d : Decimal} (hdigits : d.digits ≤ 10 ^ 18)
    (hexponent : -341 ≤ d.exponent) (hleading : d.leadingExponent < 16) (negative : Bool) :
    ∃ m, (positional negative d).number? = some m := by
  have hscaled (h : d.exponent < 0) :
      (scaled? 10 (.ofInt d.digits) d.exponent).isSome = true :=
    isSome_scaled?_ofInt (hdigits.trans_lt (by decide)) h.le (by omega)
  have hsize : d.digits < UInt64.size := hdigits.trans_lt (by decide)
  unfold positional
  simp only
  split_ifs with hwhole hplaces
  · obtain ⟨zeros, hzeros⟩ := Int.eq_ofNat_of_zero_le hwhole
    have hlength : (Nat.toDigits 10 d.digits).length + zeros < 17 := by
      rw [Decimal.leadingExponent] at hleading
      omega
    -- A whole number is written with one zero after the point, which is one digit more.
    have hlt : 10 ^ (zeros + 1) * d.digits < UInt64.size := by
      have hdigits' : d.digits < 10 ^ (Nat.toDigits 10 d.digits).length :=
        (Nat.length_toDigits_le_iff (by omega) Nat.length_toDigits_pos).1 le_rfl
      calc 10 ^ (zeros + 1) * d.digits
          ≤ 10 ^ (zeros + 1) * 10 ^ (Nat.toDigits 10 d.digits).length := by gcongr
        _ = 10 ^ (zeros + 1 + (Nat.toDigits 10 d.digits).length) := (pow_add ..).symm
        _ ≤ 10 ^ 17 := Nat.pow_le_pow_right (by omega) (by omega)
        _ < UInt64.size := by decide
    refine exists_number? (m := 10 ^ (zeros + 1) * d.digits) (e := -1) rfl ?_ hlt rfl rfl
      (isSome_scaled?_ofInt hlt (by decide) (by decide))
    rw [Option.getD_some, hzeros, Int.toNat_natCast, List.append_assoc, ← digitsValue_append_zeros,
      List.replicate_succ']
  · refine exists_number? (m := d.digits) rfl ?_ hsize rfl ?_ (hscaled (by omega))
    · rw [Option.getD_some, List.take_append_drop, Text.digitsValue_toDigits]
    · rw [Option.getD_some, List.length_drop]
      omega
  · refine exists_number? (m := d.digits) rfl ?_ hsize rfl ?_ (hscaled (by omega))
    · exact digitsValue_zeros_append d.digits _
    · rw [Option.getD_some, List.length_append, List.length_replicate]
      omega

theorem exists_number?_scientific {d : Decimal} (hdigits : d.digits < UInt64.size)
    (hexponent : d.leadingExponent.natAbs < 2 ^ 31)
    (hscaled : (scaled? 10 (.ofInt d.digits) d.exponent).isSome = true) (negative : Bool) :
    ∃ m, (scientific negative d).number? = some m := by
  have hlength := Nat.length_toDigits_pos (b := 10) (n := d.digits)
  have hfraction : (scientific negative d).fraction.getD [] = (Nat.toDigits 10 d.digits).drop 1 := by
    unfold scientific
    simp only
    split_ifs with hmany
    · rfl
    · rw [Option.getD_none, List.drop_eq_nil_of_le (by omega)]
  have hplaces : (scientific negative d).exponentValue = (d.leadingExponent, true) := by
    have hvalue : (if d.leadingExponent < 0 then -(d.leadingExponent.natAbs : ℤ)
        else d.leadingExponent.natAbs) = d.leadingExponent := by omega
    simp only [exponentValue, scientific, Text.digitsValue_toDigits, decide_eq_true_eq, hvalue]
    rw [decide_eq_true (by omega)]
  refine exists_number? ?_ ?_ hdigits hplaces ?_ hscaled
  · rw [scientific, Option.isSome_some, Bool.or_true]
  · rw [hfraction, scientific, List.take_append_drop, Text.digitsValue_toDigits]
  · rw [hfraction, List.length_drop, Decimal.leadingExponent]
    omega

end Numeral

/-! ### Texts of reals -/

/-- The text of a finite number is a decimal in one of the two layouts. -/
theorem toList_json {x : Binary64} (hx : x.isFinite = true) :
    (Binary64.Layout.json.text x).toList =
      if (x.shortest false).digits = 0 ∨
          -5 ≤ (x.shortest false).leadingExponent ∧ (x.shortest false).leadingExponent < 16 then
        (Numeral.positional x.negative (x.shortest false)).text
      else (Numeral.scientific x.negative (x.shortest false)).text := by
  have hnan := Binary64.isNaN_eq_false_of_isFinite hx
  obtain ⟨d, hd⟩ : ∃ d, x.shortest false = d := ⟨_, rfl⟩
  have htext : Binary64.Layout.json.text x =
      if d.digits = 0 || decide (-5 ≤ d.leadingExponent ∧ d.leadingExponent < 16) then
        Numeral.signText x.negative ++ Binary64.Layout.positionalText true d
      else Numeral.signText x.negative ++ Binary64.Layout.scientificText true d := by
    rw [Binary64.Layout.text, hnan, hx, ← hd]
    rfl
  rw [htext, hd]
  simp only [Bool.or_eq_true, decide_eq_true_eq]
  split_ifs
  · exact Numeral.toList_positionalText x.negative d
  · exact Numeral.toList_scientificText x.negative d

/-- The text of a finite number is that of a numeral that stands for a number. -/
theorem exists_numeral_json {x : Binary64} (hx : x.isFinite = true) :
    ∃ n : Numeral, (Binary64.Layout.json.text x).toList = n.text ∧ n.IsProper ∧
      ∃ m, n.number? = some m := by
  by_cases hzero : x.significand = 0
  · have hshortest : x.shortest false = ⟨0, 0⟩ := if_pos hzero
    rw [toList_json hx, hshortest, if_pos (.inl rfl)]
    exact ⟨_, rfl, Numeral.isProper_positional (fun _ => rfl) _,
      Numeral.exists_number?_positional (by decide) (by decide) (by decide) _⟩
  obtain ⟨hpos, hdigits, -⟩ := Binary64.shortest_spec hzero false
  obtain ⟨hlower, hupper⟩ := Binary64.exponent_shortest_bounds hzero hx false
  have hscaled := Numeral.isSome_scaled?_shortest hx hzero
  have hlength : (Nat.toDigits 10 (x.shortest false).digits).length ≤ 19 :=
    (Nat.length_toDigits_le_iff (by omega) (by omega)).2 (hdigits.trans_lt (by decide))
  rw [toList_json hx]
  split_ifs with hlayout
  · have hleading := (hlayout.resolve_left hpos.ne').2
    exact ⟨_, rfl, Numeral.isProper_positional (fun h => absurd h hpos.ne') _,
      Numeral.exists_number?_positional hdigits hlower hleading _⟩
  · have hleading : (x.shortest false).leadingExponent.natAbs < 2 ^ 31 := by
      rw [Decimal.leadingExponent]
      omega
    exact ⟨_, rfl, Numeral.isProper_scientific hpos.ne' _,
      Numeral.exists_number?_scientific (hdigits.trans_lt (by decide)) hleading hscaled _⟩

/-- A real is read back as some document: a number, or null where it is not finite. -/
theorem exists_reads_writeReal (levels : ℕ) (x : Binary64) :
    ∃ j, Reads levels (writeReal x).toList j := by
  unfold writeReal
  split_ifs with hx
  · obtain ⟨n, htext, hproper, m, hm⟩ := exists_numeral_json hx
    rw [htext]
    exact ⟨_, reads_numeral levels hproper hm⟩
  · exact ⟨.null, reads_null levels⟩

end ResourceEngine.Json
