import Mathlib.Data.List.TakeWhile
import ResourceEngine.Proofs.Text.Digits
import ResourceEngine.Text.Blank

/-!
# Integers in text

What is read as an integer is a numeral of it: a sign, which may be left out where it is plus, any
number of zeros, and the digits of its magnitude. An integer is written as one of its numerals. No
numeral has white space in it, so that trimming leaves a numeral that stands between white space.
-/

namespace ResourceEngine.Text

variable {cs : List Char} {i : Int}

/-- A decimal numeral of an integer. A sign stands before the digits; it may be left out where it is
plus, and zeros may stand between them. -/
inductive IsNumeral : List Char → Int → Prop where
  | bare (zeros n : Nat) : IsNumeral (padded zeros n) n
  | plus (zeros n : Nat) : IsNumeral ('+' :: padded zeros n) n
  | minus (zeros n : Nat) : IsNumeral ('-' :: padded zeros n) (-n)

theorem integer?_eq (cs : List Char) : integer? cs =
    (natural? (splitSign cs).2).map fun n : Nat => if (splitSign cs).1 then -(n : Int) else n := by
  rw [integer?]
  rcases splitSign cs with ⟨negative, r⟩
  dsimp only
  cases natural? r <;> rfl

/-- A sign is split off if there is one. -/
theorem splitSign_cases (cs : List Char) :
    (∃ r, cs = '-' :: r ∧ splitSign cs = (true, r)) ∨
      (∃ r, cs = '+' :: r ∧ splitSign cs = (false, r)) ∨ splitSign cs = (false, cs) := by
  unfold splitSign
  split
  · exact .inl ⟨_, rfl, rfl⟩
  · exact .inr (.inl ⟨_, rfl, rfl⟩)
  · exact .inr (.inr rfl)

theorem splitSign_padded (zeros n : Nat) :
    splitSign (padded zeros n) = (false, padded zeros n) := by
  obtain ⟨r, hr, -⟩ | ⟨r, hr, -⟩ | h := splitSign_cases (padded zeros n)
  · exact absurd (isDigit_of_mem_padded (hr ▸ List.mem_cons_self)) (by decide)
  · exact absurd (isDigit_of_mem_padded (hr ▸ List.mem_cons_self)) (by decide)
  · exact h

/-- An integer is read from its numerals, and from nothing else. -/
theorem integer?_eq_some_iff : integer? cs = some i ↔ IsNumeral cs i := by
  rw [integer?_eq]
  constructor
  · intro h
    obtain ⟨n, hn, rfl⟩ := Option.map_eq_some_iff.1 h
    obtain ⟨zeros, hzeros⟩ := natural?_eq_some_iff.1 hn
    obtain ⟨r, rfl, hr⟩ | ⟨r, rfl, hr⟩ | hr := splitSign_cases cs
    · obtain rfl : r = padded zeros n := by rwa [hr] at hzeros
      exact hr ▸ .minus zeros n
    · obtain rfl : r = padded zeros n := by rwa [hr] at hzeros
      exact hr ▸ .plus zeros n
    · obtain rfl : cs = padded zeros n := by rwa [hr] at hzeros
      exact hr ▸ .bare zeros n
  · intro h
    cases h with
    | bare zeros n => simp [splitSign_padded, natural?_eq_some_iff.2 ⟨zeros, rfl⟩]
    | plus zeros n => simp [splitSign, natural?_eq_some_iff.2 ⟨zeros, rfl⟩]
    | minus zeros n => simp [splitSign, natural?_eq_some_iff.2 ⟨zeros, rfl⟩]

theorem toInt64?_eq_some_iff {j : Int64} : toInt64? i = some j ↔ i = j.toInt := by
  constructor
  · intro h
    unfold toInt64? at h
    split_ifs at h with hbounds
    obtain rfl := Option.some.inj h
    exact (Int64.toInt_ofInt_of_le hbounds.1 (Int.lt_add_one_of_le hbounds.2)).symm
  · rintro rfl
    exact toInt64?_toInt j

theorem int64?_eq_some_iff {j : Int64} : int64? cs = some j ↔ IsNumeral cs j.toInt := by
  rw [int64?, Option.bind_eq_some_iff]
  simp only [toInt64?_eq_some_iff, integer?_eq_some_iff, exists_eq_right]

theorem toList_toString (i : Int) :
    (toString i).toList = (if i < 0 then ['-'] else []) ++ Nat.toDigits 10 i.natAbs := by
  cases i with
  | ofNat n => simp [Int.toString_eq_repr, Int.repr]
  | negSucc n => simp [Int.toString_eq_repr, Int.repr]

/-- An integer is written as a numeral of it. -/
theorem isNumeral_toString (i : Int) : IsNumeral (toString i).toList i := by
  rw [toList_toString]
  split_ifs with hi
  · have hneg : -(i.natAbs : Int) = i := by omega
    have hminus := IsNumeral.minus 0 i.natAbs
    rwa [hneg] at hminus
  · have hpos : (i.natAbs : Int) = i := by omega
    have hbare := IsNumeral.bare 0 i.natAbs
    rwa [hpos] at hbare

/-! ### White space around -/

theorem isBlank_of_isDigit {c : Char} (hc : c.isDigit = true) : isBlank c = false := by
  obtain ⟨hlt, hchar⟩ := digitChar_sub hc
  rw [← hchar]
  interval_cases c.toNat - 48 <;> rfl

theorem IsNumeral.ne_nil (h : IsNumeral cs i) : cs ≠ [] := by
  cases h with
  | bare zeros n => simp [padded]
  | plus zeros n => exact List.cons_ne_nil _ _
  | minus zeros n => exact List.cons_ne_nil _ _

theorem IsNumeral.not_blank (h : IsNumeral cs i) : ∀ c ∈ cs, isBlank c = false := by
  have hdigits (zeros n : Nat) : ∀ c ∈ padded zeros n, isBlank c = false := fun c hc =>
    isBlank_of_isDigit (isDigit_of_mem_padded hc)
  cases h with
  | bare zeros n => exact hdigits zeros n
  | plus zeros n => exact List.forall_mem_cons.2 ⟨rfl, hdigits zeros n⟩
  | minus zeros n => exact List.forall_mem_cons.2 ⟨rfl, hdigits zeros n⟩

/-- Trimming leaves what stands between white space. -/
theorem trim_append {before after : List Char} (hbefore : ∀ c ∈ before, isBlank c = true)
    (hafter : ∀ c ∈ after, isBlank c = true) (hcs : ∀ c ∈ cs, isBlank c = false) (hne : cs ≠ []) :
    trim (before ++ (cs ++ after)) = cs := by
  have hstart : (before ++ (cs ++ after)).dropWhile isBlank = cs ++ after := by
    obtain ⟨d, ds, rfl⟩ := List.exists_cons_of_ne_nil hne
    refine (takeWhile_append_of_head hbefore ?_).2
    rintro _ ⟨⟩
    exact hcs d List.mem_cons_self
  have hend : (after.reverse ++ cs.reverse).dropWhile isBlank = cs.reverse := by
    refine (takeWhile_append_of_head (fun c hc => hafter c (List.mem_reverse.1 hc)) fun c hc => ?_).2
    exact hcs c (List.mem_reverse.1 (List.mem_of_mem_head? hc))
  rw [trim, trimEnd, hstart, List.reverse_append, hend, List.reverse_reverse]

/-- Trimming leaves out blanks at both ends. -/
theorem exists_trim (cs : List Char) : ∃ before after, cs = before ++ (trim cs ++ after) ∧
    (∀ c ∈ before, isBlank c = true) ∧ ∀ c ∈ after, isBlank c = true := by
  refine ⟨cs.takeWhile isBlank, ((cs.dropWhile isBlank).reverse.takeWhile isBlank).reverse, ?_,
    fun c hc => List.mem_takeWhile_imp hc,
    fun c hc => List.mem_takeWhile_imp (List.mem_reverse.1 hc)⟩
  rw [trim, trimEnd, ← List.reverse_append, List.takeWhile_append_dropWhile, List.reverse_reverse,
    List.takeWhile_append_dropWhile]

/-- The text is a numeral of the integer with white space around it. -/
def Denotes (cs : List Char) (i : Int) : Prop :=
  ∃ before numeral after, cs = before ++ (numeral ++ after) ∧ IsNumeral numeral i ∧
    (∀ c ∈ before, isBlank c = true) ∧ ∀ c ∈ after, isBlank c = true

/-- A trimmed text is read as an integer exactly if it denotes one that fits. -/
theorem int64?_trim_eq_some_iff {j : Int64} : int64? (trim cs) = some j ↔ Denotes cs j.toInt := by
  rw [int64?_eq_some_iff]
  constructor
  · intro h
    obtain ⟨before, after, hcs, hbefore, hafter⟩ := exists_trim cs
    exact ⟨before, trim cs, after, hcs, h, hbefore, hafter⟩
  · rintro ⟨before, numeral, after, rfl, h, hbefore, hafter⟩
    rwa [trim_append hbefore hafter h.not_blank h.ne_nil]

theorem denotes_toString (i : Int) : Denotes (toString i).toList i :=
  ⟨[], _, [], by simp, isNumeral_toString i, List.forall_mem_nil _, List.forall_mem_nil _⟩

end ResourceEngine.Text
