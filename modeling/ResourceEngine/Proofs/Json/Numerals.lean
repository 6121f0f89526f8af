import ResourceEngine.Proofs.Json.Reading
import ResourceEngine.Proofs.Text.Integers

/-!
# Reading numbers back

A numeral is read from its text wherever it stands before something that closes it. The integers
that are written are read as themselves.
-/

namespace ResourceEngine.Json

open Draft

/-- One or more decimal digits. -/
structure AreDigits (ds : List Char) : Prop where
  nonempty : ds ≠ []
  digits : ∀ c ∈ ds, c.isDigit = true

theorem areDigits_toDigits (n : Nat) : AreDigits (Nat.toDigits 10 n) where
  nonempty := Nat.toDigits_ne_nil
  digits _ := Text.isDigit_of_mem_toDigits

/-- What stands there is not read as part of digits before it. -/
def NoDigit (rest : List Char) : Prop := ∀ c ∈ rest.head?, c.isDigit = false

theorem noDigit_cons {c : Char} (hc : c.isDigit = false) (rest : List Char) :
    NoDigit (c :: rest) := by
  rintro _ ⟨⟩
  exact hc

theorem Closes.forall {p : Char → Prop} {rest : List Char} (hrest : Closes rest)
    (hp : p ',' ∧ p ']' ∧ p '}') : ∀ c ∈ rest.head?, p c := by
  intro c hc
  obtain rfl | rfl | rfl := hrest c hc
  · exact hp.1
  · exact hp.2.1
  · exact hp.2.2

namespace Numeral

/-! ### The parts of a numeral -/

/-- The digits after the point, if there are any. -/
def fractionText : Option (List Char) → List Char
  | none => []
  | some ds => '.' :: ds

/-- The exponent with its sign, if there is one. -/
def exponentText : Option (Bool × List Char) → List Char
  | none => []
  | some (negative, ds) => 'e' :: (if negative then '-' else '+') :: ds

/-- The text of a numeral. -/
def text (x : Numeral) : List Char :=
  (if x.negative then ['-'] else []) ++
    (x.whole ++ (fractionText x.fraction ++ exponentText x.exponent))

/-- The digits of a numeral are there, and the whole part has no leading zero. -/
structure IsProper (x : Numeral) : Prop where
  whole : AreDigits x.whole
  leading : ∀ c cs, x.whole ≠ '0' :: c :: cs
  fraction : ∀ ds ∈ x.fraction, AreDigits ds
  exponent : ∀ e ∈ x.exponent, AreDigits e.2

section Parts

variable {ds rest : List Char}

theorem readDigits?_append (hds : AreDigits ds) (hrest : NoDigit rest) :
    readDigits? (ds ++ rest) = some (ds, rest) := by
  obtain ⟨htake, hdrop⟩ := Text.takeWhile_append_of_head hds.digits hrest
  simp [readDigits?, htake, hdrop, hds.nonempty]

theorem readWhole?_append (hds : AreDigits ds) (hleading : ∀ c cs, ds ≠ '0' :: c :: cs)
    (hrest : NoDigit rest) : readWhole? (ds ++ rest) = some (ds, rest) := by
  rw [readWhole?, readDigits?_append hds hrest]
  split
  · next heq =>
    obtain ⟨rfl, -⟩ := Prod.mk.inj (Option.some.inj heq)
    exact absurd rfl (hleading _ _)
  · rfl

theorem readFraction?_text {fraction : Option (List Char)} (hds : ∀ ds ∈ fraction, AreDigits ds)
    (hrest : ∀ c ∈ rest.head?, c.isDigit = false ∧ c ≠ '.') :
    readFraction? (fractionText fraction ++ rest) = some (fraction, rest) := by
  cases fraction with
  | none =>
    rw [fractionText, List.nil_append]
    unfold readFraction?
    split
    · exact absurd rfl (hrest '.' rfl).2
    · rfl
  | some ds =>
    rw [fractionText, List.cons_append, readFraction?,
      readDigits?_append (hds ds rfl) fun c hc => (hrest c hc).1]
    rfl

theorem readExponent?_text {exponent : Option (Bool × List Char)}
    (hds : ∀ e ∈ exponent, AreDigits e.2) (hrest : Closes rest) :
    readExponent? (exponentText exponent ++ rest) = some (exponent, rest) := by
  have hdigit : NoDigit rest := hrest.forall (by decide)
  have hletter : ∀ c ∈ rest.head?, c ≠ 'e' ∧ c ≠ 'E' := hrest.forall (by decide)
  rcases exponent with _ | ⟨negative, ds⟩
  · cases rest with
    | nil => rfl
    | cons c rest => simp [exponentText, readExponent?, hletter c rfl]
  · have hread := readDigits?_append (hds _ rfl) hdigit
    cases negative <;> simp [exponentText, readExponent?, readExponentDigits?, hread]

/-- An exponent is not read as part of the digits before it. -/
theorem head_exponentText (exponent : Option (Bool × List Char)) (hrest : Closes rest) :
    ∀ c ∈ (exponentText exponent ++ rest).head?, c.isDigit = false ∧ c ≠ '.' := by
  rcases exponent with _ | ⟨negative, ds⟩
  · exact hrest.forall (by decide)
  · rintro _ ⟨⟩
    decide

theorem noDigit_fractionText (fraction : Option (List Char)) (hrest : NoDigit rest) :
    NoDigit (fractionText fraction ++ rest) := by
  cases fraction with
  | none => exact hrest
  | some ds => exact noDigit_cons (by decide) _

end Parts

/-! ### Reading a numeral -/

section

variable {cs afterWhole afterFraction rest whole : List Char} {fraction : Option (List Char)}
  {exponent : Option (Bool × List Char)}
  (hfraction : readFraction? afterWhole = some (fraction, afterFraction))
  (hexponent : readExponent? afterFraction = some (exponent, rest))

include hfraction hexponent

theorem readNumber?_minus (hwhole : readWhole? cs = some (whole, afterWhole)) :
    readNumber? ('-' :: cs) = some (⟨true, whole, fraction, exponent⟩, rest) := by
  simp [readNumber?, hwhole, hfraction, hexponent]

theorem readNumber?_digit {c : Char} (hc : c ≠ '-')
    (hwhole : readWhole? (c :: cs) = some (whole, afterWhole)) :
    readNumber? (c :: cs) = some (⟨false, whole, fraction, exponent⟩, rest) := by
  unfold readNumber?
  split
  next negative r hsign =>
  split at hsign
  · next heq => exact absurd (List.cons.inj heq).1 hc
  · cases hsign
    simp [hwhole, hfraction, hexponent]

end

theorem ne_of_isDigit {c d : Char} (hc : c.isDigit = true) (hd : d.isDigit = false) : c ≠ d := by
  rintro rfl
  rw [hc] at hd
  cases hd

/-- A numeral is read from its text. -/
theorem readNumber?_text {x : Numeral} (hx : x.IsProper) {rest : List Char} (hrest : Closes rest) :
    readNumber? (x.text ++ rest) = some (x, rest) := by
  have hexponent := head_exponentText x.exponent hrest
  have hwhole := readWhole?_append hx.whole hx.leading
    (noDigit_fractionText x.fraction fun c hc => (hexponent c hc).1)
  have hfraction := readFraction?_text hx.fraction hexponent
  have hlast := readExponent?_text hx.exponent hrest
  rw [text, List.append_assoc, List.append_assoc, List.append_assoc]
  cases hnegative : x.negative with
  | true =>
    rw [if_pos rfl, List.singleton_append, readNumber?_minus hfraction hlast hwhole, ← hnegative]
  | false =>
    obtain ⟨c, cs, hcs⟩ := List.exists_cons_of_ne_nil hx.whole.nonempty
    have hc : c.isDigit = true := hx.whole.digits c (hcs ▸ List.mem_cons_self)
    rw [hcs, List.cons_append] at hwhole
    rw [if_neg Bool.false_ne_true, List.nil_append, hcs, List.cons_append,
      readNumber?_digit hfraction hlast (ne_of_isDigit hc rfl) hwhole, ← hcs, ← hnegative]

/-- The character may begin a numeral. -/
def Begins (c : Char) : Prop := c = '-' ∨ c.isDigit = true

theorem Begins.ne {c d : Char} (hc : Begins c) (hd : d ≠ '-' ∧ d.isDigit = false) : c ≠ d := by
  rcases hc with rfl | hc
  · exact hd.1.symm
  · exact ne_of_isDigit hc hd.2

theorem Begins.not_blank {c : Char} (hc : Begins c) : isBlank c = false := by
  simp [isBlank, hc.ne (d := ' ') (by decide), hc.ne (d := '\n') (by decide),
    hc.ne (d := '\t') (by decide), hc.ne (d := '\r') (by decide)]

theorem exists_head_text {x : Numeral} (hx : x.IsProper) :
    ∃ c cs, x.text = c :: cs ∧ Begins c := by
  rw [text]
  cases x.negative with
  | true => exact ⟨'-', _, rfl, .inl rfl⟩
  | false =>
    obtain ⟨c, cs, hcs⟩ := List.exists_cons_of_ne_nil hx.whole.nonempty
    have hc : Begins c := .inr (hx.whole.digits c (hcs ▸ List.mem_cons_self))
    rw [hcs]
    exact ⟨c, _, rfl, hc⟩

end Numeral

/-- What may begin a numeral begins neither a string, a list, a record nor a word. -/
theorem readValue_numeral {c : Char} (hc : Numeral.Begins c) (n : Nat) {cs rest : List Char}
    {x : Numeral} (hread : readNumber? (c :: cs) = some (x, rest)) :
    readValue (n + 1) (c :: cs) = (.number x, some rest) := by
  have hword : readWord? (c :: cs) = none := by
    unfold readWord?
    split
    · next heq => exact absurd (List.cons.inj heq).1 (hc.ne (by decide))
    · next heq => exact absurd (List.cons.inj heq).1 (hc.ne (by decide))
    · next heq => exact absurd (List.cons.inj heq).1 (hc.ne (by decide))
    · rfl
  rw [readValue, skip_of_not_blank hc.not_blank]
  split
  · next heq => exact absurd (List.cons.inj heq).1 (hc.ne (by decide))
  · next heq => exact absurd (List.cons.inj heq).1 (hc.ne (by decide))
  · next heq => exact absurd (List.cons.inj heq).1 (hc.ne (by decide))
  · rw [hword, hread]

/-- A numeral is read as the number that it stands for. -/
theorem reads_numeral (levels : Nat) {x : Numeral} (hx : x.IsProper) {m : Number}
    (hm : x.number? = some m) : Reads levels x.text (.number m) where
  starts := by
    obtain ⟨c, cs, hcs, hc⟩ := Numeral.exists_head_text hx
    exact ⟨c, cs, hcs, hc.not_blank, hc.ne (by decide)⟩
  reads n rest hn hrest := by
    obtain ⟨c, cs, hcs, hc⟩ := Numeral.exists_head_text hx
    have hread := Numeral.readNumber?_text hx hrest
    rw [hcs, List.cons_append] at hread
    rw [hcs] at hn ⊢
    obtain ⟨n, rfl⟩ : ∃ m, n = m + 1 := ⟨n - 1, by simp at hn; omega⟩
    refine ⟨.number x, readValue_numeral hc n hread, ?_⟩
    rw [ofDraft?, hm, Option.map_some]

/-! ### Integers -/

/-- The numeral of an integer. -/
def integerNumeral (i : Int) : Numeral := ⟨decide (i < 0), Nat.toDigits 10 i.natAbs, none, none⟩

theorem isProper_integerNumeral (i : Int) : (integerNumeral i).IsProper where
  whole := areDigits_toDigits _
  leading c cs h := by
    rw [integerNumeral] at h
    rcases Nat.eq_zero_or_pos i.natAbs with hzero | hpos
    · rw [hzero] at h
      cases h
    · obtain ⟨d, ds, hds, hd⟩ := Text.exists_head_toDigits hpos
      rw [hds] at h
      exact hd (List.cons.inj h).1
  fraction _ h := nomatch h
  exponent _ h := nomatch h

theorem toList_toString (i : Int) : (toString i).toList = (integerNumeral i).text := by
  rw [Text.toList_toString]
  simp [integerNumeral, Numeral.text, Numeral.fractionText, Numeral.exponentText]

theorem number?_of_nonneg {i : Int} (h : 0 ≤ i) (hi : i < UInt64.size) :
    (integerNumeral i).number? = some (.natural (UInt64.ofNat i.natAbs)) := by
  have hsize : ¬UInt64.size ≤ i.natAbs := by omega
  have hsign : ¬i < 0 := by omega
  simp [integerNumeral, Numeral.number?, Text.digitsValue_toDigits, hsize, hsign]

theorem number?_of_neg {i : Int} (h : i < 0) (hi : -0x8000000000000000 ≤ i) :
    (integerNumeral i).number? = some (.negative (Int64.ofInt i)) := by
  have hsize : ¬UInt64.size ≤ i.natAbs := by
    rw [UInt64.size]
    omega
  have hbounds : 0 < i.natAbs ∧ i.natAbs ≤ 0x8000000000000000 := by omega
  have hsign : -(i.natAbs : Int) = i := by omega
  simp only [integerNumeral, Numeral.number?, Text.digitsValue_toDigits, Option.isSome_none, hsize,
    h, hbounds, hsign, decide_false, decide_true, Bool.or_false, Bool.not_true, Bool.false_eq_true,
    if_false, and_self, if_true]

/-- What an integer is read as that is written: one without a sign, or a negative one. -/
def ofInteger (i : Int) : Json :=
  .number (if 0 ≤ i then .natural (UInt64.ofNat i.natAbs) else .negative (Int64.ofInt i))

theorem reads_integer (levels : Nat) {i : Int} (hlower : -0x8000000000000000 ≤ i)
    (hupper : i < UInt64.size) : Reads levels (toString i).toList (ofInteger i) := by
  rw [toList_toString, ofInteger]
  refine reads_numeral levels (isProper_integerNumeral i) ?_
  split_ifs with h
  · exact number?_of_nonneg h hupper
  · exact number?_of_neg (by omega) hlower

theorem reads_natural (levels : Nat) {n : Nat} (hn : n < UInt64.size) :
    Reads levels (toString n).toList (ofInteger n) :=
  reads_integer levels (i := n) (by omega) (by omega)

theorem value?_ofInteger (i : Int64) : (ofInteger i.toInt).value? = some (.integer i) := by
  have hlower := i.le_toInt
  have hupper := i.toInt_lt
  unfold ofInteger
  split_ifs with h
  · have hsize : i.toInt.natAbs < UInt64.size := by
      rw [UInt64.size]
      omega
    have habs : (i.toInt.natAbs : Int) = i.toInt := by omega
    rw [value?, UInt64.toNat_ofNat_of_lt' hsize, habs, Text.toInt64?_toInt, Option.map_some]
  · rw [value?, Int64.ofInt_toInt]

theorem octet?_ofInteger (b : UInt8) : (ofInteger b.toNat).octet? = some b := by
  have hnonneg : (0 : Int) ≤ b.toNat := by omega
  have hb := b.toNat_lt
  have hsize : b.toNat < UInt64.size := Nat.lt_trans hb (by decide)
  rw [ofInteger, if_pos hnonneg, Int.natAbs_natCast, octet?, UInt64.toNat_ofNat_of_lt' hsize,
    if_pos hb, UInt8.ofNat_toNat]

end ResourceEngine.Json
