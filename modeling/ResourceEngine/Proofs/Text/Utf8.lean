import Mathlib.Data.List.Basic
import ResourceEngine.Text.Utf8

/-!
# Texts survive UTF-8

The octets of a text are read back as its characters, with nothing malformed among them. The machine
takes the octets of one character after another, and has no open sequence in between. The octets of
texts are in the order of the texts.
-/

namespace ResourceEngine.Text

/-! ### The octets of a text -/

theorem toList_loop_eq (octets : ByteArray) (i : Nat) (read : List UInt8) :
    ByteArray.toList.loop octets i read = read.reverse ++ octets.data.toList.drop i := by
  fun_induction ByteArray.toList.loop octets i read with
  | case1 i read h ih =>
    have hi : i < octets.data.toList.length := by simpa using h
    rw [ih, List.drop_eq_getElem_cons hi]
    simp [ByteArray.get!, h]
  | case2 i read h =>
    have hi : octets.data.toList.length ≤ i := by simpa using Nat.le_of_not_lt h
    rw [List.drop_eq_nil_of_le hi, List.append_nil]

theorem toUtf8_eq (s : String) : toUtf8 s = s.toList.flatMap String.utf8EncodeChar := by
  have hbytes : s.toUTF8.data.toList = s.toList.flatMap String.utf8EncodeChar := by
    rw [String.toUTF8_eq_toByteArray, ← String.ofList_toList (s := s), String.toByteArray_ofList,
      String.toList_ofList]
    exact List.toList_data_toByteArray
  rw [toUtf8, ByteArray.toList, toList_loop_eq, hbytes]
  rfl

/-! ### The order of texts -/

/-- The octets of a smaller character are smaller, whatever follows. Sequences of different lengths
differ in their first octet; those of one length hold the digits of a number to the base 64. -/
theorem utf8EncodeChar_append_lt {c d : Char} (h : c < d) (s t : List UInt8) :
    String.utf8EncodeChar c ++ s < String.utf8EncodeChar d ++ t := by
  have hlt : c.val.toNat < d.val.toNat := h
  have hvalid : d.val.toNat < 0xD800 ∨ 0xDFFF < d.val.toNat ∧ d.val.toNat < 0x110000 := d.valid
  unfold String.utf8EncodeChar
  generalize c.val.toNat = v at hlt
  generalize d.val.toNat = w at hlt hvalid
  dsimp only
  split_ifs <;>
    simp only [List.cons_append, List.nil_append, List.cons_lt_cons_iff, UInt8.lt_iff_toNat_lt,
      ← UInt8.toNat_inj, UInt8.toNat_ofNat'] <;>
    simp (disch := omega) only [Nat.mod_eq_of_lt] <;>
    omega

theorem toUtf8_lt {a b : String} (h : a < b) : toUtf8 a < toUtf8 b := by
  have hlt : a.toList < b.toList := h
  rw [toUtf8_eq, toUtf8_eq]
  generalize a.toList = cs at hlt
  generalize b.toList = ds at hlt
  induction hlt with
  | @nil d ds =>
    obtain ⟨b, rest, hd⟩ := List.exists_cons_of_ne_nil (String.utf8EncodeChar_ne_nil (c := d))
    rw [List.flatMap_nil, List.flatMap_cons, hd]
    exact List.nil_lt_cons b _
  | rel hcd => exact utf8EncodeChar_append_lt hcd _ _
  | cons _ ih => exact List.append_left_lt ih

/-! ### The machine on well-formed sequences -/

/-- What an octet begins, by the number that it is made from. -/
theorem leadOctet?_ofNat {n : Nat} (hn : n < 256) :
    leadOctet? (UInt8.ofNat n) =
      if n < 0x80 then some (0, 0, 0, n)
      else if n < 0xC2 then none
      else if n < 0xE0 then some (1, 0x80, 0xBF, n - 0xC0)
      else if n = 0xE0 then some (2, 0xA0, 0xBF, 0)
      else if n = 0xED then some (2, 0x80, 0x9F, 0xD)
      else if n < 0xF0 then some (2, 0x80, 0xBF, n - 0xE0)
      else if n = 0xF0 then some (3, 0x90, 0xBF, 0)
      else if n < 0xF4 then some (3, 0x80, 0xBF, n - 0xF0)
      else if n = 0xF4 then some (3, 0x80, 0x8F, 4)
      else none := by
  have hnat : (UInt8.ofNat n).toNat = n := UInt8.toNat_ofNat_of_lt' hn
  simp only [leadOctet?, UInt8.lt_iff_toNat_lt, ← UInt8.toNat_inj, hnat]
  rfl

/-- The octet that goes on a sequence with the last six bits of a number. -/
def tailOctet (n : Nat) : UInt8 := UInt8.ofNat (n % 64 + 128)

theorem toNat_tailOctet (n : Nat) : (tailOctet n).toNat = n % 64 + 128 := by
  rw [tailOctet]
  exact UInt8.toNat_ofNat_of_lt' (by show _ < 256; omega)

namespace Utf8Machine

variable (read : List (Option Char)) (low high : UInt8) (bits n : Nat)

/-- The last octet of a sequence. -/
theorem step_last (hlow : low.toNat ≤ n % 64 + 128) (hhigh : n % 64 + 128 ≤ high.toNat) :
    step ⟨read, some ⟨1, low, high, bits⟩⟩ (tailOctet n) =
      ⟨some (Char.ofNat (64 * bits + n % 64)) :: read, none⟩ := by
  have hrange : low ≤ tailOctet n ∧ tailOctet n ≤ high := by
    rw [UInt8.le_iff_toNat_le, UInt8.le_iff_toNat_le, toNat_tailOctet]
    exact ⟨hlow, hhigh⟩
  simp only [step, hrange, and_self, if_true, Nat.le_refl, toNat_tailOctet, Nat.add_sub_cancel]

/-- An octet of a sequence that is not the last. -/
theorem step_more (owed : Nat) (hlow : low.toNat ≤ n % 64 + 128)
    (hhigh : n % 64 + 128 ≤ high.toNat) :
    step ⟨read, some ⟨owed + 2, low, high, bits⟩⟩ (tailOctet n) =
      ⟨read, some ⟨owed + 1, 0x80, 0xBF, 64 * bits + n % 64⟩⟩ := by
  have hrange : low ≤ tailOctet n ∧ tailOctet n ≤ high := by
    rw [UInt8.le_iff_toNat_le, UInt8.le_iff_toNat_le, toNat_tailOctet]
    exact ⟨hlow, hhigh⟩
  have howed : ¬owed + 2 ≤ 1 := by omega
  simp only [step, hrange, and_self, if_true, howed, if_false, toNat_tailOctet,
    Nat.add_sub_cancel]
  rfl

/-- The octet that begins a sequence. -/
theorem step_lead {b : UInt8} {owed : Nat} (h : leadOctet? b = some (owed + 1, low, high, bits)) :
    step ⟨read, none⟩ b = ⟨read, some ⟨owed + 1, low, high, bits⟩⟩ := by
  simp only [step, begin, h]

theorem foldl_one {v : Nat} (hv : v ≤ 127) :
    [UInt8.ofNat v].foldl step ⟨read, none⟩ = ⟨some (Char.ofNat v) :: read, none⟩ := by
  have hlead : leadOctet? (UInt8.ofNat v) = some (0, 0, 0, v) := by
    rw [leadOctet?_ofNat (by omega), if_pos (by omega)]
  simp [step, begin, hlead]

theorem foldl_two {v : Nat} (hlow : 127 < v) (hhigh : v ≤ 2047) :
    [UInt8.ofNat (v / 64 % 32 + 192), tailOctet v].foldl step ⟨read, none⟩ =
      ⟨some (Char.ofNat v) :: read, none⟩ := by
  have hlead : leadOctet? (UInt8.ofNat (v / 64 % 32 + 192)) = some (0 + 1, 0x80, 0xBF, v / 64) := by
    have hbits : v / 64 % 32 + 192 - 0xC0 = v / 64 := by omega
    rw [leadOctet?_ofNat (by omega), if_neg (by omega), if_neg (by omega), if_pos (by omega), hbits]
  have hbits : 64 * (v / 64) + v % 64 = v := by omega
  rw [List.foldl_cons, step_lead _ _ _ _ hlead, List.foldl_cons, List.foldl_nil,
    step_last _ _ _ _ _ (by simp) (by simp; omega), hbits]

/-- The range of the second octet leaves out what two octets can hold, and surrogates. -/
theorem exists_lead_three {v : Nat} (hlow : 2047 < v) (hhigh : v ≤ 65535)
    (hsurrogate : v < 0xD800 ∨ 0xDFFF < v) :
    ∃ low high : UInt8, leadOctet? (UInt8.ofNat (v / 4096 % 16 + 224)) =
        some (1 + 1, low, high, v / 4096) ∧
      low.toNat ≤ v / 64 % 64 + 128 ∧ v / 64 % 64 + 128 ≤ high.toNat := by
  have hbits : v / 4096 % 16 + 224 - 0xE0 = v / 4096 := by omega
  rw [leadOctet?_ofNat (by omega), if_neg (by omega), if_neg (by omega), if_neg (by omega)]
  by_cases hfirst : v / 4096 % 16 + 224 = 0xE0
  · have hzero : v / 4096 = 0 := by omega
    rw [if_pos hfirst, hzero]
    refine ⟨0xA0, 0xBF, rfl, ?_, ?_⟩ <;> simp <;> omega
  by_cases hsurrogates : v / 4096 % 16 + 224 = 0xED
  · have hthirteen : v / 4096 = 0xD := by omega
    rw [if_neg hfirst, if_pos hsurrogates, hthirteen]
    refine ⟨0x80, 0x9F, rfl, ?_, ?_⟩ <;> simp
    omega
  rw [if_neg hfirst, if_neg hsurrogates, if_pos (by omega), hbits]
  refine ⟨0x80, 0xBF, rfl, ?_, ?_⟩ <;> simp
  omega

theorem foldl_three {v : Nat} (hlow : 2047 < v) (hhigh : v ≤ 65535)
    (hsurrogate : v < 0xD800 ∨ 0xDFFF < v) :
    [UInt8.ofNat (v / 4096 % 16 + 224), tailOctet (v / 64), tailOctet v].foldl step ⟨read, none⟩ =
      ⟨some (Char.ofNat v) :: read, none⟩ := by
  obtain ⟨low, high, hlead, hl, hh⟩ := exists_lead_three hlow hhigh hsurrogate
  have hbits : 64 * (64 * (v / 4096) + v / 64 % 64) + v % 64 = v := by omega
  rw [List.foldl_cons, step_lead _ _ _ _ hlead, List.foldl_cons, step_more _ _ _ _ _ _ hl hh,
    List.foldl_cons, List.foldl_nil, step_last _ _ _ _ _ (by simp) (by simp; omega), hbits]

/-- The range of the second octet leaves out what three octets can hold, and what is too large. -/
theorem exists_lead_four {v : Nat} (hlow : 65535 < v) (hhigh : v < 0x110000) :
    ∃ low high : UInt8, leadOctet? (UInt8.ofNat (v / 262144 % 8 + 240)) =
        some (2 + 1, low, high, v / 262144) ∧
      low.toNat ≤ v / 4096 % 64 + 128 ∧ v / 4096 % 64 + 128 ≤ high.toNat := by
  have hbits : v / 262144 % 8 + 240 - 0xF0 = v / 262144 := by omega
  rw [leadOctet?_ofNat (by omega), if_neg (by omega), if_neg (by omega), if_neg (by omega),
    if_neg (by omega), if_neg (by omega), if_neg (by omega)]
  by_cases hfirst : v / 262144 % 8 + 240 = 0xF0
  · have hzero : v / 262144 = 0 := by omega
    rw [if_pos hfirst, hzero]
    refine ⟨0x90, 0xBF, rfl, ?_, ?_⟩ <;> simp <;> omega
  by_cases hlast : v / 262144 % 8 + 240 < 0xF4
  · rw [if_neg hfirst, if_pos hlast, hbits]
    refine ⟨0x80, 0xBF, rfl, ?_, ?_⟩ <;> simp
    omega
  have hfour : v / 262144 = 4 := by omega
  rw [if_neg hfirst, if_neg hlast, if_pos (by omega), hfour]
  refine ⟨0x80, 0x8F, rfl, ?_, ?_⟩ <;> simp
  omega

theorem foldl_four {v : Nat} (hlow : 65535 < v) (hhigh : v < 0x110000) :
    [UInt8.ofNat (v / 262144 % 8 + 240), tailOctet (v / 4096), tailOctet (v / 64),
        tailOctet v].foldl step ⟨read, none⟩ = ⟨some (Char.ofNat v) :: read, none⟩ := by
  obtain ⟨low, high, hlead, hl, hh⟩ := exists_lead_four hlow hhigh
  have hbits : 64 * (64 * (64 * (v / 262144) + v / 4096 % 64) + v / 64 % 64) + v % 64 = v := by
    omega
  rw [List.foldl_cons, step_lead _ _ _ _ hlead, List.foldl_cons, step_more _ _ _ _ _ _ hl hh,
    List.foldl_cons, step_more _ _ _ _ _ _ (by simp) (by simp; omega), List.foldl_cons,
    List.foldl_nil, step_last _ _ _ _ _ (by simp) (by simp; omega), hbits]

/-- The octets of a character are read as the character. -/
theorem foldl_utf8EncodeChar (c : Char) :
    (String.utf8EncodeChar c).foldl step ⟨read, none⟩ = ⟨some c :: read, none⟩ := by
  have hvalid : c.val.toNat < 0xD800 ∨ 0xDFFF < c.val.toNat ∧ c.val.toNat < 0x110000 := c.valid
  have hchar : Char.ofNat c.val.toNat = c := Char.ofNat_toNat c
  unfold String.utf8EncodeChar
  generalize c.val.toNat = v at hvalid hchar
  rw [← hchar]
  by_cases hone : v ≤ 127
  · rw [if_pos hone]
    exact foldl_one read hone
  by_cases htwo : v ≤ 2047
  · rw [if_neg hone, if_pos htwo]
    exact foldl_two read (by omega) htwo
  by_cases hthree : v ≤ 65535
  · rw [if_neg hone, if_neg htwo, if_pos hthree]
    exact foldl_three read (by omega) hthree (by omega)
  · rw [if_neg hone, if_neg htwo, if_neg hthree]
    exact foldl_four read (by omega) (by omega)

theorem foldl_toUtf8 (cs : List Char) :
    (cs.flatMap String.utf8EncodeChar).foldl step ⟨read, none⟩ =
      ⟨(cs.map some).reverse ++ read, none⟩ := by
  induction cs generalizing read with
  | nil => rfl
  | cons c cs ih =>
    rw [List.flatMap_cons, List.foldl_append, foldl_utf8EncodeChar, ih]
    simp

end Utf8Machine

/-! ### Reading back -/

theorem utf8Characters_toUtf8 (s : String) : utf8Characters (toUtf8 s) = s.toList.map some := by
  rw [utf8Characters, toUtf8_eq, Utf8Machine.start, Utf8Machine.foldl_toUtf8]
  simp [Utf8Machine.finish]

/-- The octets of a text are read back as its characters. -/
theorem ofUtf8?_toUtf8 (s : String) : ofUtf8? (toUtf8 s) = some s.toList := by
  simp [ofUtf8?, utf8Characters_toUtf8]

/-- Nothing in the octets of a text is replaced. -/
theorem ofUtf8Lossy_toUtf8 (s : String) : ofUtf8Lossy (toUtf8 s) = s.toList := by
  rw [ofUtf8Lossy, utf8Characters_toUtf8, List.map_map]
  exact List.map_id _

end ResourceEngine.Text
