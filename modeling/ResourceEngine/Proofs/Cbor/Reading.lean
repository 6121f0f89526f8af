import Mathlib.Data.List.Forall2
import Mathlib.Tactic.FinCases
import Mathlib.Tactic.Ring
import ResourceEngine.Cbor.Reading
import ResourceEngine.Cbor.Writing
import ResourceEngine.Proofs.Text.Utf8

/-!
# Reading CBOR back

Octets that are written are read back. `Reads` says of octets that they are read as an item wherever
they stand; there is a lemma for each way that octets are put together.
-/

namespace ResourceEngine.Cbor

/-! ### Heads -/

theorem length_bigEndian (n x : Nat) : (bigEndian n x).length = n := by
  induction n with
  | zero => rfl
  | succ n ih => rw [bigEndian, List.length_cons, ih]

/-- A number that fits the octets is read back from them. -/
theorem ofBigEndian_bigEndian {n x : Nat} (hx : x < 256 ^ n) : ofBigEndian (bigEndian n x) = x := by
  have hfold (n found : Nat) :
      (bigEndian n x).foldl (fun n b => 256 * n + b.toNat) found = 256 ^ n * found + x % 256 ^ n := by
    induction n generalizing found with
    | zero => simp [bigEndian, Nat.mod_one]
    | succ n ih =>
      have hoctet : (UInt8.ofNat (x >>> (8 * n))).toNat = x / 256 ^ n % 256 := by
        have hpow : 2 ^ (8 * n) = 256 ^ n := Nat.pow_mul 2 8 n
        rw [UInt8.toNat_ofNat', Nat.shiftRight_eq_div_pow, hpow]
      rw [bigEndian, List.foldl_cons, ih, hoctet, Nat.mod_pow_succ]
      ring
  rw [ofBigEndian, hfold, Nat.mul_zero, Nat.zero_add, Nat.mod_eq_of_lt hx]

theorem takeOctets?_append (front rest : List UInt8) :
    takeOctets? front.length (front ++ rest) = some (front, rest) := by
  simp [takeOctets?]

theorem takeOctets?_bigEndian (n x : Nat) (rest : List UInt8) :
    takeOctets? n (bigEndian n x ++ rest) = some (bigEndian n x, rest) := by
  have h := takeOctets?_append (bigEndian n x) rest
  rwa [length_bigEndian] at h

/-- An argument in as many octets as the low bits of the initial octet announce. -/
theorem readArgument?_bigEndian {low n x : Nat}
    (hlow : (low, n) ∈ [(24, 1), (25, 2), (26, 4), (27, 8)]) (hx : x < 256 ^ n)
    (rest : List UInt8) : readArgument? low (bigEndian n x ++ rest) = some (.number x, rest) := by
  have hvalue := ofBigEndian_bigEndian hx
  fin_cases hlow <;> simp [readArgument?, takeOctets?_bigEndian, hvalue]

/-- A head is an initial octet with the major type, and what the argument is read from. -/
theorem exists_writeHead (major : Nat) {argument : Nat} (hmajor : major < 8)
    (hargument : argument < UInt64.size) :
    ∃ b tail, writeHead major argument = b :: tail ∧ b.toNat / 32 = major ∧
      ∀ rest, readArgument? (b.toNat % 32) (tail ++ rest) = some (.number argument, rest) := by
  have hinitial {n : Nat} (hn : n < 32) : (UInt8.ofNat (32 * major + n)).toNat / 32 = major ∧
      (UInt8.ofNat (32 * major + n)).toNat % 32 = n := by
    have hsize : 32 * major + n < UInt8.size := by
      rw [UInt8.size]
      omega
    rw [UInt8.toNat_ofNat_of_lt' hsize]
    omega
  have hwide {low n : Nat} (hlow : (low, n) ∈ [(24, 1), (25, 2), (26, 4), (27, 8)])
      (hn : low < 32) (hx : argument < 256 ^ n) :
      ∃ b tail, UInt8.ofNat (32 * major + low) :: bigEndian n argument = b :: tail ∧
        b.toNat / 32 = major ∧
        ∀ rest, readArgument? (b.toNat % 32) (tail ++ rest) = some (.number argument, rest) := by
    refine ⟨_, _, rfl, (hinitial hn).1, fun rest => ?_⟩
    rw [(hinitial hn).2, readArgument?_bigEndian hlow hx]
  unfold writeHead
  simp only
  split_ifs with hsmall hone htwo hfour
  · refine ⟨_, [], rfl, (hinitial (by omega)).1, fun rest => ?_⟩
    rw [(hinitial (by omega)).2, readArgument?, if_pos hsmall, List.nil_append]
  · exact hwide (by simp) (by omega) hone
  · exact hwide (by simp) (by omega) htwo
  · exact hwide (by simp) (by omega) hfour
  · exact hwide (by simp) (by omega) hargument

/-! ### Items -/

/-- The octets are read as the item, which may be nested to as many levels. -/
def Reads (levels : Nat) (octets : List UInt8) (c : Cbor) : Prop :=
  ∀ rest, read? levels (octets ++ rest) = some (c, rest)

theorem Reads.length_pos {levels : Nat} {octets : List UInt8} {c : Cbor}
    (h : Reads levels octets c) : 0 < octets.length := by
  rw [List.length_pos_iff]
  rintro rfl
  have hnone := h []
  rw [List.nil_append, read?] at hnone
  cases hnone

theorem reads_natural (levels : Nat) {n : Nat} (hn : n < UInt64.size) :
    Reads levels (writeHead 0 n) (.integer n) := by
  intro rest
  obtain ⟨b, tail, hhead, hmajor, hargument⟩ := exists_writeHead 0 (by omega) hn
  rw [hhead, List.cons_append, read?.eq_def]
  simp only [hmajor, hargument]

theorem reads_integer (levels : Nat) (i : Int64) :
    Reads levels (writeInteger i.toInt) (.integer i.toInt) := by
  have hlower := i.le_toInt
  have hupper := i.toInt_lt
  unfold writeInteger
  split_ifs with hnonneg
  · have hread := reads_natural levels (n := i.toInt.toNat) (by rw [UInt64.size]; omega)
    rwa [Int.toNat_of_nonneg hnonneg] at hread
  · intro rest
    have hsize : (-i.toInt - 1).toNat < UInt64.size := by
      rw [UInt64.size]
      omega
    obtain ⟨b, tail, hhead, hmajor, hargument⟩ := exists_writeHead 1 (by omega) hsize
    have hvalue : -1 - ((-i.toInt - 1).toNat : Int) = i.toInt := by omega
    rw [hhead, List.cons_append, read?.eq_def]
    simp only [hmajor, hargument, hvalue]

/-- A string of either major type, before what it is read as. -/
theorem readString?_octets {major b : Nat} {octets tail : List UInt8}
    (h : ∀ rest, readArgument? b (tail ++ rest) = some (.number octets.length, rest))
    (rest : List UInt8) :
    readString? major b (tail ++ (octets ++ rest)) = some (octets, rest) := by
  rw [readString?, h]
  exact takeOctets?_append octets rest

theorem reads_bytes (levels : Nat) {octets : List UInt8} (hsize : octets.length < UInt64.size) :
    Reads levels (writeBytes octets) (.bytes octets) := by
  intro rest
  obtain ⟨b, tail, hhead, hmajor, hargument⟩ := exists_writeHead 2 (by omega) hsize
  rw [writeBytes, hhead, List.append_assoc, List.cons_append, read?.eq_def]
  simp only [hmajor, readString?_octets hargument, Option.map_some]

theorem reads_text (levels : Nat) {s : String} (hsize : (Text.toUtf8 s).length < UInt64.size) :
    Reads levels (writeText s) (.text s) := by
  intro rest
  obtain ⟨b, tail, hhead, hmajor, hargument⟩ := exists_writeHead 3 (by omega) hsize
  rw [writeText, hhead, List.append_assoc, List.cons_append, read?.eq_def]
  simp only [hmajor, readString?_octets hargument, Text.ofUtf8?_toUtf8, Option.map_some,
    String.ofList_toList]

/-- An initial octet of the last major type. -/
theorem read?_simple (levels : Nat) {b : UInt8} (hb : b.toNat / 32 = 7) (bs : List UInt8) :
    read? levels (b :: bs) = readSimple? (b.toNat % 32) bs := by
  rw [read?.eq_def]
  simp only [hb]

theorem reads_bool (levels : Nat) (b : Bool) : Reads levels (writeBool b) (.bool b) := by
  intro rest
  cases b
  · exact read?_simple levels (b := 0xF4) rfl rest
  · exact read?_simple levels (b := 0xF5) rfl rest

theorem reads_null (levels : Nat) : Reads levels writeNull .null :=
  fun rest => read?_simple levels (b := 0xF6) rfl rest

/-! ### Lists and maps -/

/-- A number of things are read one after another. -/
theorem readCounted?_flatten {α : Type} {read : List UInt8 → Option (α × List UInt8)}
    {octets : List (List UInt8)} {found : List α}
    (h : List.Forall₂ (fun o a => ∀ rest, read (o ++ rest) = some (a, rest)) octets found)
    (before : List α) (rest : List UInt8) :
    readCounted? read octets.length before (octets.flatten ++ rest) =
      some (before.reverse ++ found, rest) := by
  induction h generalizing before with
  | nil => simp [readCounted?]
  | cons hread _ ih =>
    rw [List.length_cons, readCounted?, List.flatten_cons, List.append_assoc, hread]
    simp only [ih]
    simp

theorem reads_list {levels : Nat} {octets : List (List UInt8)} {items : List Cbor}
    (h : List.Forall₂ (Reads levels) octets items) (hsize : octets.length < UInt64.size) :
    Reads (levels + 1) (writeHead 4 octets.length ++ octets.flatten) (.array items) := by
  intro rest
  obtain ⟨b, tail, hhead, hmajor, hargument⟩ := exists_writeHead 4 (by omega) hsize
  have hitems := readCounted?_flatten h [] rest
  rw [hhead, List.append_assoc, List.cons_append, read?.eq_def]
  simp only [hmajor, readMany?, hargument, hitems, Option.map_some, List.reverse_nil,
    List.nil_append]

/-- The octets are those of a key and a value that are read as the entry. -/
def ReadsEntry (levels : Nat) (octets : List UInt8) (entry : Cbor × Cbor) : Prop :=
  ∀ rest, readPair? (read? levels) (octets ++ rest) = some (entry, rest)

theorem readsEntry_append {levels : Nat} {key octets : List UInt8} {k c : Cbor}
    (hkey : Reads levels key k) (h : Reads levels octets c) :
    ReadsEntry levels (key ++ octets) (k, c) := by
  intro rest
  rw [List.append_assoc, readPair?, hkey]
  simp only [h rest, Option.map_some]

theorem reads_map {levels : Nat} {octets : List (List UInt8)} {entries : List (Cbor × Cbor)}
    (h : List.Forall₂ (ReadsEntry levels) octets entries) (hsize : octets.length < UInt64.size) :
    Reads (levels + 1) (writeHead 5 octets.length ++ octets.flatten) (.map entries) := by
  intro rest
  obtain ⟨b, tail, hhead, hmajor, hargument⟩ := exists_writeHead 5 (by omega) hsize
  have hentries := readCounted?_flatten h [] rest
  rw [hhead, List.append_assoc, List.cons_append, read?.eq_def]
  simp only [hmajor, readMany?, hargument, hentries, Option.map_some, List.reverse_nil,
    List.nil_append]

end ResourceEngine.Cbor
