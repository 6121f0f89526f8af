import ResourceEngine.Proofs.Binary64.Interchange
import ResourceEngine.Proofs.Cbor.Reading
import ResourceEngine.Proofs.Codec.Body
import ResourceEngine.Proofs.Codec.Documents

/-!
# Reading documents back

Whatever document is written in CBOR, it is read back if it is not nested too deep and not longer
than a length can say; and so are the values in it, but for NaN.
-/

namespace ResourceEngine.Cbor

open Document (Keeps depth depthItems depthEntries)

/-! ### Values -/

/-- A word that fits as many octets is read from them after the initial octet of its width. -/
theorem reads_word (levels : Nat) {n word : Nat} {b : UInt8} (ofWord : Nat → Cbor)
    (hword : word < 256 ^ n)
    (h : ∀ bs, read? levels (b :: bs) =
      (takeOctets? n bs).map fun (w, bs) => (ofWord (ofBigEndian w), bs)) :
    Reads levels (b :: bigEndian n word) (ofWord word) := by
  intro rest
  have hvalue := ofBigEndian_bigEndian hword
  rw [List.cons_append, h, takeOctets?_bigEndian]
  simp only [Option.map_some, hvalue]

theorem reads_half (levels : Nat) {word : Nat} (hword : word < 256 ^ 2) :
    Reads levels (0xF9 :: bigEndian 2 word) (.real (.widen .half word)) :=
  reads_word levels (fun w => .real (.widen .half w)) hword
    fun bs => read?_simple levels rfl bs

theorem reads_single (levels : Nat) {word : Nat} (hword : word < 256 ^ 4) :
    Reads levels (0xFA :: bigEndian 4 word) (.real (.widen .single word)) :=
  reads_word levels (fun w => .real (.widen .single w)) hword
    fun bs => read?_simple levels rfl bs

theorem reads_double (levels : Nat) (x : Binary64) :
    Reads levels (0xFB :: bigEndian 8 x.bits.toNat) (.real x) := by
  have hread := reads_word levels (fun w => .real ⟨UInt64.ofNat w⟩) x.bits.toNat_lt
    fun bs => read?_simple levels (b := 0xFB) rfl bs
  rwa [UInt64.ofNat_toNat] at hread

/-- A real is read back, and any NaN as the quiet one. -/
theorem reads_real (levels : Nat) (x : Binary64) :
    Reads levels (writeReal x) (.real (if x.isNaN then .nan else x)) := by
  unfold writeReal
  split_ifs with hnan
  · exact reads_half levels (by decide)
  split
  · next w hw =>
    obtain ⟨hword, hx⟩ := Binary64.widen_of_narrow? (f := .half) (by decide) hw
    have hread := reads_half levels hword
    rwa [hx] at hread
  · next w _ hw =>
    obtain ⟨hword, hx⟩ := Binary64.widen_of_narrow? (f := .single) (by decide) hw
    have hread := reads_single levels hword
    rwa [hx] at hread
  · exact reads_double levels x

/-- The item stands for the value, if the value is one that is kept. -/
def Stands (c : Cbor) (v : Value) : Prop := MediaFormat.cbor.keeps v = true → c.value? = some v

/-- A value is read back. -/
theorem exists_reads_writeValue (levels : Nat) (v : Value)
    (hsize : (writeValue v).length < UInt64.size) :
    ∃ c, Reads levels (writeValue v) c ∧ Stands c v := by
  cases v with
  | null => exact ⟨.null, reads_null levels, fun _ => rfl⟩
  | integer i =>
    refine ⟨_, reads_integer levels i, fun _ => ?_⟩
    rw [value?, Text.toInt64?_toInt, Option.map_some]
  | real x =>
    refine ⟨_, reads_real levels x, fun hkeeps => ?_⟩
    have hnan : x.isNaN = false := by simpa [MediaFormat.keeps] using hkeeps
    rw [hnan]
    rfl
  | text s =>
    rw [writeValue, writeText, List.length_append] at hsize
    exact ⟨.text s, reads_text levels (by omega), fun _ => rfl⟩
  | blob octets =>
    rw [writeValue, writeBytes, List.length_append] at hsize
    exact ⟨.bytes octets, reads_bytes levels (by omega), fun _ => rfl⟩
  | bool b => exact ⟨.bool b, reads_bool levels b, fun _ => rfl⟩

/-! ### Documents -/

/-- The octets of an entry. -/
def writeEntry (entry : String × Document) : List UInt8 := writeText entry.1 ++ write entry.2

theorem writeItems_eq (items : List Document) : writeItems items = (items.map write).flatten := by
  induction items with
  | nil => rfl
  | cons d items ih => rw [writeItems, ih, List.map_cons, List.flatten_cons]

theorem writeEntries_eq (entries : List (String × Document)) :
    writeEntries entries = (entries.map writeEntry).flatten := by
  induction entries with
  | nil => rfl
  | cons e entries ih =>
    rw [writeEntries, ih, List.map_cons, List.flatten_cons, writeEntry]

/-- Where each of them takes an octet at least, there are no more things than octets. -/
theorem length_le_length_flatten {α : Type} {reads : List UInt8 → α → Prop}
    (hpos : ∀ {octets a}, reads octets a → 0 < octets.length) {octets : List (List UInt8)}
    {found : List α} (h : List.Forall₂ reads octets found) :
    octets.length ≤ octets.flatten.length := by
  induction h with
  | nil => exact Nat.le_refl 0
  | cons hread _ ih =>
    have := hpos hread
    rw [List.length_cons, List.flatten_cons, List.length_append]
    omega

theorem ReadsEntry.length_pos {levels : Nat} {octets : List UInt8} {entry : Cbor × Cbor}
    (h : ReadsEntry levels octets entry) : 0 < octets.length := by
  rw [List.length_pos_iff]
  rintro rfl
  have hnone := h []
  rw [List.nil_append, readPair?, read?] at hnone
  cases hnone

theorem reads_writeList {levels : Nat} {items : List Document} {cs : List Cbor}
    (h : List.Forall₂ (Reads levels) (items.map write) cs)
    (hsize : (write (.list items)).length < UInt64.size) :
    Reads (levels + 1) (write (.list items)) (.array cs) := by
  have hcount := length_le_length_flatten Reads.length_pos h
  rw [write, writeItems_eq] at hsize ⊢
  rw [List.length_append] at hsize
  have hread := reads_list h (by omega)
  rwa [List.length_map] at hread

theorem reads_writeRecord {levels : Nat} {entries : List (String × Document)}
    {members : List (Cbor × Cbor)}
    (h : List.Forall₂ (ReadsEntry levels) (entries.map writeEntry) members)
    (hsize : (write (.record entries)).length < UInt64.size) :
    Reads (levels + 1) (write (.record entries)) (.map members) := by
  have hcount := length_le_length_flatten ReadsEntry.length_pos h
  rw [write, writeEntries_eq] at hsize ⊢
  rw [List.length_append] at hsize
  have hread := reads_map h (by omega)
  rwa [List.length_map] at hread

theorem length_writeItems_lt {items : List Document} {n : Nat}
    (h : (write (.list items)).length < n) : (items.map write).flatten.length < n := by
  rw [write, writeItems_eq, List.length_append] at h
  omega

theorem length_writeEntries_lt {entries : List (String × Document)} {n : Nat}
    (h : (write (.record entries)).length < n) : (entries.map writeEntry).flatten.length < n := by
  rw [write, writeEntries_eq, List.length_append] at h
  omega

mutual

/-- A document is read back that is nested no deeper than there are levels. -/
theorem exists_reads_write {levels : Nat} : (d : Document) → d.depth ≤ levels →
    (write d).length < UInt64.size →
    ∃ c, Reads levels (write d) c ∧ ∀ v, d = .value v → Stands c v
  | .value v, _, hsize => by
    rw [write] at hsize ⊢
    obtain ⟨c, hc, hv⟩ := exists_reads_writeValue levels v hsize
    refine ⟨c, hc, ?_⟩
    rintro _ ⟨⟩
    exact hv
  | .natural n, _, _ => by
    refine ⟨.integer n.toNat, ?_, fun _ h => nomatch h⟩
    rw [write]
    exact reads_natural levels n.toNat_lt
  | .list items, hd, hsize => by
    obtain ⟨levels, rfl⟩ : ∃ m, levels = m + 1 := ⟨levels - 1, by rw [depth] at hd; omega⟩
    obtain ⟨cs, hcs⟩ := exists_reads_writeItems items (Nat.le_of_succ_le_succ hd)
      (length_writeItems_lt hsize)
    exact ⟨.array cs, reads_writeList hcs hsize, fun _ h => nomatch h⟩
  | .record entries, hd, hsize => by
    obtain ⟨levels, rfl⟩ : ∃ m, levels = m + 1 := ⟨levels - 1, by rw [depth] at hd; omega⟩
    obtain ⟨members, hmembers, -⟩ := exists_reads_writeEntries entries (Nat.le_of_succ_le_succ hd)
      (length_writeEntries_lt hsize)
    exact ⟨_, reads_writeRecord hmembers hsize, fun _ h => nomatch h⟩

theorem exists_reads_writeItems {levels : Nat} : (items : List Document) →
    depthItems items ≤ levels → ((items.map write).flatten).length < UInt64.size →
    ∃ cs, List.Forall₂ (Reads levels) (items.map write) cs
  | [], _, _ => ⟨[], .nil⟩
  | d :: ds, h, hsize => by
    rw [depthItems, Nat.max_le] at h
    rw [List.map_cons, List.flatten_cons, List.length_append] at hsize
    obtain ⟨c, hc, -⟩ := exists_reads_write d h.1 (by omega)
    obtain ⟨cs, hcs⟩ := exists_reads_writeItems ds h.2 (by omega)
    exact ⟨c :: cs, .cons hc hcs⟩

theorem exists_reads_writeEntries {levels : Nat} : (entries : List (String × Document)) →
    depthEntries entries ≤ levels → ((entries.map writeEntry).flatten).length < UInt64.size →
    ∃ members : List (String × Cbor),
      List.Forall₂ (ReadsEntry levels) (entries.map writeEntry)
        (members.map fun m => (.text m.1, m.2)) ∧
      List.Forall₂ (fun entry m => Keeps .cbor entry (m.1, m.2.value?)) entries members
  | [], _, _ => ⟨[], .nil, .nil⟩
  | (name, d) :: rest, h, hsize => by
    rw [depthEntries, Nat.max_le] at h
    rw [List.map_cons, List.flatten_cons, List.length_append, writeEntry, List.length_append,
      writeText, List.length_append] at hsize
    obtain ⟨c, hc, hv⟩ := exists_reads_write d h.1 (by simp only at hsize; omega)
    obtain ⟨members, hmembers, hkeeps⟩ := exists_reads_writeEntries rest h.2 (by omega)
    have hname : Reads levels (writeText name) (.text name) :=
      reads_text levels (by simp only at hsize; omega)
    exact ⟨(name, c) :: members, .cons (readsEntry_append hname hc) hmembers,
      .cons ⟨rfl, hv⟩ hkeeps⟩

end

/-- The keys of texts are found as they are. -/
theorem mapM_keyText? (members : List (String × Cbor)) :
    (members.map fun m => (Cbor.text m.1, m.2)).mapM (fun (k, v) => (keyText? k).map (·, v)) =
      some members := by
  induction members with
  | nil => rfl
  | cons m members ih =>
    rw [List.map_cons, List.mapM_cons, ih]
    rfl

/-- The body of a record is read back, with every value in it that is not NaN. -/
theorem exists_written?_write {entries : List (String × Document)}
    (h : (Document.record entries).depth ≤ nestLimit)
    (hsize : (write (.record entries)).length ≤ Body.cborLimit) :
    ∃ pairs, Body.written? .cbor (write (.record entries)) = some pairs ∧
      List.Forall₂ (Keeps .cbor) entries pairs := by
  have hlength : (write (.record entries)).length < UInt64.size :=
    Nat.lt_of_le_of_lt hsize (by decide)
  obtain ⟨members, hmembers, hkeeps⟩ := exists_reads_writeEntries entries
    (Nat.le_sub_one_of_lt h) (length_writeEntries_lt hlength)
  have hread : read? nestLimit (write (.record entries) ++ []) = _ :=
    reads_writeRecord hmembers hlength []
  rw [List.append_nil] at hread
  refine ⟨members.map fun m => (m.1, m.2.value?), ?_, List.forall₂_map_right_iff.2 hkeeps⟩
  rw [Body.written?, if_neg (Nat.not_lt.2 hsize), entries?, ofOctets?, hread]
  simp only [mapM_keyText?, Option.map_some]

end ResourceEngine.Cbor
