import ResourceEngine.Proofs.Codec.Body
import ResourceEngine.Proofs.Codec.Documents
import ResourceEngine.Proofs.Json.Reals
import ResourceEngine.Proofs.Text.Utf8

/-!
# Reading documents back

Whatever document is written in JSON, it is read back if it is not nested too deep; and so are the
values in it, but for reals.
-/

namespace ResourceEngine.Json

open Document (Keeps depth depthItems depthEntries)

theorem forall₂_octets (levels : Nat) (octets : List UInt8) :
    List.Forall₂ (fun item j => Reads levels item.toList j)
      (octets.map fun b => toString b.toNat) (octets.map fun b => ofInteger b.toNat) := by
  rw [List.forall₂_map_left_iff, List.forall₂_map_right_iff, List.forall₂_same]
  intro b _
  exact reads_natural levels (Nat.lt_trans b.toNat_lt (by decide))

theorem mapM_octet?_ofInteger (octets : List UInt8) :
    (octets.map fun b => ofInteger b.toNat).mapM octet? = some octets := by
  induction octets with
  | nil => rfl
  | cons b octets ih => simp [List.mapM_cons, octet?_ofInteger, ih]

/-- The document that a value is written as; what a real is written as says less. -/
def ofValue? : Value → Option Json
  | .null => some .null
  | .integer i => some (ofInteger i.toInt)
  | .real _ => none
  | .text s => some (.string s)
  | .blob octets => some (.array (octets.map fun b => ofInteger b.toNat))
  | .bool b => some (.bool b)

theorem value?_of_ofValue? {v : Value} {j : Json} (h : ofValue? v = some j) : j.value? = some v := by
  cases v with
  | integer i =>
    cases h
    exact value?_ofInteger i
  | blob octets =>
    cases h
    rw [value?, mapM_octet?_ofInteger, Option.map_some]
  | real x => cases h
  | _ =>
    cases h
    rfl

/-- A value that is no real is read as its document. A blob takes a level. -/
theorem reads_writeValue {levels : Nat} {v : Value} {j : Json} (h : ofValue? v = some j)
    (hlevels : ∀ octets, v = .blob octets → 2 ≤ levels) : Reads levels (writeValue v).toList j := by
  cases v with
  | null =>
    cases h
    exact reads_null levels
  | integer i =>
    cases h
    have hlower := i.le_toInt
    have hupper := i.toInt_lt
    exact reads_integer levels hlower (by rw [UInt64.size]; omega)
  | real x => cases h
  | text s =>
    cases h
    exact reads_quote levels s
  | blob octets =>
    cases h
    obtain ⟨levels, rfl⟩ := Nat.exists_eq_add_of_le' (hlevels octets rfl)
    exact reads_writeList (forall₂_octets _ octets) (by omega)
  | bool b =>
    cases h
    exact reads_bool levels b

/-- The document stands for the value, if the value is one that is kept. -/
def Stands (j : Json) (v : Value) : Prop := MediaFormat.json.keeps v = true → j.value? = some v

/-- A value is read back. -/
theorem exists_reads_writeValue {levels : Nat} (hlevels : 2 ≤ levels) (v : Value) :
    ∃ j, Reads levels (writeValue v).toList j ∧ Stands j v := by
  cases hv : ofValue? v with
  | some j => exact ⟨j, reads_writeValue hv fun _ _ => hlevels, fun _ => value?_of_ofValue? hv⟩
  | none =>
    cases v with
    | real x =>
      obtain ⟨j, hj⟩ := exists_reads_writeReal levels x
      exact ⟨j, hj, fun hkeeps => absurd hkeeps Bool.false_ne_true⟩
    | _ => exact nomatch hv

mutual

/-- A document is read back that is nested no deeper than there are levels. -/
theorem exists_reads_write {levels : Nat} : (d : Document) → d.depth ≤ levels →
    ∃ j, Reads levels (write d).toList j ∧ ∀ v, d = .value v → Stands j v
  | .value v, hd => by
    obtain ⟨j, hj, hv⟩ := exists_reads_writeValue hd v
    refine ⟨j, hj, ?_⟩
    rintro _ ⟨⟩
    exact hv
  | .natural n, _ => by
    refine ⟨ofInteger n.toNat, ?_, fun _ h => nomatch h⟩
    rw [write]
    exact reads_natural levels n.toNat_lt
  | .list items, hd => by
    obtain ⟨levels, rfl⟩ : ∃ m, levels = m + 1 := ⟨levels - 1, by rw [depth] at hd; omega⟩
    have hitems := Nat.le_of_succ_le_succ hd
    obtain ⟨js, hjs⟩ := exists_reads_writeItems items hitems
    have hlevels := Nat.le_trans (Document.one_le_depthItems items) hitems
    exact ⟨.array js, reads_writeList hjs hlevels, fun _ h => nomatch h⟩
  | .record entries, hd => by
    obtain ⟨levels, rfl⟩ : ∃ m, levels = m + 1 := ⟨levels - 1, by rw [depth] at hd; omega⟩
    have hentries := Nat.le_of_succ_le_succ hd
    obtain ⟨members, hmembers, -⟩ := exists_reads_writeEntries entries hentries
    have hlevels := Nat.le_trans (Document.one_le_depthEntries entries) hentries
    exact ⟨.object members, reads_writeRecord hmembers hlevels, fun _ h => nomatch h⟩

theorem exists_reads_writeItems {levels : Nat} : (items : List Document) →
    depthItems items ≤ levels →
    ∃ js, List.Forall₂ (fun item j => Reads levels item.toList j) (writeItems items) js
  | [], _ => ⟨[], .nil⟩
  | d :: ds, h => by
    rw [depthItems, Nat.max_le] at h
    obtain ⟨j, hj, -⟩ := exists_reads_write d h.1
    obtain ⟨js, hjs⟩ := exists_reads_writeItems ds h.2
    exact ⟨j :: js, .cons hj hjs⟩

theorem exists_reads_writeEntries {levels : Nat} : (entries : List (String × Document)) →
    depthEntries entries ≤ levels →
    ∃ members, List.Forall₂ (ReadsEntry levels) (writeEntries entries) members ∧
      List.Forall₂ (fun entry m => Keeps .json entry (m.1, m.2.value?)) entries members
  | [], _ => ⟨[], .nil, .nil⟩
  | (name, d) :: rest, h => by
    rw [depthEntries, Nat.max_le] at h
    obtain ⟨j, hj, hv⟩ := exists_reads_write d h.1
    obtain ⟨members, hmembers, hkeeps⟩ := exists_reads_writeEntries rest h.2
    exact ⟨(name, j) :: members, .cons ⟨rfl, hj⟩ hmembers, .cons ⟨rfl, hv⟩ hkeeps⟩

end

/-- A text that is read wherever it stands is read alone. -/
theorem ofText?_of_reads {text : List Char} {j : Json} (h : Reads nestLimit text j) :
    ofText? text = some j := by
  obtain ⟨draft, hdraft, hj⟩ := h.reads (2 * text.length + 2) [] (by omega) closes_nil
  rw [List.append_nil] at hdraft
  rw [ofText?, Draft.ofText, hdraft]
  exact hj

/-- The body of a record is read back, with every value in it that is not a real. -/
theorem exists_written?_write {entries : List (String × Document)}
    (h : (Document.record entries).depth ≤ nestLimit) :
    ∃ pairs, Body.written? .json (Text.toUtf8 (write (.record entries))) = some pairs ∧
      List.Forall₂ (Keeps .json) entries pairs := by
  have hentries := Nat.le_sub_one_of_lt h
  obtain ⟨members, hmembers, hkeeps⟩ := exists_reads_writeEntries entries hentries
  have hlevels := Nat.le_trans (Document.one_le_depthEntries entries) hentries
  have hread : ofText? (write (.record entries)).toList = some (.object members) :=
    ofText?_of_reads (reads_writeRecord hmembers hlevels)
  refine ⟨members.map fun m => (m.1, m.2.value?), ?_, List.forall₂_map_right_iff.2 hkeeps⟩
  simp only [Body.written?, Text.ofUtf8?_toUtf8, Option.bind_some, hread]

end ResourceEngine.Json
