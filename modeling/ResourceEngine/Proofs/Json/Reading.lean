import Mathlib.Data.List.Forall2
import Mathlib.Tactic.FinCases
import Mathlib.Tactic.IntervalCases
import ResourceEngine.Json.Basic
import ResourceEngine.Json.Writing

/-!
# Reading JSON back

Texts that are written are read back. `Reads` says of a text that it is read as a document wherever
it stands, before the end or before a sign that closes it; there is a lemma for each way that a text
is put together.
-/

namespace ResourceEngine.Json

open Draft

/-- What may stand behind a value: nothing, or a sign that ends it. -/
def Closes (rest : List Char) : Prop := ∀ c ∈ rest.head?, c = ',' ∨ c = ']' ∨ c = '}'

theorem closes_nil : Closes [] := fun _ h => nomatch h

theorem closes_cons {c : Char} (hc : c = ',' ∨ c = ']' ∨ c = '}') (rest : List Char) :
    Closes (c :: rest) := by
  rintro _ ⟨⟩
  exact hc

/-- The text is read as the document, which may be nested to as many levels. -/
structure Reads (levels : Nat) (text : List Char) (j : Json) : Prop where
  starts : ∃ c cs, text = c :: cs ∧ isBlank c = false ∧ c ≠ ']'
  reads : ∀ n rest, 2 * text.length ≤ n → Closes rest →
    ∃ draft, readValue n (text ++ rest) = (draft, some rest) ∧ ofDraft? levels draft = some j

theorem skip_of_not_blank {c : Char} (hc : isBlank c = false) (cs : List Char) :
    skip (c :: cs) = c :: cs :=
  List.dropWhile_cons_of_neg (by simp [hc])

/-! ### Strings -/

/-- The unit that an escaped character is read as. -/
def unitOf (c : Char) : StringUnit :=
  if c.toNat < 0x20 ∧ c ∉ ['\n', '\r', '\t', '\x08', '\x0c'] then .code c.toNat else .char c

theorem readString?_code (read : List StringUnit) {n : Nat} (hn : n < 0x20) (rest : List Char) :
    readString? read ((codeEscape n).toList ++ rest) = readString? (.code n :: read) rest := by
  interval_cases n <;> rfl

theorem readString?_char (read : List StringUnit) {c : Char} (hquote : c ≠ '"')
    (hescape : c ≠ '\\') (hcontrol : ¬c.toNat < 0x20) (rest : List Char) :
    readString? read (c :: rest) = readString? (.char c :: read) rest := by
  rw [readString?]
  · rw [if_neg hcontrol]
  · exact hquote
  · rintro - - - - - rfl
    exact absurd rfl hescape
  · rintro - - rfl
    exact absurd rfl hescape

theorem readString?_escape (read : List StringUnit) (c : Char) (rest : List Char) :
    readString? read ((escape c).toList ++ rest) = readString? (unitOf c :: read) rest := by
  by_cases hquote : c = '"'
  · subst hquote
    rfl
  by_cases hescape : c = '\\'
  · subst hescape
    rfl
  by_cases hplain : c ∈ ['\n', '\r', '\t', '\x08', '\x0c']
  · fin_cases hplain <;> rfl
  have hne : c ≠ '\n' ∧ c ≠ '\r' ∧ c ≠ '\t' ∧ c ≠ '\x08' ∧ c ≠ '\x0c' := by
    simpa using hplain
  unfold escape unitOf
  simp only [hquote, hescape, hne, if_false]
  by_cases hcontrol : c.toNat < 0x20
  · rw [if_pos hcontrol, if_pos ⟨hcontrol, hplain⟩, readString?_code read hcontrol]
  · rw [if_neg hcontrol, if_neg fun h => hcontrol h.1, String.toList_singleton,
      List.singleton_append, readString?_char read hquote hescape hcontrol]

theorem readString?_escapes (read : List StringUnit) (cs rest : List Char) :
    readString? read (cs.flatMap (fun c => (escape c).toList) ++ '"' :: rest) =
      some (read.reverse ++ cs.map unitOf, rest) := by
  induction cs generalizing read with
  | nil => simp [readString?]
  | cons c cs ih =>
    rw [List.flatMap_cons, List.append_assoc, readString?_escape, ih]
    simp

theorem decodeUnits_unitOf (read : List Char) (c : Char) (units : List StringUnit) :
    decodeUnits read (unitOf c :: units) = decodeUnits (c :: read) units := by
  unfold unitOf
  split_ifs with h
  · have hlow : ¬(0xD800 ≤ c.toNat ∧ c.toNat < 0xDC00) := by omega
    have hhigh : ¬(0xDC00 ≤ c.toNat ∧ c.toNat < 0xE000) := by omega
    rw [decodeUnits.eq_def]
    simp only [if_neg hlow, if_neg hhigh, Char.ofNat_toNat]
  · rw [decodeUnits]

/-- A text is decoded from the units of its characters. -/
theorem decodeString?_units (s : String) : decodeString? (s.toList.map unitOf) = some s := by
  have hunits (read cs : List Char) :
      decodeUnits read (cs.map unitOf) = some (read.reverse ++ cs) := by
    induction cs generalizing read with
    | nil => simp [decodeUnits]
    | cons c cs ih => simp [decodeUnits_unitOf, ih]
  rw [decodeString?, hunits [] s.toList, Option.map_some, List.reverse_nil, List.nil_append,
    String.ofList_toList]

theorem toList_quote (s : String) :
    (quote s).toList = '"' :: (s.toList.flatMap fun c => (escape c).toList) ++ ['"'] := by
  simp [quote, List.flatMap_map]

/-- A quoted text is read after its opening quote. -/
theorem readString?_quote (s : String) (rest : List Char) :
    readString? [] ((quote s).toList.tail ++ rest) = some (s.toList.map unitOf, rest) := by
  rw [toList_quote, List.cons_append, List.tail_cons, List.append_assoc, List.singleton_append,
    readString?_escapes, List.reverse_nil, List.nil_append]

theorem reads_quote (levels : Nat) (s : String) : Reads levels (quote s).toList (.string s) where
  starts := ⟨'"', _, toList_quote s, by decide, by decide⟩
  reads n rest hn _ := by
    have hquote := readString?_quote s rest
    rw [toList_quote, List.cons_append, List.tail_cons] at hquote
    rw [toList_quote] at hn ⊢
    obtain ⟨n, rfl⟩ : ∃ m, n = m + 1 := ⟨n - 1, by simp at hn; omega⟩
    refine ⟨.string (s.toList.map unitOf), ?_, ?_⟩
    · rw [List.cons_append, List.cons_append, readValue, skip_of_not_blank (by decide)]
      simp only [hquote]
    · rw [ofDraft?, decodeString?_units, Option.map_some]

/-! ### Words -/

theorem reads_null (levels : Nat) : Reads levels "null".toList .null where
  starts := ⟨'n', _, rfl, by decide, by decide⟩
  reads n rest hn _ := by
    obtain ⟨n, rfl⟩ : ∃ m, n = m + 1 := ⟨n - 1, by simp at hn; omega⟩
    refine ⟨.null, ?_, rfl⟩
    show readValue (n + 1) ('n' :: 'u' :: 'l' :: 'l' :: rest) = _
    rw [readValue, skip_of_not_blank (by decide)]
    rfl

theorem reads_bool (levels : Nat) (b : Bool) :
    Reads levels (Value.boolText b).toList (.bool b) where
  starts := by cases b <;> exact ⟨_, _, rfl, by decide, by decide⟩
  reads n rest hn _ := by
    obtain ⟨n, rfl⟩ : ∃ m, n = m + 1 := ⟨n - 1, by cases b <;> simp [Value.boolText] at hn <;> omega⟩
    refine ⟨.bool b, ?_, rfl⟩
    cases b
    · show readValue (n + 1) ('f' :: 'a' :: 'l' :: 's' :: 'e' :: rest) = _
      rw [readValue, skip_of_not_blank (by decide)]
      rfl
    · show readValue (n + 1) ('t' :: 'r' :: 'u' :: 'e' :: rest) = _
      rw [readValue, skip_of_not_blank (by decide)]
      rfl

/-! ### Lists -/

theorem Reads.starts_intercalate {levels : Nat} {text : List Char} {j : Json}
    (h : Reads levels text j) (texts : List (List Char)) :
    ∃ c cs, [','].intercalate (text :: texts) = c :: cs ∧ isBlank c = false ∧ c ≠ ']' := by
  obtain ⟨c, cs, rfl, hc⟩ := h.starts
  exact ⟨c, _, List.intercalate_cons_cons_left, hc⟩

theorem intercalate_cons_cons (text text' : List Char) (texts : List (List Char)) :
    [','].intercalate (text :: text' :: texts) =
      text ++ ',' :: [','].intercalate (text' :: texts) := by
  rw [List.intercalate_cons_cons, List.append_assoc, List.singleton_append]

/-- Items with commas between them are read one after another. -/
theorem readItems_of_reads {levels : Nat} {text : List Char} {texts : List (List Char)} {j : Json}
    {js : List Json} (h : Reads levels text j) (hrest : List.Forall₂ (Reads levels) texts js)
    (read : List Draft) (rest : List Char) {n : Nat}
    (hn : 2 * ([','].intercalate (text :: texts)).length < n) :
    ∃ drafts, readItems n read ([','].intercalate (text :: texts) ++ ']' :: rest) =
        (read.reverse ++ drafts, some rest) ∧
      ofDrafts? levels drafts = some (j :: js) := by
  induction hrest generalizing text j read n with
  | nil =>
    obtain ⟨n, rfl⟩ : ∃ m, n = m + 1 := ⟨n - 1, by omega⟩
    rw [List.intercalate_singleton] at hn ⊢
    obtain ⟨draft, hdraft, hj⟩ := h.reads n (']' :: rest) (by omega)
      (closes_cons (.inr (.inl rfl)) rest)
    refine ⟨[draft], ?_, ?_⟩
    · rw [readItems, hdraft]
      simp only
      rw [skip_of_not_blank (by decide)]
      simp
    · rw [ofDrafts?, hj]
      rfl
  | @cons text' j' texts js h' hrest ih =>
    obtain ⟨n, rfl⟩ : ∃ m, n = m + 1 := ⟨n - 1, by omega⟩
    rw [intercalate_cons_cons] at hn ⊢
    rw [List.length_append, List.length_cons] at hn
    rw [List.append_assoc, List.cons_append]
    obtain ⟨draft, hdraft, hj⟩ := h.reads n
      (',' :: ([','].intercalate (text' :: texts) ++ ']' :: rest)) (by omega)
      (closes_cons (.inl rfl) _)
    -- The first item and its comma are read, and the fuel that is left is enough for the others.
    obtain ⟨drafts, hdrafts, hjs⟩ := ih h' (draft :: read) (n := n) (by omega)
    refine ⟨draft :: drafts, ?_, ?_⟩
    · rw [readItems, hdraft]
      simp only
      rw [skip_of_not_blank (by decide)]
      simp only [hdrafts]
      simp
    · rw [ofDrafts?, hj]
      simp only [hjs, Option.map_some]

theorem toList_writeList (items : List String) :
    (writeList items).toList = '[' :: ([','].intercalate (items.map String.toList) ++ [']']) := by
  simp [writeList]

/-- A list is read as the array of what its items are read as. -/
theorem reads_writeList {levels : Nat} {items : List String} {js : List Json}
    (h : List.Forall₂ (fun item j => Reads levels item.toList j) items js) (hlevels : 1 ≤ levels) :
    Reads (levels + 1) (writeList items).toList (.array js) where
  starts := ⟨'[', _, toList_writeList items, by decide, by decide⟩
  reads n rest hn _ := by
    rw [toList_writeList] at hn ⊢
    obtain ⟨n, rfl⟩ : ∃ m, n = m + 1 := ⟨n - 1, by simp at hn; omega⟩
    have hdeep : ¬levels + 1 ≤ 1 := by omega
    rw [List.cons_append, readValue, skip_of_not_blank (by decide)]
    cases h with
    | nil =>
      refine ⟨.array [], ?_, ?_⟩
      · simp [skip_of_not_blank (c := ']') (by decide)]
      · rw [ofDraft?, if_neg hdeep]
        rfl
    | @cons item j items js h hrest =>
      simp only [List.map_cons, List.length_cons, List.length_append, List.length_nil,
        List.append_assoc, List.singleton_append] at hn ⊢
      rw [← List.forall₂_map_left_iff (f := String.toList)] at hrest
      obtain ⟨drafts, hdrafts, hjs⟩ := readItems_of_reads h hrest [] rest (n := n) (by omega)
      obtain ⟨c, cs, hcs, hblank, hc⟩ := h.starts_intercalate (items.map String.toList)
      rw [hcs, List.cons_append] at hdrafts ⊢
      refine ⟨.array drafts, ?_, ?_⟩
      · rw [skip_of_not_blank hblank]
        split
        · next heq => exact absurd (List.cons.inj heq).1 hc
        · rw [hdrafts]
          rfl
      · rw [ofDraft?, if_neg hdeep, Nat.add_sub_cancel, hjs, Option.map_some]

/-! ### Records -/

/-- An entry as it stands in a record. -/
def entryText (e : String × String) : List Char := (quote e.1).toList ++ ':' :: e.2.toList

/-- The entry is read as the member. -/
def ReadsEntry (levels : Nat) (e : String × String) (m : String × Json) : Prop :=
  e.1 = m.1 ∧ Reads levels e.2.toList m.2

/-- An entry is read up to the comma or the brace that stands behind it. -/
theorem readEntries_entryText {levels : Nat} {e : String × String} {m : String × Json}
    (h : ReadsEntry levels e m) (read : List (Option (List StringUnit) × Draft)) {rest : List Char}
    (hrest : Closes rest) {n : Nat} (hn : 2 * (entryText e).length ≤ n) :
    ∃ draft, ofDraft? levels draft = some m.2 ∧
      (∀ r, rest = ',' :: r → readEntries (n + 1) read (entryText e ++ rest) =
        readEntries n ((some (m.1.toList.map unitOf), draft) :: read) r) ∧
      ∀ r, rest = '}' :: r → readEntries (n + 1) read (entryText e ++ rest) =
        (((some (m.1.toList.map unitOf), draft) :: read).reverse, some r) := by
  obtain ⟨hname, hreads⟩ := h
  have hlength : 2 * e.2.toList.length ≤ n := by
    rw [entryText, List.length_append, List.length_cons] at hn
    omega
  obtain ⟨draft, hdraft, hj⟩ := hreads.reads n rest hlength hrest
  have hquote := readString?_quote e.1 (':' :: (e.2.toList ++ rest))
  rw [toList_quote, List.cons_append, List.tail_cons] at hquote
  rw [entryText, toList_quote, List.append_assoc, List.cons_append, List.cons_append, List.cons_append,
    readEntries, skip_of_not_blank (by decide)]
  simp only [hquote]
  rw [skip_of_not_blank (by decide)]
  simp only [hdraft, hname]
  refine ⟨draft, hj, ?_, ?_⟩
  · rintro r rfl
    rw [skip_of_not_blank (by decide)]
    rfl
  · rintro r rfl
    rw [skip_of_not_blank (by decide)]
    rfl

/-- Entries with commas between them are read one after another. -/
theorem readEntries_of_reads {levels : Nat} {e : String × String} {m : String × Json}
    {entries : List (String × String)} {members : List (String × Json)}
    (h : ReadsEntry levels e m) (hrest : List.Forall₂ (ReadsEntry levels) entries members)
    (read : List (Option (List StringUnit) × Draft)) (rest : List Char) {n : Nat}
    (hn : 2 * ([','].intercalate ((e :: entries).map entryText)).length < n) :
    ∃ drafts, readEntries n read ([','].intercalate ((e :: entries).map entryText) ++ '}' :: rest) =
        (read.reverse ++ drafts, some rest) ∧
      ofEntries? levels drafts = some (m :: members) := by
  induction hrest generalizing e m read n with
  | nil =>
    obtain ⟨n, rfl⟩ : ∃ m, n = m + 1 := ⟨n - 1, by omega⟩
    rw [List.map_singleton, List.intercalate_singleton] at hn ⊢
    obtain ⟨draft, hj, -, hread⟩ := readEntries_entryText h read
      (closes_cons (.inr (.inr rfl)) rest) (n := n) (by omega)
    refine ⟨[(some (m.1.toList.map unitOf), draft)], ?_, ?_⟩
    · rw [hread rest rfl, List.reverse_cons]
    · rw [ofEntries?, Option.bind_some, decodeString?_units]
      simp only [hj]
      rfl
  | @cons e' m' entries members h' hrest ih =>
    obtain ⟨n, rfl⟩ : ∃ m, n = m + 1 := ⟨n - 1, by omega⟩
    rw [List.map_cons, List.map_cons, intercalate_cons_cons, ← List.map_cons] at hn ⊢
    rw [List.length_append, List.length_cons] at hn
    rw [List.append_assoc, List.cons_append]
    obtain ⟨draft, hj, hread, -⟩ := readEntries_entryText h read
      (closes_cons (.inl rfl) ([','].intercalate ((e' :: entries).map entryText) ++ '}' :: rest))
      (n := n) (by omega)
    -- The first entry and its comma are read, and the fuel that is left is enough for the others.
    obtain ⟨drafts, hdrafts, hmembers⟩ :=
      ih h' ((some (m.1.toList.map unitOf), draft) :: read) (n := n) (by omega)
    refine ⟨(some (m.1.toList.map unitOf), draft) :: drafts, ?_, ?_⟩
    · rw [hread _ rfl, hdrafts, List.reverse_cons, List.append_assoc, List.singleton_append]
    · rw [ofEntries?, Option.bind_some, decodeString?_units]
      simp only [hj, hmembers, Option.map_some]

theorem toList_writeRecord (entries : List (String × String)) :
    (writeRecord entries).toList =
      '{' :: ([','].intercalate (entries.map entryText) ++ ['}']) := by
  have hentry : entryText = fun e => (quote e.1).toList ++ ':' :: e.2.toList := rfl
  simp [writeRecord, hentry, Function.comp_def]

/-- A record is read as the object of what its entries are read as. -/
theorem reads_writeRecord {levels : Nat} {entries : List (String × String)}
    {members : List (String × Json)} (h : List.Forall₂ (ReadsEntry levels) entries members)
    (hlevels : 1 ≤ levels) :
    Reads (levels + 1) (writeRecord entries).toList (.object members) where
  starts := ⟨'{', _, toList_writeRecord entries, by decide, by decide⟩
  reads n rest hn _ := by
    rw [toList_writeRecord] at hn ⊢
    obtain ⟨n, rfl⟩ : ∃ m, n = m + 1 := ⟨n - 1, by simp at hn; omega⟩
    have hdeep : ¬levels + 1 ≤ 1 := by omega
    rw [List.cons_append, readValue, skip_of_not_blank (by decide)]
    cases h with
    | nil =>
      refine ⟨.object [], ?_, ?_⟩
      · simp [skip_of_not_blank (c := '}') (by decide)]
      · rw [ofDraft?, if_neg hdeep]
        rfl
    | @cons e m entries members h hrest =>
      simp only [List.length_cons, List.length_append, List.length_nil, List.append_assoc,
        List.singleton_append] at hn ⊢
      obtain ⟨drafts, hdrafts, hmembers⟩ :=
        readEntries_of_reads h hrest [] rest (n := n) (by omega)
      -- What follows the brace is a quote, so it is not the brace that closes an empty record.
      obtain ⟨cs, hcs⟩ : ∃ cs, [','].intercalate ((e :: entries).map entryText) = '"' :: cs := by
        rw [List.map_cons, entryText, toList_quote, List.cons_append, List.cons_append]
        exact ⟨_, List.intercalate_cons_cons_left⟩
      rw [hcs, List.cons_append] at hdrafts ⊢
      refine ⟨.object drafts, ?_, ?_⟩
      · rw [skip_of_not_blank (by decide)]
        split
        · next heq => exact absurd (List.cons.inj heq).1 (by decide)
        · rw [hdrafts]
          rfl
      · rw [ofDraft?, if_neg hdeep, Nat.add_sub_cancel, hmembers, Option.map_some]

end ResourceEngine.Json
