import ResourceEngine.Proofs.Text.Integers
import ResourceEngine.Statement.Target

/-!
# Keys

A request names a row by a text, which is converted to the kind of the primary key. The text that a
value is shown as names the row with that value, whether the key is an integer, a text or a truth
value. An integer has other names too: all of its numerals, with white space around them. No other
text names an integer.
-/

namespace ResourceEngine

namespace Kind

variable {k : Kind} {s : String} {v : Value}

/-- A text is never converted to null. -/
theorem admits_of_coerce_text (h : k.coerce (.text s) = .ok v) : k.admits v = true := by
  unfold coerce at h
  simp only [Value.isNull, Bool.false_eq_true, if_false] at h
  split at h <;> cases h
  next hconvert => exact admits_of_convert? hconvert

theorem coerce_text_integer (s : String) : Kind.integer.coerce (.text s) =
    match Text.int64? (Text.trim s.toList) with
    | some i => .ok (.integer i)
    | none => .error ⟨.integer, .text s⟩ := by
  cases h : Text.int64? (Text.trim s.toList) <;> simp [coerce, convert?, Value.isNull, h]

/-- A text is converted to the integer that it denotes. -/
theorem coerce_text_integer_eq_ok_iff : Kind.integer.coerce (.text s) = .ok v ↔
    ∃ i : Int64, v = .integer i ∧ Text.Denotes s.toList i.toInt := by
  simp only [← Text.int64?_trim_eq_some_iff, coerce_text_integer]
  cases Text.int64? (Text.trim s.toList) with
  | some i => simp [eq_comm]
  | none => simp

/-- The value is read back from its text. -/
theorem coerce_plainText (hk : k ∈ [.integer, .text, .bool]) (hv : k.admits v = true) :
    k.coerce (.text v.plainText) = .ok v := by
  obtain rfl | rfl | rfl : k = .integer ∨ k = .text ∨ k = .bool := by simpa using hk
  · obtain ⟨i, rfl⟩ : ∃ i, v = .integer i := by cases v <;> first | exact ⟨_, rfl⟩ | cases hv
    exact coerce_text_integer_eq_ok_iff.2 ⟨i, rfl, Text.denotes_toString i.toInt⟩
  · obtain ⟨s, rfl⟩ : ∃ s, v = .text s := by cases v <;> first | exact ⟨_, rfl⟩ | cases hv
    rfl
  · obtain ⟨b, rfl⟩ : ∃ b, v = .bool b := by cases v <;> first | exact ⟨_, rfl⟩ | cases hv
    cases b <;> decide

end Kind

namespace Target

variable {t : Target} {pk : Field} {i : Nat} (hpk : t.resource.primaryKey = .ok (pk, i))
  {key : String} {v : Value}

include hpk

theorem parseKey_eq (key : String) : t.parseKey key =
    match pk.kind.coerce (.text key) with
    | .ok v => .ok v
    | .error e => .error (.invalidKey key t.name e) := by
  rw [parseKey, hpk]
  rfl

theorem parseKey_eq_ok_iff : t.parseKey key = .ok v ↔ pk.kind.coerce (.text key) = .ok v := by
  rw [parseKey_eq hpk]
  cases pk.kind.coerce (.text key) <;> simp

theorem admits_of_parseKey (h : t.parseKey key = .ok v) : pk.kind.admits v = true :=
  Kind.admits_of_coerce_text ((parseKey_eq_ok_iff hpk).1 h)

theorem parseKey_refuses_iff :
    (∃ p, t.parseKey key = .error p ∧ p.kind = .badRequest) ↔ ∀ v, t.parseKey key ≠ .ok v := by
  rw [parseKey_eq hpk]
  cases pk.kind.coerce (.text key) with
  | ok v => simp
  | error e => simp [Problem.kind]

/-- The text of a value names the row with that value as its key, where values of the kind have texts
of their own, and what a key is parsed as is a value of the kind. An integer is named by its numerals,
which may have white space around them, and two texts name the same row if they are numerals of one
integer; every other text is refused. -/
theorem parseKey_names :
    (∀ v, pk.kind ∈ [.integer, .text, .bool] → pk.kind.admits v = true →
      t.parseKey v.plainText = .ok v) ∧
    (∀ key v, t.parseKey key = .ok v → v.isNull = false ∧ pk.kind.admits v = true) ∧
    (pk.kind = .integer → ∀ key,
      (∀ v, t.parseKey key = .ok v ↔
        ∃ n : Int64, v = .integer n ∧ Text.Denotes key.toList n.toInt) ∧
      ((∃ p, t.parseKey key = .error p ∧ p.kind = .badRequest) ↔
        ∀ n : Int64, ¬Text.Denotes key.toList n.toInt) ∧
      ∀ key', (∃ v, t.parseKey key = .ok v ∧ t.parseKey key' = .ok v) ↔
        ∃ n : Int64, Text.Denotes key.toList n.toInt ∧ Text.Denotes key'.toList n.toInt) := by
  refine ⟨fun v hk hv => (parseKey_eq_ok_iff hpk).2 (Kind.coerce_plainText hk hv),
    fun key v h => ?_, fun hk key => ?_⟩
  · have hv := admits_of_parseKey hpk h
    exact ⟨Kind.isNull_of_admits hv, hv⟩
  -- All that is said of integers follows from when a text is parsed as one.
  · have hparse (key : String) (v : Value) : t.parseKey key = .ok v ↔
        ∃ n : Int64, v = .integer n ∧ Text.Denotes key.toList n.toInt := by
      rw [parseKey_eq_ok_iff hpk, hk, Kind.coerce_text_integer_eq_ok_iff]
    refine ⟨hparse key, ?_, fun key' => ?_⟩
    · rw [parseKey_refuses_iff hpk]
      constructor
      · intro h n hn
        exact h _ ((hparse key _).2 ⟨n, rfl, hn⟩)
      · intro h v hv
        obtain ⟨n, -, hn⟩ := (hparse key v).1 hv
        exact h n hn
    · simp only [hparse]
      constructor
      · rintro ⟨_, ⟨n, rfl, hn⟩, m, hm, hm'⟩
        obtain rfl := Value.integer.inj hm
        exact ⟨n, hn, hm'⟩
      · rintro ⟨n, hn, hn'⟩
        exact ⟨.integer n, ⟨n, rfl, hn⟩, n, rfl, hn'⟩

omit hpk

/-- Entries are numbered. -/
def entries : Target where
  resource :=
    { name := "entries"
      schema := { table := "entries", fields := [⟨"id", .integer, false, true, true⟩],
                  relations := [] }
      actions := .all }
  space := none
  dialect := .sqlite

/-- The least key is read from its text, and one key from two texts; a number that is too large is no
key. -/
theorem parseKey_names_entries :
    entries.resource.primaryKey = .ok (⟨"id", .integer, false, true, true⟩, 0) ∧
      entries.parseKey (Value.integer Int64.minValue).plainText = .ok (.integer Int64.minValue) ∧
      (∃ v, entries.parseKey "-7" = .ok v ∧ entries.parseKey "\u00a0-007\n" = .ok v) ∧
      ∀ n : Int64, ¬Text.Denotes "9223372036854775808".toList n.toInt := by
  have hpk : entries.resource.primaryKey = .ok (⟨"id", .integer, false, true, true⟩, 0) := rfl
  obtain ⟨hback, -, hnames⟩ := parseKey_names hpk
  refine ⟨hpk, hback _ (by decide) rfl, ?_, ?_⟩
  · refine ((hnames rfl "-7").2.2 "\u00a0-007\n").2 ⟨-7, ?_, ?_⟩
    · exact ⟨[], _, [], rfl, .minus 0 7, by simp, by simp⟩
    · exact ⟨['\u00a0'], _, ['\n'], rfl, .minus 2 7,
        List.forall_mem_singleton.2 rfl, List.forall_mem_singleton.2 rfl⟩
  · exact (hnames rfl _).2.1.1 ⟨_, rfl, rfl⟩

end Target

end ResourceEngine
