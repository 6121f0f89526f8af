import Mathlib.Data.Bool.AllAny
import Mathlib.Data.List.TakeWhile
import Mathlib.Data.List.Forall2
import Mathlib.Tactic.FinCases
import Mathlib.Tactic.IntervalCases
import ResourceEngine.Proofs.Text.Digits
import ResourceEngine.Sql.Text

/-!
# Scanning statements

How a text falls into symbols: quoted names, words, integers, placeholders and signs, the longest
one each time. `scan` reads a whole text. Whatever the names in a fragment are and whichever chunks
stand next to each other, its text falls into one symbol for each chunk; `scan_render` asks only
that nothing is raw text and that functions have words for names. The reason is `spaced`: where it
leaves out the space, the first chunk is a sign that no other one begins with, or the second one
begins with a character that no symbol goes on with.
-/

namespace ResourceEngine

/-- The number that the placeholder of the `n`-th parameter carries, if it carries one. -/
def Dialect.number? (d : Dialect) (n : Nat) : Option Nat :=
  if d.numbersPlaceholders then some n else none

namespace Sql

/-- A symbol of a text. -/
inductive Symbol where
  /-- A name between double quotes. -/
  | name (name : String)
  | word (text : String)
  | integer (i : Int)
  /-- A placeholder, with its number if it carries one. -/
  | placeholder (number : Option Nat)
  | sign (t : Token)
  deriving DecidableEq

/-! ### The scanner -/

def startsWord (c : Char) : Bool := c.isAlpha || c == '_'

def inWord (c : Char) : Bool := startsWord c || c.isDigit

/-- Tokens that are no words, a longer one before what it starts with. -/
def signs : List Token :=
  [.NE, .LE, .GE, .EQ, .LT, .GT, .LPAREN, .RPAREN, .COMMA, .SEMI, .DOT, .STAR]

/-- A character of a name between quotes. -/
def doubled (c : Char) : List Char := if c = '"' then ['"', '"'] else [c]

/-- Reads a name up to its closing quote. A quote that is written twice belongs to the name. -/
def scanName : List Char → Option (List Char × List Char)
  | [] => none
  | [c] => if c = '"' then some ([], []) else none
  | c :: d :: cs =>
    if c = '"' then
      if d = '"' then (scanName cs).map (Prod.map ('"' :: ·) id) else some ([], d :: cs)
    else (scanName (d :: cs)).map (Prod.map (c :: ·) id)

/-- Reads the digits of a number. -/
def scanDigits (cs : List Char) : Option (Nat × List Char) :=
  match cs.takeWhile Char.isDigit with
  | [] => none
  | digits => some (Text.digitsValue digits, cs.dropWhile Char.isDigit)

/-- Reads the longest sign. -/
def scanSign (cs : List Char) : Option (Symbol × List Char) :=
  (signs.find? fun t => t.text.toList.isPrefixOf cs).map fun t =>
    (.sign t, cs.drop t.text.length)

/-- Reads the symbol that begins with a character. -/
def scanSymbol (c : Char) (cs : List Char) : Option (Symbol × List Char) :=
  if c = '"' then (scanName cs).map (Prod.map (fun name => .name (String.ofList name)) id)
  else if startsWord c then
    some (.word (String.ofList (c :: cs.takeWhile inWord)), cs.dropWhile inWord)
  else if c.isDigit then (scanDigits (c :: cs)).map (Prod.map (fun n : Nat => .integer n) id)
  else if c = '-' then (scanDigits cs).map (Prod.map (fun n : Nat => .integer (-n)) id)
  else if c = '?' then some (.placeholder none, cs)
  else if c = '$' then (scanDigits cs).map (Prod.map (fun n => .placeholder (some n)) id)
  else scanSign (c :: cs)

theorem length_le_of_map {α β : Type} {r : Option (α × List Char)} {g : α → β} {b : β}
    {rest : List Char} {n : Nat} (hr : ∀ a left, r = some (a, left) → left.length ≤ n)
    (h : r.map (Prod.map g id) = some (b, rest)) : rest.length ≤ n := by
  obtain ⟨⟨a, left⟩, ha, heq⟩ := Option.map_eq_some_iff.1 h
  cases heq
  exact hr a left ha

theorem length_scanName_lt {cs name rest : List Char} (h : scanName cs = some (name, rest)) :
    rest.length < cs.length := by
  fun_induction scanName cs generalizing name rest with
  | case1 | case3 => cases h
  | case2 | case5 => cases h; simp
  | case4 cs ih =>
    have hle := length_le_of_map (n := cs.length) (fun _ _ ha => (ih ha).le) h
    simp only [List.length_cons]
    omega
  | case6 c d cs _ ih =>
    have hle := length_le_of_map (n := cs.length) (fun _ _ ha => Nat.le_of_lt_succ (ih ha)) h
    simp only [List.length_cons]
    omega

theorem length_scanDigits_lt {cs rest : List Char} {n : Nat} (h : scanDigits cs = some (n, rest)) :
    rest.length < cs.length := by
  have hsum := congrArg List.length (List.takeWhile_append_dropWhile (p := Char.isDigit) (l := cs))
  rw [List.length_append] at hsum
  unfold scanDigits at h
  split at h
  · cases h
  · next hne =>
    cases h
    have hpos := List.length_pos_of_ne_nil hne
    omega

/-- A symbol takes at least its first character. -/
theorem length_scanSymbol_le {c : Char} {cs rest : List Char} {x : Symbol}
    (h : scanSymbol c cs = some (x, rest)) : rest.length ≤ cs.length := by
  unfold scanSymbol at h
  split_ifs at h
  · exact length_le_of_map (fun _ _ ha => (length_scanName_lt ha).le) h
  · cases h
    exact List.length_dropWhile_le _ _
  · refine length_le_of_map (fun n left ha => ?_) h
    have hlt := length_scanDigits_lt ha
    rw [List.length_cons] at hlt
    omega
  · exact length_le_of_map (fun _ _ ha => (length_scanDigits_lt ha).le) h
  · cases h
    exact le_rfl
  · exact length_le_of_map (fun _ _ ha => (length_scanDigits_lt ha).le) h
  · obtain ⟨t, -, heq⟩ := Option.map_eq_some_iff.1 h
    cases heq
    have hpos : 0 < t.text.length := by cases t <;> decide
    rw [List.length_drop, List.length_cons]
    omega

/-- Reads a text as a whole. White space separates symbols. -/
def scan : List Char → Option (List Symbol)
  | [] => some []
  | c :: cs =>
    if c.isWhitespace then scan cs
    else
      match _h : scanSymbol c cs with
      | some (x, rest) => (scan rest).map (x :: ·)
      | none => none
  termination_by cs => cs.length
  decreasing_by
    · simp
    · have := length_scanSymbol_le _h
      simp only [List.length_cons]
      omega

@[simp] theorem scan_nil : scan [] = some [] := by rw [scan]

theorem scan_blank {c : Char} (hc : c.isWhitespace = true) (cs : List Char) :
    scan (c :: cs) = scan cs := by
  rw [scan, if_pos hc]

/-- What follows a symbol is scanned on its own. -/
theorem scan_symbol {c : Char} {cs rest : List Char} {x : Symbol} (hc : c.isWhitespace = false)
    (h : scanSymbol c cs = some (x, rest)) : scan (c :: cs) = (scan rest).map (x :: ·) := by
  rw [scan, if_neg (by simp [hc])]
  split
  · next y left hy =>
    rw [h] at hy
    cases hy
    rfl
  · next hy =>
    rw [h] at hy
    cases hy

/-! ### The symbols of chunks -/

def isWordText (s : String) : Bool :=
  match s.toList with
  | [] => false
  | c :: cs => startsWord c && cs.all inWord

/-- The chunk is no raw text, and if it is a function, it has a word for a name. -/
def Chunk.isPlain : Chunk → Bool
  | .raw _ => false
  | .func name => isWordText name
  | _ => true

/-- The symbol of a chunk that has `n` values before it. -/
def Chunk.symbol (d : Dialect) (n : Nat) : Chunk → Symbol
  | .token t => if t ∈ signs then .sign t else .word t.text
  | .ident name => .name name
  | .raw text => .word text
  | .func name => .word name
  | .number i => .integer i.toInt
  | .param _ => .placeholder (d.number? (n + 1))

/-- The symbols of a fragment that has `n` values before it. -/
def symbols (d : Dialect) : Nat → Sql → List Symbol
  | _, [] => []
  | n, c :: cs => c.symbol d n :: symbols d (c.paramsAfter n) cs

/-- Characters that no symbol goes on with. -/
def stops : List Char := [' ', '(', ')', ',', ';', '.']

/-- A symbol before this rest of a text ends there. -/
def Ends (rest : List Char) : Prop := ∀ c ∈ rest.head?, c ∈ stops

/-- No longer sign begins with the chunk. -/
def Chunk.isClosed : Chunk → Bool
  | .token t => decide (t ∈ signs) && t != .LT && t != .GT
  | _ => false

/-- A text before this rest is read as one symbol. -/
def ReadsAs (text : List Char) (x : Symbol) (rest : List Char) : Prop :=
  scan (text ++ rest) = (scan rest).map (x :: ·)

section Reading

variable {rest : List Char}

/-- A quoted name is read back, as every quote in it is doubled and the last one is not. -/
theorem scanName_doubled (name : List Char) (hrest : ∀ c ∈ rest.head?, c ≠ '"') :
    scanName (name.flatMap doubled ++ '"' :: rest) = some (name, rest) := by
  induction name with
  | nil =>
    cases rest with
    | nil => rfl
    | cons c cs => simp [scanName, hrest c rfl]
  | cons c name ih =>
    by_cases hc : c = '"'
    · simp [doubled, hc, scanName, ih]
    · obtain ⟨d, cs, hcs⟩ : ∃ d cs, name.flatMap doubled ++ '"' :: rest = d :: cs := by
        cases h : name.flatMap doubled ++ '"' :: rest with
        | nil => simp at h
        | cons d cs => exact ⟨d, cs, rfl⟩
      rw [hcs] at ih
      simp [doubled, hc, hcs, scanName, ih]

/-- What holds of the characters that end symbols holds of the first one of the rest. -/
theorem Ends.forall {p : Char → Prop} [DecidablePred p] (hrest : Ends rest)
    (hp : stops.all (p ·) = true) : ∀ c ∈ rest.head?, p c :=
  fun c hc => List.all_iff_forall_prop.1 hp c (hrest c hc)

theorem mem_of_isDigit {c : Char} (hc : c.isDigit = true) :
    c ∈ ['0', '1', '2', '3', '4', '5', '6', '7', '8', '9'] := by
  rw [← Char.ofNat_toNat c]
  obtain ⟨hge, hle⟩ : 48 ≤ c.toNat ∧ c.toNat ≤ 57 := by
    simpa [Char.isDigit, UInt32.le_iff_toNat_le] using hc
  generalize c.toNat = n at hge hle
  interval_cases n <;> decide

theorem isWhitespace_of_startsWord {c : Char} (hc : startsWord c = true) :
    c.isWhitespace = false := by
  by_contra h
  rw [Bool.not_eq_false, Char.isWhitespace] at h
  simp only [Bool.or_eq_true, decide_eq_true_eq] at h
  rcases h with ((rfl | rfl) | rfl) | rfl <;> exact absurd hc (by decide)

theorem scanDigits_toDigits (n : Nat) (hrest : ∀ c ∈ rest.head?, c.isDigit = false) :
    scanDigits (Nat.toDigits 10 n ++ rest) = some (n, rest) := by
  obtain ⟨htake, hdrop⟩ :=
    Text.takeWhile_append_of_head (fun c => Text.isDigit_of_mem_toDigits) hrest
  unfold scanDigits
  rw [htake, hdrop]
  split
  · next hnil => exact absurd hnil Nat.toDigits_ne_nil
  · rw [Text.digitsValue_toDigits]

/-- The next character makes no longer sign of a comparison. -/
theorem scanSign_text {t : Token} (ht : t ∈ signs)
    (hrest : t = .LT ∨ t = .GT → ∀ c ∈ rest.head?, c ≠ '=' ∧ c ≠ '>') :
    scanSign (t.text.toList ++ rest) = some (.sign t, rest) := by
  cases t <;> first | exact absurd ht (by decide) | skip
  case LT | GT =>
    cases rest with
    | nil => rfl
    | cons c cs =>
      obtain ⟨h, h'⟩ := hrest (by simp) c rfl
      simp [scanSign, signs, Token.text, h.symm, h'.symm]
      rfl
  all_goals
    simp [scanSign, signs, Token.text]
    rfl

theorem toList_quoteName (name : String) :
    (quoteName name).toList = '"' :: (name.toList.flatMap doubled ++ ['"']) := by
  have hchar : ∀ c : Char,
      (if c = '"' then "\"\"" else String.singleton c).toList = doubled c := by
    intro c
    unfold doubled
    split_ifs
    · rfl
    · exact String.toList_singleton c
  simp [quoteName, String.toList_join, List.flatMap_map, hchar]

theorem readsAs_name (name : String) (hrest : Ends rest) :
    ReadsAs (quoteName name).toList (.name name) rest := by
  have hquote : ∀ c ∈ rest.head?, c ≠ '"' := hrest.forall (by decide)
  rw [ReadsAs, toList_quoteName, List.cons_append]
  refine scan_symbol (by decide) ?_
  rw [List.append_assoc, List.singleton_append, scanSymbol, if_pos rfl,
    scanName_doubled name.toList hquote]
  simp

theorem readsAs_word {s : String} (hs : isWordText s = true) (hrest : Ends rest) :
    ReadsAs s.toList (.word s) rest := by
  have hstop : ∀ c ∈ rest.head?, inWord c = false := hrest.forall (by decide)
  unfold isWordText at hs
  cases hchars : s.toList with
  | nil =>
    rw [hchars] at hs
    cases hs
  | cons c cs =>
    rw [hchars, Bool.and_eq_true, List.all_eq_true] at hs
    obtain ⟨htake, hdrop⟩ := Text.takeWhile_append_of_head hs.2 hstop
    have hquote : c ≠ '"' := by
      rintro rfl
      exact absurd hs.1 (by decide)
    rw [ReadsAs, List.cons_append]
    refine scan_symbol (isWhitespace_of_startsWord hs.1) ?_
    rw [scanSymbol, if_neg hquote, if_pos hs.1, htake, hdrop, ← hchars, String.ofList_toList]

theorem scanDigits_toString (n : Nat) (hrest : Ends rest) :
    scanDigits ((toString n).toList ++ rest) = some (n, rest) := by
  rw [Nat.toString_eq_ofList_toDigits, String.toList_ofList]
  exact scanDigits_toDigits n (hrest.forall (by decide))

theorem readsAs_natural (n : Nat) (hrest : Ends rest) :
    ReadsAs (toString n).toList (.integer n) rest := by
  have hdigits := scanDigits_toString n hrest
  cases hchars : (toString n).toList with
  | nil =>
    rw [Nat.toString_eq_ofList_toDigits, String.toList_ofList] at hchars
    exact absurd hchars Nat.toDigits_ne_nil
  | cons c cs =>
    have hc : c.isDigit = true := by
      refine Text.isDigit_of_mem_toDigits (n := n) ?_
      rw [← String.toList_ofList (l := Nat.toDigits 10 n), ← Nat.toString_eq_ofList_toDigits,
        hchars]
      exact List.mem_cons_self
    have hdigit : ∀ d ∈ ['0', '1', '2', '3', '4', '5', '6', '7', '8', '9'],
        d.isWhitespace = false ∧ d ≠ '"' ∧ ¬startsWord d = true :=
      List.all_iff_forall_prop.1 (by decide)
    obtain ⟨hblank, hquote, hword⟩ := hdigit c (mem_of_isDigit hc)
    rw [hchars, List.cons_append] at hdigits
    rw [ReadsAs, List.cons_append]
    refine scan_symbol hblank ?_
    rw [scanSymbol, if_neg hquote, if_neg hword, if_pos hc, hdigits]
    rfl

theorem scanSymbol_minus (cs : List Char) :
    scanSymbol '-' cs = (scanDigits cs).map (Prod.map (fun n : Nat => .integer (-n)) id) := by
  simp [scanSymbol, startsWord]

theorem scanSymbol_dollar (cs : List Char) :
    scanSymbol '$' cs = (scanDigits cs).map (Prod.map (fun n => .placeholder (some n)) id) := by
  simp [scanSymbol, startsWord]

/-- A negative number is read as one symbol, for no other token starts with its sign. -/
theorem readsAs_integer (i : Int) (hrest : Ends rest) :
    ReadsAs (toString i).toList (.integer i) rest := by
  rw [Int.toString_eq_repr, Int.repr_eq_if]
  split_ifs with hi
  · have hnat := readsAs_natural i.toNat hrest
    rwa [Int.toNat_of_nonneg hi] at hnat
  · have hdigits := scanDigits_toString (-i).toNat hrest
    have hminus : "-".toList = ['-'] := rfl
    rw [ReadsAs, String.toList_append, hminus, List.singleton_append, List.cons_append]
    refine scan_symbol (by decide) ?_
    rw [scanSymbol_minus, ← Nat.toString_eq_repr, hdigits]
    simp [Int.toNat_of_nonneg (show 0 ≤ -i by omega)]

theorem readsAs_placeholder (d : Dialect) (n : Nat) (hrest : Ends rest) :
    ReadsAs (d.placeholder n).toList (.placeholder (d.number? n)) rest := by
  cases d with
  | sqlite =>
    rw [ReadsAs, Dialect.placeholder]
    exact scan_symbol (c := '?') (by decide) rfl
  | postgresql =>
    have hdigits := scanDigits_toString n hrest
    have hdollar : "$".toList = ['$'] := rfl
    rw [ReadsAs, Dialect.placeholder, String.toList_append, hdollar, List.singleton_append,
      List.cons_append]
    refine scan_symbol (by decide) ?_
    rw [scanSymbol_dollar, hdigits]
    rfl

theorem exists_head_of_mem_signs {t : Token} (ht : t ∈ signs) :
    ∃ c ∈ ['<', '>', '=', '(', ')', ',', ';', '.', '*'], ∃ cs, t.text.toList = c :: cs := by
  fin_cases ht <;> refine ⟨_, ?_, _, rfl⟩ <;> decide

/-- A comparison is read to its end, since what follows it does not continue it. -/
theorem readsAs_sign {t : Token} (ht : t ∈ signs)
    (hrest : t = .LT ∨ t = .GT → ∀ c ∈ rest.head?, c ≠ '=' ∧ c ≠ '>') :
    ReadsAs t.text.toList (.sign t) rest := by
  have hsign := scanSign_text ht hrest
  obtain ⟨c, hc, cs, hchars⟩ := exists_head_of_mem_signs ht
  have hother : ∀ c ∈ ['<', '>', '=', '(', ')', ',', ';', '.', '*'],
      c.isWhitespace = false ∧ c ≠ '"' ∧ ¬startsWord c = true ∧ ¬c.isDigit = true ∧ c ≠ '-' ∧
        c ≠ '?' ∧ c ≠ '$' := List.all_iff_forall_prop.1 (by decide)
  obtain ⟨hblank, hquote, hword, hdigit, hminus, hmark, hdollar⟩ := hother c hc
  rw [hchars, List.cons_append] at hsign
  rw [ReadsAs, hchars, List.cons_append]
  refine scan_symbol hblank ?_
  rw [scanSymbol, if_neg hquote, if_neg hword, if_neg hdigit, if_neg hminus, if_neg hmark,
    if_neg hdollar, hsign]

theorem isWordText_text {t : Token} (ht : t ∉ signs) : isWordText t.text = true := by
  cases t <;> first | rfl | exact absurd (by decide) ht

/-- The text of a chunk is read as its symbol if what follows ends symbols, or if no symbol goes on
after it. -/
theorem readsAs_text {c : Chunk} (hc : c.isPlain = true) (d : Dialect) (n : Nat)
    (hrest : c.isClosed = true ∨ Ends rest) : ReadsAs (c.text d n).toList (c.symbol d n) rest := by
  cases c with
  | token t =>
    by_cases ht : t ∈ signs
    · simp only [Chunk.symbol, if_pos ht]
      refine readsAs_sign ht fun hlong => ?_
      rcases hrest with hclosed | hends
      · rcases hlong with rfl | rfl <;> cases hclosed
      · exact hends.forall (by decide)
    · simp only [Chunk.symbol, if_neg ht]
      refine readsAs_word (isWordText_text ht) (hrest.resolve_left ?_)
      simp [Chunk.isClosed, ht]
  | ident name => exact readsAs_name name (hrest.resolve_left Bool.false_ne_true)
  | raw text => cases hc
  | func name => exact readsAs_word hc (hrest.resolve_left Bool.false_ne_true)
  | number i => exact readsAs_integer i.toInt (hrest.resolve_left Bool.false_ne_true)
  | param v => exact readsAs_placeholder d (n + 1) (hrest.resolve_left Bool.false_ne_true)

end Reading

/-! ### Fragments -/

/-- The chunks that stand next to others without a space. -/
def punctuation : List Chunk :=
  [.token .LPAREN, .token .RPAREN, .token .COMMA, .token .SEMI, .token .DOT]

theorem isClosed_of_mem_punctuation {c : Chunk} (hc : c ∈ punctuation) : c.isClosed = true := by
  fin_cases hc <;> rfl

theorem ends_of_mem_punctuation {c : Chunk} (hc : c ∈ punctuation) (d : Dialect) (n : Nat)
    (rest : List Char) : Ends ((c.text d n).toList ++ rest) := by
  obtain ⟨x, hx, cs, hcs⟩ : ∃ x ∈ stops, ∃ cs, (c.text d n).toList = x :: cs := by
    fin_cases hc <;> rw [Chunk.text] <;> refine ⟨_, ?_, _, rfl⟩ <;> decide
  rw [hcs]
  rintro y ⟨⟩
  exact hx

theorem mem_punctuation {c : Chunk} (hword : c.isWord = false)
    (hcomparison : c.isComparison = false) : c ∈ punctuation := by
  cases c with
  | token t =>
    cases t <;>
      first | decide | exact absurd hword (by decide) | exact absurd hcomparison (by decide)
  | _ => exact nomatch hword

/-- Where no space goes between two chunks, no symbol goes on after the first one, or the second one
ends symbols. -/
theorem ends_of_not_spaced {c next : Chunk} (h : spaced c next = false) (d : Dialect) (n : Nat)
    (rest : List Char) : c.isClosed = true ∨ Ends ((next.text d n).toList ++ rest) := by
  unfold spaced at h
  split at h
  case h_1 | h_2 | h_3 | h_4 | h_5 | h_10 =>
    exact .inr (ends_of_mem_punctuation (by decide) d n rest)
  case h_6 | h_7 | h_9 => exact .inl rfl
  case h_8 => cases h
  case h_11 =>
    simp only [Bool.or_eq_false_iff, Bool.and_eq_false_iff] at h
    obtain ⟨⟨hc, hnext⟩, hword | hword⟩ := h
    · exact .inl (isClosed_of_mem_punctuation (mem_punctuation hword hc))
    · exact .inr (ends_of_mem_punctuation (mem_punctuation hword hnext) d n rest)

/-- The text of a fragment begins with that of its first chunk. -/
theorem exists_pieces_cons (d : Dialect) (n : Nat) (c : Chunk) (s : Sql) :
    ∃ more, (pieces d n (c :: s)).flatMap String.toList = (c.text d n).toList ++ more := by
  cases s with
  | nil => exact ⟨[], by simp [pieces]⟩
  | cons next s =>
    rw [pieces]
    split_ifs <;> exact ⟨_, List.flatMap_cons⟩

/-- The pieces of a statement are scanned one by one, each in front of the text of those that
follow. -/
theorem scan_pieces (d : Dialect) (n : Nat) (s : Sql) (hs : ∀ c ∈ s, c.isPlain = true) :
    scan ((pieces d n s).flatMap String.toList) = some (symbols d n s) := by
  fun_induction pieces d n s with
  | case1 n => simp [symbols]
  | case2 n c =>
    have hread : ReadsAs (c.text d n).toList (c.symbol d n) [] :=
      readsAs_text (hs c List.mem_cons_self) d n (.inr (by simp [Ends]))
    simpa [ReadsAs, symbols] using hread
  | case3 n c next s hspace ih =>
    have hread : ReadsAs (c.text d n).toList (c.symbol d n)
        (' ' :: (pieces d (c.paramsAfter n) (next :: s)).flatMap String.toList) :=
      readsAs_text (hs c List.mem_cons_self) d n (.inr (by simp [Ends, stops]))
    rw [ReadsAs, scan_blank (by decide), ih fun x hx => hs x (List.mem_cons_of_mem _ hx)] at hread
    exact hread
  | case4 n c next s hspace ih =>
    obtain ⟨more, hmore⟩ := exists_pieces_cons d (c.paramsAfter n) next s
    have hends := ends_of_not_spaced (Bool.eq_false_iff.2 hspace) d (c.paramsAfter n) more
    have hread := readsAs_text (hs c List.mem_cons_self) d n hends
    rw [ReadsAs, ← hmore, ih fun x hx => hs x (List.mem_cons_of_mem _ hx)] at hread
    exact hread

/-- The text of a fragment without raw text falls into one symbol for each chunk. -/
theorem scan_render (d : Dialect) {s : Sql} (hs : ∀ c ∈ s, c.isPlain = true) :
    scan (render d s).toList = some (symbols d 0 s) := by
  rw [render, String.toList_join]
  exact scan_pieces d 0 s hs

/-- What a reader sees of a chunk. -/
inductive Symbol.Shows : Symbol → Chunk → Prop where
  | sign (t : Token) (ht : t ∈ signs) : Shows (.sign t) (.token t)
  | keyword (t : Token) (ht : t ∉ signs) : Shows (.word t.text) (.token t)
  | name (name : String) : Shows (.name name) (.ident name)
  | func (name : String) : Shows (.word name) (.func name)
  | number (i : Int64) : Shows (.integer i.toInt) (.number i)
  | placeholder (number : Option Nat) (v : Value) : Shows (.placeholder number) (.param v)

/-- The number of a placeholder, if the symbol is one. -/
def Symbol.placeholder? : Symbol → Option (Option Nat)
  | .placeholder number => some number
  | _ => none

theorem shows_symbol {c : Chunk} (hc : c.isPlain = true) (d : Dialect) (n : Nat) :
    (c.symbol d n).Shows c := by
  cases c with
  | token t =>
    rw [Chunk.symbol]
    split_ifs with ht
    · exact .sign t ht
    · exact .keyword t ht
  | ident name => exact .name name
  | raw text => cases hc
  | func name => exact .func name
  | number i => exact .number i
  | param v => exact .placeholder _ v

theorem forall₂_shows_symbols (d : Dialect) (n : Nat) {s : Sql} (hs : ∀ c ∈ s, c.isPlain = true) :
    List.Forall₂ Symbol.Shows (symbols d n s) s := by
  induction s generalizing n with
  | nil => exact .nil
  | cons c s ih =>
    exact .cons (shows_symbol (hs c List.mem_cons_self) d n)
      (ih _ fun x hx => hs x (List.mem_cons_of_mem _ hx))

/-- The placeholders of a fragment are numbered from one more than the values before it. -/
theorem filterMap_placeholder?_symbols (d : Dialect) (n : Nat) (s : Sql) :
    (symbols d n s).filterMap Symbol.placeholder? =
      (List.range' (n + 1) (params s).length).map d.number? := by
  induction s generalizing n with
  | nil => rfl
  | cons c s ih =>
    cases c with
    | param v =>
      rw [symbols, params_param, List.length_cons, List.range'_succ, List.map_cons, ← ih (n + 1)]
      rfl
    | token t =>
      rw [symbols, params_token, ← ih n, Chunk.symbol]
      split_ifs <;> rfl
    | _ => exact ih n

end Sql

end ResourceEngine
