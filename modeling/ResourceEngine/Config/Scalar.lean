import ResourceEngine.Text.Hexadecimal

/-!
# Settings values

The values that a setting may have in TOML: a text in one of four quotings, or an integer in one of
four bases. A text between triple quotes may run over several lines; between apostrophes there are
no escapes. Each reader takes the characters from the start of the value and gives those after its
end.
-/

namespace ResourceEngine.Config

/-- A value of a settings file. -/
inductive Scalar where
  | text (s : String)
  | integer (i : Int)
  deriving DecidableEq

namespace Scalar

/-- A space or a tab. -/
def isGap (c : Char) : Bool := c == ' ' || c == '\t'

/-- A character that may stand for itself on a line: a tab, or anything that is no control character
of ASCII. -/
def isInline (c : Char) : Bool := c == '\t' || (decide (0x20 ≤ c.toNat) && c.toNat != 0x7F)

/-- The character with a code point given by hexadecimal digits. -/
def codePoint? (digits : List Char) : Option Char :=
  match Text.hexNumber? 0 digits with
  | some n => if n.isValidChar then some (Char.ofNat n) else none
  | none => none

/-- The number of hexadecimal digits after the letter of an escape. -/
def codeLength? : Char → Option Nat
  | 'x' => some 2
  | 'u' => some 4
  | 'U' => some 8
  | _ => none

/-- The character that a letter after a backslash stands for by itself. -/
def simpleEscape? : Char → Option Char
  | '"' => some '"'
  | '\\' => some '\\'
  | 'b' => some '\x08'
  | 'e' => some '\x1b'
  | 'f' => some '\x0c'
  | 'n' => some '\n'
  | 'r' => some '\r'
  | 't' => some '\t'
  | _ => none

/-- Reads an escape after its backslash. -/
def escape? : List Char → Option (Char × List Char)
  | [] => none
  | c :: cs =>
    match codeLength? c with
    | some n => if n ≤ cs.length then (codePoint? (cs.take n)).map (·, cs.drop n) else none
    | none => (simpleEscape? c).map (·, cs)

theorem length_lt_of_escape? {cs rest : List Char} {c : Char} (h : escape? cs = some (c, rest)) :
    rest.length < cs.length := by
  unfold escape? at h
  split at h
  · simp at h
  · split at h
    · split at h
      · simp only [Option.map_eq_some_iff, Prod.mk.injEq] at h
        obtain ⟨_, _, _, rfl⟩ := h
        simp only [List.length_drop, List.length_cons]
        omega
      · simp at h
    · simp only [Option.map_eq_some_iff, Prod.mk.injEq] at h
      obtain ⟨_, _, _, rfl⟩ := h
      simp

/-- Reads a text between double quotes, after the first of them. -/
def quoted? (read : List Char) : List Char → Option (List Char × List Char)
  | [] => none
  | '"' :: cs => some (read.reverse, cs)
  | '\\' :: cs =>
    match _h : escape? cs with
    | some (c, rest) => quoted? (c :: read) rest
    | none => none
  | c :: cs => if isInline c then quoted? (c :: read) cs else none
termination_by cs => cs.length
decreasing_by
  · have := length_lt_of_escape? _h
    simp only [List.length_cons]
    omega
  · simp

/-- Reads a text between apostrophes, after the first of them. -/
def verbatim? (read : List Char) : List Char → Option (List Char × List Char)
  | [] => none
  | '\'' :: cs => some (read.reverse, cs)
  | c :: cs => if isInline c then verbatim? (c :: read) cs else none

/-- What follows three quotes if the characters begin with them, and the quotes, at most two, that
stand before the last three of a longer run. -/
def closing? (q : Char) : List Char → Option (List Char × List Char)
  | a :: b :: c :: cs =>
    if a = q ∧ b = q ∧ c = q then
      match cs with
      | d :: e :: rest =>
        if d = q ∧ e = q then some ([q, q], rest)
        else if d = q then some ([q], e :: rest)
        else some ([], cs)
      | [d] => if d = q then some ([q], []) else some ([], cs)
      | [] => some ([], [])
    else none
  | _ => none

/-- Drops gaps and line ends. -/
def skipLines : List Char → List Char
  | '\r' :: '\n' :: cs => skipLines cs
  | c :: cs => if isGap c || c == '\n' then skipLines cs else c :: cs
  | [] => []

/-- What follows a backslash that ends its line: the first character after the line end that is
neither a gap nor a line end, and all after it. -/
def continued? (cs : List Char) : Option (List Char) :=
  match cs.dropWhile isGap with
  | '\n' :: rest => some (skipLines rest)
  | '\r' :: '\n' :: rest => some (skipLines rest)
  | _ => none

theorem length_skipLines_le (cs : List Char) : (skipLines cs).length ≤ cs.length := by
  fun_induction skipLines cs with
  | case1 cs ih => simp only [List.length_cons]; omega
  | case2 c cs _ _ ih => simp only [List.length_cons]; omega
  | case3 => exact Nat.le_refl _
  | case4 => exact Nat.le_refl _

theorem length_lt_of_continued? {cs rest : List Char} (h : continued? cs = some rest) :
    rest.length < cs.length := by
  have hd : (cs.dropWhile isGap).length ≤ cs.length := (List.dropWhile_sublist _).length_le
  unfold continued? at h
  split at h
  · rename_i r hr
    have := length_skipLines_le r
    simp only [Option.some.injEq] at h
    subst h
    simp only [hr, List.length_cons] at hd
    omega
  · rename_i r hr
    have := length_skipLines_le r
    simp only [Option.some.injEq] at h
    subst h
    simp only [hr, List.length_cons] at hd
    omega
  · simp at h

/-- Reads a text between triple quotes, after the first of them. -/
def quotedLines? (read : List Char) : List Char → Option (List Char × List Char)
  | [] => none
  | '\\' :: cs =>
    match _h : escape? cs with
    | some (c, rest) => quotedLines? (c :: read) rest
    | none =>
      match _h : continued? cs with
      | some rest => quotedLines? read rest
      | none => none
  | '\r' :: '\n' :: cs => quotedLines? ('\n' :: '\r' :: read) cs
  | c :: cs =>
    match closing? '"' (c :: cs) with
    | some (quotes, rest) => some (read.reverse ++ quotes, rest)
    | none => if isInline c || c == '\n' then quotedLines? (c :: read) cs else none
termination_by cs => cs.length
decreasing_by
  · have := length_lt_of_escape? _h
    simp only [List.length_cons]
    omega
  · have := length_lt_of_continued? _h
    simp only [List.length_cons]
    omega
  · simp only [List.length_cons]
    omega
  · simp

/-- Reads a text between triple apostrophes, after the first of them. -/
def verbatimLines? (read : List Char) : List Char → Option (List Char × List Char)
  | [] => none
  | '\r' :: '\n' :: cs => verbatimLines? ('\n' :: '\r' :: read) cs
  | c :: cs =>
    match closing? '\'' (c :: cs) with
    | some (quotes, rest) => some (read.reverse ++ quotes, rest)
    | none => if isInline c || c == '\n' then verbatimLines? (c :: read) cs else none

/-- Drops a line end at the front. -/
def dropLineEnd : List Char → List Char
  | '\n' :: cs => cs
  | '\r' :: '\n' :: cs => cs
  | cs => cs

/-- Reads a text that stays on its line. -/
def lineText? : List Char → Option (List Char × List Char)
  | '"' :: cs => quoted? [] cs
  | '\'' :: cs => verbatim? [] cs
  | _ => none

/-- Reads a text of any quoting. A line end right after triple quotes is no part of it. -/
def text? : List Char → Option (List Char × List Char)
  | '"' :: '"' :: '"' :: cs => quotedLines? [] (dropLineEnd cs)
  | '\'' :: '\'' :: '\'' :: cs => verbatimLines? [] (dropLineEnd cs)
  | cs => lineText? cs

/-- The value of a digit in a base. -/
def digit? (base : Nat) (c : Char) : Option Nat :=
  (Text.hexValue? c).filter (· < base)

/-- The rest of a natural number: digits, and underscores that a digit follows. -/
def digits? (base found : Nat) : List Char → Option Nat
  | [] => some found
  | '_' :: c :: cs =>
    match digit? base c with
    | some d => digits? base (base * found + d) cs
    | none => none
  | c :: cs =>
    match digit? base c with
    | some d => digits? base (base * found + d) cs
    | none => none

/-- A natural number in a base, which begins with a digit. -/
def natural? (base : Nat) : List Char → Option Nat
  | '_' :: _ => none
  | [] => none
  | cs => digits? base 0 cs

/-- A decimal number, which begins with a zero only if it is zero. -/
def decimal? : List Char → Option Nat
  | '0' :: _ :: _ => none
  | cs => natural? 10 cs

/-- An integer: a number with a base in front of it, or a decimal number that may have a sign. -/
def integer? : List Char → Option Int
  | '0' :: 'x' :: cs => (natural? 16 cs).map Int.ofNat
  | '0' :: 'o' :: cs => (natural? 8 cs).map Int.ofNat
  | '0' :: 'b' :: cs => (natural? 2 cs).map Int.ofNat
  | '+' :: cs => (decimal? cs).map Int.ofNat
  | '-' :: cs => (decimal? cs).map fun n => -(n : Int)
  | cs => (decimal? cs).map Int.ofNat

/-- A letter or digit of ASCII, an underscore or a hyphen. -/
def isWordChar (c : Char) : Bool := c.isAlphanum || c == '_' || c == '-'

/-- Reads a value. -/
def ofChars? (cs : List Char) : Option (Scalar × List Char) :=
  match text? cs with
  | some (s, rest) => some (.text (String.ofList s), rest)
  | none =>
    let isNumberChar (c : Char) : Bool := isWordChar c || c == '+'
    (integer? (cs.takeWhile isNumberChar)).map fun i => (.integer i, cs.dropWhile isNumberChar)

end Scalar

end ResourceEngine.Config
