import ResourceEngine.Text.CaseFold

/-!
# Sets of characters

A set of characters is a list of ranges in order, no two of which overlap or follow each other
without a code point between them. `insert` keeps this form and merges what touches; the operations
on sets are built from it and from cutting one range out of another. `withVariants` adds the
characters equal to those of a set but for case.
-/

namespace ResourceEngine.Regex

/-- The characters from `lo` to `hi`. -/
structure CharRange where
  lo : Char
  hi : Char
  deriving DecidableEq

/-- The last character. -/
def lastChar : Char := Char.ofNat 0x10FFFF

/-- The character after one that is not the last. No character lies between U+D7FF and U+E000. -/
def charAfter (c : Char) : Char :=
  if c = '\uD7FF' then '\uE000' else Char.ofNat (c.toNat + 1)

/-- The character before one that is not the first. -/
def charBefore (c : Char) : Char :=
  if c = '\uE000' then '\uD7FF' else Char.ofNat (c.toNat - 1)

namespace CharRange

def single (c : Char) : CharRange := ⟨c, c⟩

/-- The range with these two ends, the lesser first. -/
def ofEnds (a b : Char) : CharRange := if a ≤ b then ⟨a, b⟩ else ⟨b, a⟩

def contains (r : CharRange) (c : Char) : Bool := decide (r.lo ≤ c ∧ c ≤ r.hi)

/-- The range ends before the other one begins, with a code point between them. -/
def apartFrom (r s : CharRange) : Bool := decide (r.hi.toNat + 1 < s.lo.toNat)

/-- The range from the first character of either to the last of either. -/
def span (r s : CharRange) : CharRange :=
  ⟨if r.lo ≤ s.lo then r.lo else s.lo, if r.hi ≤ s.hi then s.hi else r.hi⟩

/-- What two ranges share. -/
def overlap? (r s : CharRange) : Option CharRange :=
  let lo := if r.lo ≤ s.lo then s.lo else r.lo
  let hi := if r.hi ≤ s.hi then r.hi else s.hi
  if lo ≤ hi then some ⟨lo, hi⟩ else none

/-- What is left of a range without the characters of another. -/
def without (r s : CharRange) : List CharRange :=
  match r.overlap? s with
  | none => [r]
  | some o =>
    (if r.lo < o.lo then [⟨r.lo, charBefore o.lo⟩] else []) ++
      (if o.hi < r.hi then [⟨charAfter o.hi, r.hi⟩] else [])

end CharRange

/-- A set of characters by its ranges, in order and apart. -/
abbrev CharSet := List CharRange

namespace CharSet

def contains (s : CharSet) (c : Char) : Bool := List.any s (·.contains c)

/-- The set with the characters of one more range. -/
def insert : CharSet → CharRange → CharSet
  | [], r => [r]
  | x :: xs, r =>
    if r.apartFrom x then r :: x :: xs
    else if x.apartFrom r then x :: insert xs r
    else insert xs (x.span r)

/-- The characters of any of some ranges. -/
def ofRanges (rs : List CharRange) : CharSet := rs.foldl insert []

/-- The set of some characters. -/
def ofChars (cs : List Char) : CharSet := ofRanges (cs.map .single)

/-- Every character. -/
def all : CharSet := [⟨'\x00', lastChar⟩]

/-- The characters of either set. -/
def union (s t : CharSet) : CharSet := t.foldl insert s

/-- The characters of both sets. -/
def intersection (s t : CharSet) : CharSet := s.flatMap fun r => t.filterMap r.overlap?

/-- The characters of the first set that are not in the second. -/
def difference (s t : CharSet) : CharSet :=
  s.flatMap fun r => t.foldl (fun pieces x => pieces.flatMap (·.without x)) [r]

/-- The characters of one set only. -/
def symmetricDifference (s t : CharSet) : CharSet := difference (union s t) (intersection s t)

/-- The characters between a range and the ranges after it, and after the last. A gap is taken by
its ends, whichever comes first: two ranges that end and begin where no characters lie between them
leave these two characters. -/
def gapsAfter (r : CharRange) : CharSet → CharSet
  | [] => if r.hi < lastChar then [⟨charAfter r.hi, lastChar⟩] else []
  | x :: xs => .ofEnds (charAfter r.hi) (charBefore x.lo) :: gapsAfter x xs

/-- The characters that a set does not have. -/
def complement : CharSet → CharSet
  | [] => all
  | r :: rs =>
    (if '\x00' < r.lo then [⟨'\x00', charBefore r.lo⟩] else []) ++ gapsAfter r rs

/-- The set has no characters but ASCII ones. -/
def isAscii (s : CharSet) : Bool := List.all s fun r => decide (r.hi.toNat < 0x80)

/-- A set with the characters that differ from one of its own in case only: first what its
characters fold to, then what folds to a character of the set. -/
def closeUnder (folds : List (Char × Char)) (s : CharSet) : CharSet :=
  let down := folds.foldl (fun t (c, f) => if s.contains c then t.insert (.single f) else t) s
  folds.foldl (fun t (c, f) => if down.contains f then t.insert (.single c) else t) down

/-- The set with the case variants of its characters. -/
def withVariants (s : CharSet) : CharSet := s.closeUnder Text.foldPairs

/-- The set with the case variants among ASCII of its characters. -/
def withAsciiVariants (s : CharSet) : CharSet :=
  s.closeUnder (Text.foldPairs.filter fun (c, f) => decide (c.toNat < 0x80 ∧ f.toNat < 0x80))

end CharSet

end ResourceEngine.Regex
