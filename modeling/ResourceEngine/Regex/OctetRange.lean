import ResourceEngine.Regex.CharSet

/-!
# Ranges of octets

The UTF-8 forms of the characters of a range, as sequences of ranges of octets: a character lies in
the range if its octets lie one by one in the ranges of one of the sequences. The range is cut where
the number of octets changes and around the code points that are no characters, and then into blocks
whose last octets run through all their values.
-/

namespace ResourceEngine.Regex

/-- The octets from `lo` to `hi`. -/
structure OctetRange where
  lo : UInt8
  hi : UInt8
  deriving DecidableEq

/-- The code points of each number of octets, in order, without those that are no characters. -/
def encodingSpans : List (Nat × Nat) :=
  [(0, 0x7F), (0x80, 0x7FF), (0x800, 0xD7FF), (0xE000, 0xFFFF), (0x10000, 0x10FFFF)]

/-- Cuts a range into a part before the first whole block of the given size, whole blocks, and a
part after the last. A range inside one block is not cut. -/
def cutBlocks (size : Nat) (range : Nat × Nat) : List (Nat × Nat) :=
  let (lo, hi) := range
  if lo / size = hi / size then [(lo, hi)]
  else
    let start := (lo + size - 1) / size * size
    let stop := (hi + 1) / size * size
    (if lo < start then [(lo, start - 1)] else []) ++
      (if start < stop then [(start, stop - 1)] else []) ++
      (if stop ≤ hi then [(stop, hi)] else [])

/-- The sequences of one span: a range of ASCII characters is one, and others are cut into blocks of
the characters that share all octets but the last, then all but the last two, then three. -/
def spanSequences (range : Nat × Nat) : List (Nat × Nat) :=
  if range.2 < 0x80 then [range]
  else ((cutBlocks 0x40 range).flatMap (cutBlocks 0x1000)).flatMap (cutBlocks 0x40000)

/-- The sequences of ranges of octets of the characters of a range, in order. -/
def CharRange.octetSequences (r : CharRange) : List (List OctetRange) :=
  let spans := encodingSpans.filterMap fun (first, last) =>
    let lo := max first r.lo.toNat
    let hi := min last r.hi.toNat
    if lo ≤ hi then some (lo, hi) else none
  (spans.flatMap spanSequences).map fun (lo, hi) =>
    List.zipWith OctetRange.mk (String.utf8EncodeChar (Char.ofNat lo))
      (String.utf8EncodeChar (Char.ofNat hi))

/-- The sequences of ranges of octets of the characters of a set, in order. -/
def CharSet.octetSequences (s : CharSet) : List (List OctetRange) :=
  s.flatMap CharRange.octetSequences

end ResourceEngine.Regex
