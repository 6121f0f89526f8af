import ResourceEngine.Text.Utf8

/-!
# Form bodies

A form is a list of pairs joined by ampersands, the name and the value of each parted by the first
equals sign. A plus stands for a space and `%XX` for an octet; a percent sign that no two
hexadecimal digits follow stands for itself. Octets are read as UTF-8, and what is malformed is
replaced.
-/

namespace ResourceEngine.Form

/-- The value of a hexadecimal digit. -/
def hexValue? (b : UInt8) : Option UInt8 :=
  if 0x30 ≤ b ∧ b ≤ 0x39 then some (b - 0x30)
  else if 0x41 ≤ b ∧ b ≤ 0x46 then some (b - 0x37)
  else if 0x61 ≤ b ∧ b ≤ 0x66 then some (b - 0x57)
  else none

/-- The octet of two hexadecimal digits at the front. -/
def hexPair? : List UInt8 → Option UInt8
  | h :: l :: _ => do return 16 * (← hexValue? h) + (← hexValue? l)
  | _ => none

/-- Resolves pluses and percent escapes, given how many octets belong to an escape already read, and
the octets found so far, last first. -/
def unescape : Nat → List UInt8 → List UInt8 → List UInt8
  | _, found, [] => found.reverse
  | skip + 1, found, _ :: rest => unescape skip found rest
  | 0, found, b :: rest =>
    if b = 0x2B then unescape 0 (0x20 :: found) rest
    else
      match if b = 0x25 then hexPair? rest else none with
      | some octet => unescape 2 (octet :: found) rest
      | none => unescape 0 (b :: found) rest

/-- The pieces of a list between separators, given those found and the open one, last first. -/
def splitAt (separator : UInt8) (found : List (List UInt8)) (piece : List UInt8) :
    List UInt8 → List (List UInt8)
  | [] => (piece.reverse :: found).reverse
  | b :: bs =>
    if b = separator then splitAt separator (piece.reverse :: found) [] bs
    else splitAt separator found (b :: piece) bs

/-- The text of an escaped piece. -/
def decode (octets : List UInt8) : String := String.ofList (Text.ofUtf8Lossy (unescape 0 [] octets))

/-- The name and the value of a pair. -/
def pair (octets : List UInt8) : String × String :=
  (decode (octets.takeWhile (· != 0x3D)), decode ((octets.dropWhile (· != 0x3D)).drop 1))

/-- The pairs of a body, in order. Empty pieces are no pairs. -/
def pairs (body : List UInt8) : List (String × String) :=
  ((splitAt 0x26 [] [] body).filter (!·.isEmpty)).map pair

end ResourceEngine.Form
