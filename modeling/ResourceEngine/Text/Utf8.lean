/-!
# UTF-8

Octets are read as characters one well-formed sequence at a time. A sequence that breaks off or
cannot go on is replaced as a whole: the longest run of octets that begins some well-formed sequence
counts as one, and an octet that begins none counts by itself.

The reader is a machine of one step per octet, `Utf8Machine.step`, so long inputs are read by a
plain left fold.
-/

namespace ResourceEngine.Text

/-- What begins at an octet: how many octets follow it, the range of the next one, and the bits it
contributes. `none` if no well-formed sequence begins with it. -/
def leadOctet? (b : UInt8) : Option (Nat × UInt8 × UInt8 × Nat) :=
  if b < 0x80 then some (0, 0, 0, b.toNat)
  else if b < 0xC2 then none
  else if b < 0xE0 then some (1, 0x80, 0xBF, b.toNat - 0xC0)
  else if b = 0xE0 then some (2, 0xA0, 0xBF, 0)
  else if b = 0xED then some (2, 0x80, 0x9F, 0xD)
  else if b < 0xF0 then some (2, 0x80, 0xBF, b.toNat - 0xE0)
  else if b = 0xF0 then some (3, 0x90, 0xBF, 0)
  else if b < 0xF4 then some (3, 0x80, 0xBF, b.toNat - 0xF0)
  else if b = 0xF4 then some (3, 0x80, 0x8F, 4)
  else none

/-- A sequence being read: the octets still owed, the range of the next one, and the bits so far. -/
structure Utf8Pending where
  owed : Nat
  low : UInt8
  high : UInt8
  bits : Nat

/-- The characters read, last first, with `none` for each malformed run, and the open sequence. -/
structure Utf8Machine where
  read : List (Option Char)
  pending : Option Utf8Pending

namespace Utf8Machine

def start : Utf8Machine := ⟨[], none⟩

/-- Reads an octet that begins a sequence. -/
def begin (read : List (Option Char)) (b : UInt8) : Utf8Machine :=
  match leadOctet? b with
  | none => ⟨none :: read, none⟩
  | some (0, _, _, bits) => ⟨some (Char.ofNat bits) :: read, none⟩
  | some (owed, low, high, bits) => ⟨read, some ⟨owed, low, high, bits⟩⟩

/-- Reads one octet. An octet that cannot go on an open sequence ends it and begins another. -/
def step (m : Utf8Machine) (b : UInt8) : Utf8Machine :=
  match m.pending with
  | none => begin m.read b
  | some p =>
    if p.low ≤ b ∧ b ≤ p.high then
      let bits := 64 * p.bits + (b.toNat - 0x80)
      if p.owed ≤ 1 then ⟨some (Char.ofNat bits) :: m.read, none⟩
      else ⟨m.read, some ⟨p.owed - 1, 0x80, 0xBF, bits⟩⟩
    else
      begin (none :: m.read) b

/-- What has been read, in order. A sequence still open is malformed. -/
def finish (m : Utf8Machine) : List (Option Char) :=
  (if m.pending.isSome then none :: m.read else m.read).reverse

end Utf8Machine

/-- The characters of octets, with `none` for each malformed run. -/
def utf8Characters (bytes : List UInt8) : List (Option Char) :=
  (bytes.foldl Utf8Machine.step .start).finish

/-- The characters of octets in which everything is well formed. -/
def ofUtf8? (bytes : List UInt8) : Option (List Char) :=
  let cs := utf8Characters bytes
  if cs.all Option.isSome then some (cs.filterMap id) else none

/-- The characters of any octets, with U+FFFD for what is malformed. -/
def ofUtf8Lossy (bytes : List UInt8) : List Char :=
  (utf8Characters bytes).map (·.getD '\uFFFD')

/-- The octets of a text. -/
def toUtf8 (s : String) : List UInt8 := s.toUTF8.toList

end ResourceEngine.Text
