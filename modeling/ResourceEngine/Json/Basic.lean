import ResourceEngine.Json.Draft
import ResourceEngine.Value.Basic

/-!
# JSON

A JSON document with its numbers and strings decoded. A number is a natural number of 64 bits, a
negative integer of 64 bits, or a real. A text with a number too large for a real, with half of a
surrogate pair in a string, or nested as deep as `nestLimit` is refused.
-/

namespace ResourceEngine

namespace Json

/-- A number, by the narrowest of the three forms that it has. -/
inductive Number where
  | natural (n : UInt64)
  | negative (i : Int64)
  | real (x : Binary64)
  deriving DecidableEq

end Json

/-- A document. The entries of an object keep their order, repeated keys included. -/
inductive Json where
  | null
  | bool (b : Bool)
  | number (n : Json.Number)
  | string (s : String)
  | array (items : List Json)
  | object (entries : List (String × Json))

namespace Json

/-- The nesting at which a document is refused. -/
def nestLimit : Nat := 128

namespace Numeral

/-- The leading digits of a significand as far as they make a number of 64 bits, and how many digits
of the list are left. -/
def significand : Nat → List Char → Nat × Nat
  | n, [] => (n, 0)
  | n, c :: cs =>
    let m := 10 * n + (c.toNat - 48)
    if m < UInt64.size then significand m cs else (n, cs.length + 1)

/-- A significand times a power of ten: the significand is rounded first, and then multiplied or
divided by the rounded power, in steps of at most `10 ^ 308`. A result that is not finite is
refused. -/
def scaled? : Nat → Binary64 → Int → Option Binary64
  | 0, _, _ => none
  | n + 1, x, e =>
    if e.natAbs ≤ 308 then
      let power := Binary64.ofDecimal false 1 e.natAbs
      let y := if 0 ≤ e then x.mul power else x.div power
      if y.isFinite then some y else none
    else if x.significand = 0 then some x
    else if 0 ≤ e then none
    else scaled? n (x.div (Binary64.ofDecimal false 1 308)) (e + 308)

/-- The value of the exponent, and whether its digits fit 31 bits. -/
def exponentValue (n : Numeral) : Int × Bool :=
  match n.exponent with
  | none => (0, true)
  | some (negative, ds) =>
    let e := Text.digitsValue ds
    (if negative then -(e : Int) else e, decide (e < 0x80000000))

/-- The real number that is written. Digits beyond the first that make a number of 64 bits only move
the point. -/
def real? (n : Numeral) : Option Binary64 :=
  let fraction := n.fraction.getD []
  let (m, wholeLeft) := significand 0 n.whole
  let (m, fractionLeft) := significand m fraction
  let (e, fits) := n.exponentValue
  let x :=
    if fits then
      scaled? 10 (Binary64.ofInt m) (wholeLeft - (fraction.length - fractionLeft : Nat) + e)
    else if m ≠ 0 ∧ 0 < e then none
    else some Binary64.zero
  x.map fun x => if n.negative then Binary64.ofMagnitude true x.magnitude else x

/-- The number that is written: an integer where it has neither point nor exponent and fits 64 bits,
and otherwise a real. A negative zero is a real. -/
def number? (n : Numeral) : Option Number :=
  let m := Text.digitsValue n.whole
  if n.fraction.isSome || n.exponent.isSome || decide (UInt64.size ≤ m) then
    n.real?.map .real
  else if !n.negative then
    some (.natural (UInt64.ofNat m))
  else if 0 < m ∧ m ≤ 0x8000000000000000 then
    some (.negative (Int64.ofInt (-(m : Int))))
  else
    n.real?.map .real

end Numeral

/-- The text of string units. A pair of surrogate codes is one character, and half a pair is none.
-/
def decodeUnits (read : List Char) : List StringUnit → Option (List Char)
  | [] => some read.reverse
  | .char c :: us => decodeUnits (c :: read) us
  | .code n :: us =>
    if 0xD800 ≤ n ∧ n < 0xDC00 then
      match us with
      | .code m :: us =>
        if 0xDC00 ≤ m ∧ m < 0xE000 then
          decodeUnits (Char.ofNat (0x10000 + 0x400 * (n - 0xD800) + (m - 0xDC00)) :: read) us
        else none
      | _ => none
    else if 0xDC00 ≤ n ∧ n < 0xE000 then none
    else decodeUnits (Char.ofNat n :: read) us

/-- The text of string units. -/
def decodeString? (units : List StringUnit) : Option String :=
  (decodeUnits [] units).map String.ofList

mutual

/-- The document of a draft, with the given number of levels left. -/
def ofDraft? : Nat → Draft → Option Json
  | _, .null => some .null
  | _, .bool b => some (.bool b)
  | _, .number n => n.number?.map .number
  | _, .string units => (decodeString? units).map .string
  | levels, .array items =>
    if levels ≤ 1 then none else (ofDrafts? (levels - 1) items).map .array
  | levels, .object entries =>
    if levels ≤ 1 then none else (ofEntries? (levels - 1) entries).map .object
  | _, .broken => none

def ofDrafts? : Nat → List Draft → Option (List Json)
  | _, [] => some []
  | levels, d :: ds =>
    match ofDraft? levels d with
    | none => none
    | some j => (ofDrafts? levels ds).map (j :: ·)

def ofEntries? : Nat → List (Option (List StringUnit) × Draft) → Option (List (String × Json))
  | _, [] => some []
  | levels, (key, d) :: rest =>
    match key.bind decodeString? with
    | none => none
    | some k =>
      match ofDraft? levels d with
      | none => none
      | some j => (ofEntries? levels rest).map ((k, j) :: ·)

end

/-- The document of a text. -/
def ofText? (cs : List Char) : Option Json :=
  match Draft.ofText cs with
  | (d, true) => ofDraft? nestLimit d
  | (_, false) => none

/-- The octet that a document stands for. -/
def octet? : Json → Option UInt8
  | .number (.natural n) => if n.toNat < 256 then some (UInt8.ofNat n.toNat) else none
  | _ => none

/-- The column value of a document: an array is a blob of octets, and an object is none. -/
def value? : Json → Option Value
  | .null => some .null
  | .bool b => some (.bool b)
  | .number (.natural n) => (Text.toInt64? n.toNat).map .integer
  | .number (.negative i) => some (.integer i)
  | .number (.real x) => some (.real x)
  | .string s => some (.text s)
  | .array items => (items.mapM octet?).map .blob
  | .object _ => none

end Json

end ResourceEngine
