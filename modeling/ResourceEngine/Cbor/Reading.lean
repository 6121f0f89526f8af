import ResourceEngine.Cbor.Basic

/-!
# Reading CBOR

Items are read from octets with a bound on the steps and a count of the levels of nesting left. A
length may be left open, in which case a break ends the item.
-/

namespace ResourceEngine.Cbor

/-- Takes `n` octets off the front, if there are as many. -/
def takeOctets? (n : Nat) (bs : List UInt8) : Option (List UInt8 × List UInt8) :=
  let front := bs.take n
  if front.length = n then some (front, bs.drop n) else none

/-- The argument of a head: a number, or an open length. -/
inductive Argument where
  | number (n : Nat)
  | openEnded

/-- Reads the argument that the low five bits of an initial octet announce. -/
def readArgument? (low : Nat) (bs : List UInt8) : Option (Argument × List UInt8) :=
  let wide (n : Nat) : Option (Argument × List UInt8) :=
    (takeOctets? n bs).map fun (front, rest) => (.number (ofBigEndian front), rest)
  if low < 24 then some (.number low, bs)
  else if low = 24 then wide 1
  else if low = 25 then wide 2
  else if low = 26 then wide 4
  else if low = 27 then wide 8
  else if low = 31 then some (.openEnded, bs)
  else none

/-- Reads the chunks of a string of the given major type up to a break, given the octets read so
far. -/
def readChunks? (major : Nat) :
    Nat → List (List UInt8) → List UInt8 → Option (List UInt8 × List UInt8)
  | 0, _, _ => none
  | _, _, [] => none
  | n + 1, read, b :: bs =>
    if b = 0xFF then some (read.reverse.flatten, bs)
    else if b.toNat / 32 = major then
      match readArgument? (b.toNat % 32) bs with
      | some (.number len, bs) =>
        match takeOctets? len bs with
        | some (front, bs) => readChunks? major n (front :: read) bs
        | none => none
      | _ => none
    else none

/-- Reads the octets of a string of the given major type, after its initial octet. -/
def readString? (major low : Nat) (bs : List UInt8) : Option (List UInt8 × List UInt8) :=
  match readArgument? low bs with
  | some (.number n, bs) => takeOctets? n bs
  | some (.openEnded, bs) => readChunks? major bs.length [] bs
  | none => none

/-- Reads a simple value or a real, after its initial octet. -/
def readSimple? (low : Nat) (bs : List UInt8) : Option (Cbor × List UInt8) :=
  if low = 20 then some (.bool false, bs)
  else if low = 21 then some (.bool true, bs)
  else if low = 22 ∨ low = 23 then some (.null, bs)
  else if low = 25 then
    (takeOctets? 2 bs).map fun (w, bs) => (.real (Binary64.widen .half (ofBigEndian w)), bs)
  else if low = 26 then
    (takeOctets? 4 bs).map fun (w, bs) => (.real (Binary64.widen .single (ofBigEndian w)), bs)
  else if low = 27 then
    (takeOctets? 8 bs).map fun (w, bs) => (.real ⟨UInt64.ofNat (ofBigEndian w)⟩, bs)
  else none

/-- Reads a number of things one after another, given those read so far, last first. -/
def readCounted? {α : Type} (read? : List UInt8 → Option (α × List UInt8)) :
    Nat → List α → List UInt8 → Option (List α × List UInt8)
  | 0, found, bs => some (found.reverse, bs)
  | n + 1, found, bs =>
    match read? bs with
    | some (a, bs) => readCounted? read? n (a :: found) bs
    | none => none

/-- Reads things one after another up to a break, given those read so far, last first. The bound is
on their number. -/
def readToBreak? {α : Type} (read? : List UInt8 → Option (α × List UInt8)) :
    Nat → List α → List UInt8 → Option (List α × List UInt8)
  | _, found, 0xFF :: bs => some (found.reverse, bs)
  | 0, _, _ => none
  | n + 1, found, bs =>
    match read? bs with
    | some (a, bs) => readToBreak? read? n (a :: found) bs
    | none => none

/-- Reads what an array or a map holds, after its initial octet. Each thing in it takes an octet at
least, so the length of what is left bounds their number. -/
def readMany? {α : Type} (read? : List UInt8 → Option (α × List UInt8)) (low : Nat)
    (bs : List UInt8) : Option (List α × List UInt8) :=
  match readArgument? low bs with
  | some (.number n, bs) => readCounted? read? n [] bs
  | some (.openEnded, bs) => readToBreak? read? bs.length [] bs
  | none => none

/-- Reads two things one after the other. -/
def readPair? {α : Type} (read? : List UInt8 → Option (α × List UInt8)) (bs : List UInt8) :
    Option ((α × α) × List UInt8) :=
  match read? bs with
  | some (a, bs) => (read? bs).map fun (b, bs) => ((a, b), bs)
  | none => none

/-- Reads an item that is nested no deeper than the given number of levels. -/
def read? : Nat → List UInt8 → Option (Cbor × List UInt8)
  | _, [] => none
  | levels, b :: bs =>
    let low := b.toNat % 32
    match b.toNat / 32, levels with
    | 0, _ =>
      match readArgument? low bs with
      | some (.number n, bs) => some (.integer n, bs)
      | _ => none
    | 1, _ =>
      match readArgument? low bs with
      | some (.number n, bs) => some (.integer (-1 - (n : Int)), bs)
      | _ => none
    | 2, _ => (readString? 2 low bs).map fun (octets, bs) => (.bytes octets, bs)
    | 3, _ =>
      match readString? 3 low bs with
      | some (octets, bs) => (Text.ofUtf8? octets).map fun cs => (.text (String.ofList cs), bs)
      | none => none
    | 4, levels + 1 =>
      (readMany? (read? levels) low bs).map fun (items, bs) => (.array items, bs)
    | 5, levels + 1 =>
      (readMany? (readPair? (read? levels)) low bs).map fun (entries, bs) => (.map entries, bs)
    | 6, levels + 1 =>
      match readArgument? low bs with
      | some (.number _, bs) => read? levels bs
      | _ => none
    | 4, 0 | 5, 0 | 6, 0 => none
    | _, _ => readSimple? low bs

/-- The item of octets that hold nothing else. -/
def ofOctets? (bs : List UInt8) : Option Cbor :=
  match read? nestLimit bs with
  | some (item, []) => some item
  | _ => none

/-- The text of a key: a text, or octets that are one. -/
def keyText? : Cbor → Option String
  | .text s => some s
  | .bytes octets => (Text.ofUtf8? octets).map String.ofList
  | _ => none

/-- The entries of octets that hold a map with texts as keys. -/
def entries? (bs : List UInt8) : Option (List (String × Cbor)) :=
  match ofOctets? bs with
  | some (.map entries) => entries.mapM fun (k, v) => (keyText? k).map (·, v)
  | _ => none

end ResourceEngine.Cbor
