import ResourceEngine.Text.Hexadecimal
import ResourceEngine.Text.Numeral

/-!
# Drafts of JSON documents

A draft is a JSON text taken apart as far as it goes: where the text stops being JSON the draft is
`broken`, and nothing follows. Numbers and strings keep what was written, so that the reader of a
draft may pass over a number that no value can hold. A reader that goes through a draft in order
meets the first error of the text in its place among its own.
-/

namespace ResourceEngine.Json

/-- A piece of a string: a character, or a code of sixteen bits written in hexadecimal. -/
inductive StringUnit where
  | char (c : Char)
  | code (n : Nat)
  deriving DecidableEq

/-- A number as it is written: the sign, the digits before and after the point, and the exponent. -/
structure Numeral where
  negative : Bool
  whole : List Char
  fraction : Option (List Char)
  exponent : Option (Bool × List Char)

/-- A document as far as its text is one. -/
inductive Draft where
  | null
  | bool (b : Bool)
  | number (n : Numeral)
  | string (units : List StringUnit)
  | array (items : List Draft)
  /-- The entries in the order of the text; a key that is no string is missing. -/
  | object (entries : List (Option (List StringUnit) × Draft))
  | broken

namespace Draft

/-- The white space of JSON. -/
def isBlank (c : Char) : Bool := c == ' ' || c == '\n' || c == '\t' || c == '\r'

/-- Drops white space at the front. -/
def skip (cs : List Char) : List Char := cs.dropWhile isBlank

/-- The character that a letter after a backslash stands for. -/
def simpleEscape? : Char → Option Char
  | '"' => some '"'
  | '\\' => some '\\'
  | '/' => some '/'
  | 'b' => some '\x08'
  | 'f' => some '\x0c'
  | 'n' => some '\n'
  | 'r' => some '\r'
  | 't' => some '\t'
  | _ => none

/-- Reads a string after its opening quote, given the units read so far, last first. -/
def readString? (read : List StringUnit) : List Char → Option (List StringUnit × List Char)
  | [] => none
  | '"' :: cs => some (read.reverse, cs)
  | '\\' :: 'u' :: a :: b :: c :: d :: cs =>
    match Text.hexNumber? 0 [a, b, c, d] with
    | some n => readString? (.code n :: read) cs
    | none => none
  | '\\' :: e :: cs =>
    match simpleEscape? e with
    | some c => readString? (.char c :: read) cs
    | none => none
  | c :: cs => if c.toNat < 0x20 then none else readString? (.char c :: read) cs

/-- Reads digits, at least one. -/
def readDigits? (cs : List Char) : Option (List Char × List Char) :=
  let ds := cs.takeWhile Char.isDigit
  if ds.isEmpty then none else some (ds, cs.dropWhile Char.isDigit)

/-- Reads the digits before a point: a zero alone, or digits that do not begin with one. -/
def readWhole? (cs : List Char) : Option (List Char × List Char) :=
  match readDigits? cs with
  | some ('0' :: _ :: _, _) => none
  | r => r

/-- Reads the digits after a point, if there is one. -/
def readFraction? : List Char → Option (Option (List Char) × List Char)
  | '.' :: cs => (readDigits? cs).map fun (ds, r) => (some ds, r)
  | cs => some (none, cs)

/-- Reads the digits of an exponent after its sign. -/
def readExponentDigits? (negative : Bool) (cs : List Char) :
    Option (Option (Bool × List Char) × List Char) :=
  (readDigits? cs).map fun (ds, r) => (some (negative, ds), r)

/-- Reads an exponent, if there is one. -/
def readExponent? : List Char → Option (Option (Bool × List Char) × List Char)
  | c :: cs =>
    if c = 'e' ∨ c = 'E' then
      match cs with
      | '+' :: r => readExponentDigits? false r
      | '-' :: r => readExponentDigits? true r
      | r => readExponentDigits? false r
    else some (none, c :: cs)
  | [] => some (none, [])

/-- Reads a number, whose whole part has no leading zero. -/
def readNumber? (cs : List Char) : Option (Numeral × List Char) := do
  let (negative, cs) :=
    match cs with
    | '-' :: r => (true, r)
    | r => (false, r)
  let (whole, cs) ← readWhole? cs
  let (fraction, cs) ← readFraction? cs
  let (exponent, cs) ← readExponent? cs
  return (⟨negative, whole, fraction, exponent⟩, cs)

/-- A word of JSON and what follows it. -/
def readWord? : List Char → Option (Draft × List Char)
  | 'n' :: 'u' :: 'l' :: 'l' :: r => some (.null, r)
  | 't' :: 'r' :: 'u' :: 'e' :: r => some (.bool true, r)
  | 'f' :: 'a' :: 'l' :: 's' :: 'e' :: r => some (.bool false, r)
  | _ => none

mutual

/-- Reads a value, and gives what follows it unless the text breaks. The bound is on the steps, of
which a character takes at most two. -/
def readValue : Nat → List Char → Draft × Option (List Char)
  | 0, _ => (.broken, none)
  | n + 1, cs =>
    match skip cs with
    | '"' :: r =>
      match readString? [] r with
      | some (units, r) => (.string units, some r)
      | none => (.broken, none)
    | '[' :: r =>
      match skip r with
      | ']' :: r => (.array [], some r)
      | r =>
        let (items, rest) := readItems n [] r
        (.array items, rest)
    | '{' :: r =>
      match skip r with
      | '}' :: r => (.object [], some r)
      | r =>
        let (entries, rest) := readEntries n [] r
        (.object entries, rest)
    | r =>
      match readWord? r with
      | some (d, r) => (d, some r)
      | none =>
        match readNumber? r with
        | some (x, r) => (.number x, some r)
        | none => (.broken, none)

/-- Reads the items of an array up to its end, given those read so far, last first. -/
def readItems : Nat → List Draft → List Char → List Draft × Option (List Char)
  | 0, read, _ => ((Draft.broken :: read).reverse, none)
  | n + 1, read, cs =>
    match readValue n cs with
    | (d, none) => ((d :: read).reverse, none)
    | (d, some r) =>
      match skip r with
      | ',' :: r => readItems n (d :: read) r
      | ']' :: r => ((d :: read).reverse, some r)
      | _ => ((Draft.broken :: d :: read).reverse, none)

/-- Reads the entries of an object up to its end, given those read so far, last first. -/
def readEntries : Nat → List (Option (List StringUnit) × Draft) → List Char →
    List (Option (List StringUnit) × Draft) × Option (List Char)
  | 0, read, _ => (((none, Draft.broken) :: read).reverse, none)
  | n + 1, read, cs =>
    match skip cs with
    | '"' :: r =>
      match readString? [] r with
      | none => (((none, Draft.broken) :: read).reverse, none)
      | some (key, r) =>
        match skip r with
        | ':' :: r =>
          match readValue n r with
          | (d, none) => (((some key, d) :: read).reverse, none)
          | (d, some r) =>
            match skip r with
            | ',' :: r => readEntries n ((some key, d) :: read) r
            | '}' :: r => (((some key, d) :: read).reverse, some r)
            | _ => (((none, Draft.broken) :: (some key, d) :: read).reverse, none)
        | _ => (((some key, Draft.broken) :: read).reverse, none)
    | _ => (((none, Draft.broken) :: read).reverse, none)

end

/-- The draft of a text, and whether nothing but white space follows it. -/
def ofText (cs : List Char) : Draft × Bool :=
  match readValue (2 * cs.length + 2) cs with
  | (d, some rest) => (d, (skip rest).isEmpty)
  | (d, none) => (d, false)

mutual

/-- No part of the draft is broken. -/
def isWhole : Draft → Bool
  | .broken => false
  | .array items => areWhole items
  | .object entries => entriesWhole entries
  | _ => true

/-- No draft in the list is broken. -/
def areWhole : List Draft → Bool
  | [] => true
  | d :: ds => isWhole d && areWhole ds

def entriesWhole : List (Option (List StringUnit) × Draft) → Bool
  | [] => true
  | (key, d) :: rest => key.isSome && isWhole d && entriesWhole rest

end

end Draft

end ResourceEngine.Json
