import ResourceEngine.Binary64.Rounding

/-!
# Narrow binary formats

Words of the narrower binary formats. Every number of a narrow format is a binary64 number, which
`widen` gives; `narrow?` goes back where nothing is lost.
-/

namespace ResourceEngine.Binary64

/-- A binary interchange format: the widths of its exponent and its fraction. -/
structure Format where
  exponentBits : Nat
  fractionBits : Nat

namespace Format

/-- Sixteen bits. -/
def half : Format := ⟨5, 10⟩

/-- Thirty-two bits. -/
def single : Format := ⟨8, 23⟩

/-- The largest exponent of a finite number. -/
def bias (f : Format) : Nat := (1 <<< (f.exponentBits - 1)) - 1

/-- The bit above the fraction. -/
def leadingBit (f : Format) : Nat := 1 <<< f.fractionBits

/-- The bit of the sign. -/
def signBit (f : Format) : Nat := f.leadingBit <<< f.exponentBits

/-- The magnitude word of infinity. -/
def infinityWord (f : Format) : Nat := f.signBit - f.leadingBit

/-- The power of two that the smallest positive number is. -/
def leastScale (f : Format) : Int := 1 - (f.bias : Int) - f.fractionBits

end Format

/-- The binary64 number of a narrow word. -/
def widen (f : Format) (word : Nat) : Binary64 :=
  let negative := decide (f.signBit ≤ word)
  let magnitude := word % f.signBit
  if f.infinityWord < magnitude then nan
  else if magnitude = f.infinityWord then infinity negative
  else
    let exponent := magnitude / f.leadingBit
    let fraction := magnitude % f.leadingBit
    let significand := if exponent = 0 then fraction else f.leadingBit + fraction
    let scale := f.leastScale + ((max exponent 1 - 1 : Nat) : Int)
    ofRatio negative (significand <<< scale.toNat) (1 <<< (-scale).toNat)

/-- Halves an even number up to `n` times, and counts the halvings. -/
def halve : Nat → Nat → Nat × Nat
  | 0, m => (m, 0)
  | n + 1, m =>
    if m % 2 = 0 then
      let (o, k) := halve n (m / 2)
      (o, k + 1)
    else (m, 0)

/-- The narrow word of a number that the format has. -/
def narrow? (f : Format) (x : Binary64) : Option Nat :=
  let sign := if x.negative then f.signBit else 0
  if x.isNaN then
    none
  else if !x.isFinite then
    some (sign + f.infinityWord)
  else if x.significand = 0 then
    some sign
  else
    let (odd, k) := halve 53 x.significand
    let scale := x.scale + k
    let top := scale + odd.log2
    let unit := max (top - f.fractionBits) f.leastScale
    if top ≤ f.bias ∧ unit ≤ scale then
      let significand := odd <<< (scale - unit).toNat
      some (sign + (unit - f.leastScale).toNat * f.leadingBit + significand)
    else
      none

end ResourceEngine.Binary64
