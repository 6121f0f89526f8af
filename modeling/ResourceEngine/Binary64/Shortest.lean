import ResourceEngine.Binary64.Basic

/-!
# Shortest decimals

`shortest` writes a finite binary64 number with the fewest decimal digits that still read back as
the same number, and of those decimals takes the nearest one. For each number of digits it looks
only at the two points of that decimal grid next to the number: if the grid has a point in the
interval of reals that round to the number, then one of its two neighbours lies there.
-/

namespace ResourceEngine

/-- The decimal `digits * 10 ^ exponent`. -/
structure Decimal where
  digits : Nat
  exponent : Int
  deriving DecidableEq, Inhabited

namespace Decimal

/-- Removes up to `n` trailing zeros from the digits. -/
def strip : Nat → Decimal → Decimal
  | 0, d => d
  | n + 1, d =>
    if d.digits ≠ 0 ∧ d.digits % 10 = 0 then strip n ⟨d.digits / 10, d.exponent + 1⟩ else d

/-- The exponent of ten at the leading digit. -/
def leadingExponent (d : Decimal) : Int :=
  d.exponent + (Nat.toDigits 10 d.digits).length - 1

end Decimal

namespace Binary64

/-- Four times the distance, in units of the last place, from a number down to the reals that round
to the number below it. It halves at a power of two. -/
def lowerGap (x : Binary64) : Nat :=
  if x.fractionField = 0 ∧ 1 < x.exponentField then 1 else 2

/-- The digits of the nearest point of the grid `10 ^ k` that reads back as `x`, if any does. -/
def gridPoint? (tieUpward : Bool) (x : Binary64) (k : Int) : Option Nat :=
  let q := x.scale - 2
  let m := 4 * x.significand
  let up := Nat.pow 10 k.toNat <<< (-q).toNat
  let down := Nat.pow 10 (-k).toNat <<< q.toNat
  let closed := x.significand % 2 == 0
  let inside (d : Nat) : Bool :=
    let lo := (m - x.lowerGap) * down
    let hi := (m + 2) * down
    (decide (lo < d * up) && decide (d * up < hi)) || (closed && (lo == d * up || d * up == hi))
  let below := m * down / up
  let remainder := m * down % up
  let nearer :=
    if 2 * remainder < up then below
    else if up < 2 * remainder then below + 1
    else if tieUpward || below % 2 == 1 then below + 1
    else below
  let farther := if nearer = below then below + 1 else below
  if inside nearer then some nearer
  else if inside farther then some farther
  else none

/-- The first grid with a point that reads back, from the leading digit at `10 ^ k` down. -/
def firstGridPoint (tieUpward : Bool) (x : Binary64) : Nat → Int → Decimal
  | 0, k => ⟨(x.gridPoint? tieUpward k).getD 0, k⟩
  | n + 1, k =>
    match x.gridPoint? tieUpward k with
    | some d => ⟨d, k⟩
    | none => firstGridPoint tieUpward x n (k - 1)

/-- The exponent of ten at the leading digit of a positive fraction. -/
def decimalExponent (num den : Nat) : Int :=
  let e : Int := (Nat.toDigits 10 num).length - (Nat.toDigits 10 den).length
  if den * Nat.pow 10 e.toNat ≤ num * Nat.pow 10 (-e).toNat then e else e - 1

/-- The shortest decimal of a finite number's absolute value, without trailing zeros. -/
def shortest (tieUpward : Bool) (x : Binary64) : Decimal :=
  if x.significand = 0 then
    ⟨0, 0⟩
  else
    (firstGridPoint tieUpward x 17 (decimalExponent x.numerator x.denominator)).strip 20

end Binary64

end ResourceEngine
