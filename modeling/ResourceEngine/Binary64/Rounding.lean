import ResourceEngine.Binary64.Basic

/-!
# Rounding to binary64

`ofRatio` gives the binary64 number nearest to a fraction, a tie going to the even significand and
a value too large to infinity. Integers, products, quotients and decimals are all rounded by it.
-/

namespace ResourceEngine.Binary64

/-- The integer nearest to `num / den`; a tie goes to the even one. -/
def roundHalfEven (num den : Nat) : Nat :=
  let q := num / den
  let r := num % den
  if den < 2 * r || (2 * r == den && q % 2 == 1) then q + 1 else q

/-- The number `e` with `2 ^ e ≤ num / den < 2 ^ (e + 1)`, for positive `num` and `den`. -/
def binaryExponent (num den : Nat) : Int :=
  let e : Int := num.log2 - den.log2
  if den <<< e.toNat ≤ num <<< (-e).toNat then e else e - 1

/-- The binary64 number nearest to `± num / den`. -/
def ofRatio (negative : Bool) (num den : Nat) : Binary64 :=
  if num = 0 then
    ofMagnitude negative 0
  else
    let unit := max (binaryExponent num den - 52) (-1074)
    let significand := roundHalfEven (num <<< (-unit).toNat) (den <<< unit.toNat)
    ofMagnitude negative (min ((unit + 1074).toNat * leadingBit + significand) infinityWord)

/-- The binary64 number nearest to an integer. -/
def ofInt (i : Int) : Binary64 := ofRatio (decide (i < 0)) i.natAbs 1

/-- The binary64 number nearest to `± digits * 10 ^ exponent`. Beyond four hundred places on either
side every decimal has long become infinite or zero, so the power of ten stays small. -/
def ofDecimal (negative : Bool) (digits : Nat) (exponent : Int) : Binary64 :=
  if digits = 0 then
    ofMagnitude negative 0
  else
    let places : Int := (Nat.toDigits 10 digits).length + exponent
    if 400 < places then infinity negative
    else if places < -400 then ofMagnitude negative 0
    else ofRatio negative (digits * Nat.pow 10 exponent.toNat) (Nat.pow 10 (-exponent).toNat)

/-- The rounded product of two finite numbers. -/
def mul (x y : Binary64) : Binary64 :=
  ofRatio (x.negative != y.negative) (x.numerator * y.numerator) (x.denominator * y.denominator)

/-- The rounded quotient of two finite numbers, the second of them not zero. -/
def div (x y : Binary64) : Binary64 :=
  ofRatio (x.negative != y.negative) (x.numerator * y.denominator) (x.denominator * y.numerator)

end ResourceEngine.Binary64
