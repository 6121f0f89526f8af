import ResourceEngine.Binary64.Shortest

/-!
# Layouts of binary64 numbers

A layout says how the shortest digits of a number are set: which leading exponents are written
positionally, whether a whole number shows its fraction, whether a positive exponent has a plus
sign, and which way a tie between two shortest decimals goes.
-/

namespace ResourceEngine.Binary64

/-- The decisions of a decimal notation. -/
structure Layout where
  /-- The exponents of the leading digit that are written without an exponent. -/
  positional : Int → Bool
  /-- A whole number is written with `.0`. -/
  wholeFraction : Bool
  /-- A positive exponent is written with its sign. -/
  plusExponent : Bool
  /-- Of two equally near shortest decimals the larger is taken, and otherwise the even one. -/
  tieUpward : Bool

namespace Layout

def zeros (n : Nat) : String := String.ofList (List.replicate n '0')

/-- The digits with a point where the exponent puts it. -/
def positionalText (wholeFraction : Bool) (d : Decimal) : String :=
  let digits := Nat.toDigits 10 d.digits
  if 0 ≤ d.exponent then
    String.ofList digits ++ zeros d.exponent.toNat ++ (if wholeFraction then ".0" else "")
  else
    let places := (-d.exponent).toNat
    if places < digits.length then
      String.ofList (digits.take (digits.length - places)) ++ "." ++
        String.ofList (digits.drop (digits.length - places))
    else
      "0." ++ zeros (places - digits.length) ++ String.ofList digits

/-- One digit before the point and the exponent of ten after `e`. -/
def scientificText (plusExponent : Bool) (d : Decimal) : String :=
  let digits := Nat.toDigits 10 d.digits
  let e := d.leadingExponent
  String.ofList (digits.take 1) ++
    (if 1 < digits.length then "." ++ String.ofList (digits.drop 1) else "") ++
    (if 0 ≤ e && plusExponent then "e+" else "e") ++ toString e

/-- The text of a number in a layout. -/
def text (l : Layout) (x : Binary64) : String :=
  if x.isNaN then
    "NaN"
  else
    let sign := if x.negative then "-" else ""
    if !x.isFinite then
      sign ++ "inf"
    else
      let d := x.shortest l.tieUpward
      if d.digits = 0 || l.positional d.leadingExponent then
        sign ++ positionalText l.wholeFraction d
      else
        sign ++ scientificText l.plusExponent d

/-- Never an exponent, and whole numbers without a fraction. -/
def plain : Layout where
  positional _ := true
  wholeFraction := false
  plusExponent := false
  tieUpward := true

/-- Positional from a ten-thousandth up to below `10 ^ 16`. -/
def literal : Layout where
  positional e := decide (-4 ≤ e ∧ e < 16)
  wholeFraction := true
  plusExponent := false
  tieUpward := true

/-- Positional from a hundred-thousandth up to below `10 ^ 16`, and signed exponents. -/
def json : Layout where
  positional e := decide (-5 ≤ e ∧ e < 16)
  wholeFraction := true
  plusExponent := true
  tieUpward := false

end Layout

end ResourceEngine.Binary64
