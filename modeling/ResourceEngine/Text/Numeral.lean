import ResourceEngine.Binary64.Rounding

/-!
# Numerals

Integers are read from an optional sign and decimal digits, and refused outside the range of 64-bit
integers. Reals are read from an optional sign and either a decimal with an optional point and
exponent, or one of the words for infinity and NaN in any case.
-/

namespace ResourceEngine.Text

/-- The number that decimal digits stand for. -/
def digitsValue (cs : List Char) : Nat :=
  cs.foldl (fun n c => 10 * n + (c.toNat - 48)) 0

/-- One or more decimal digits. -/
def natural? (cs : List Char) : Option Nat :=
  if cs.isEmpty || !cs.all Char.isDigit then none else some (digitsValue cs)

/-- A leading sign, read as "is negative", and what follows it. -/
def splitSign : List Char → Bool × List Char
  | '-' :: r => (true, r)
  | '+' :: r => (false, r)
  | r => (false, r)

/-- An optionally signed decimal integer of any size. -/
def integer? (cs : List Char) : Option Int :=
  let (negative, r) := splitSign cs
  (natural? r).map fun n => if negative then -(n : Int) else n

/-- The 64-bit integer equal to `i`, if there is one. -/
def toInt64? (i : Int) : Option Int64 :=
  if Int64.minValue.toInt ≤ i ∧ i ≤ Int64.maxValue.toInt then some (Int64.ofInt i) else none

theorem toInt64?_toInt (i : Int64) : toInt64? i.toInt = some i := by
  rw [toInt64?, if_pos ⟨i.minValue_le_toInt, i.toInt_le⟩, Int64.ofInt_toInt]

/-- A decimal integer that fits 64 bits. -/
def int64? (cs : List Char) : Option Int64 := (integer? cs).bind toInt64?

/-- The exponent after a decimal: nothing, or `e` and an integer. -/
def exponent? : List Char → Option Int
  | [] => some 0
  | c :: r => if c = 'e' ∨ c = 'E' then integer? r else none

/-- An unsigned decimal: digits around an optional point, at least one of them, and an exponent. -/
def decimal? (negative : Bool) (cs : List Char) : Option Binary64 :=
  let whole := cs.takeWhile Char.isDigit
  let afterWhole := cs.dropWhile Char.isDigit
  let (fraction, rest) :=
    match afterWhole with
    | '.' :: r => (r.takeWhile Char.isDigit, r.dropWhile Char.isDigit)
    | r => ([], r)
  if whole.isEmpty && fraction.isEmpty then
    none
  else
    (exponent? rest).map fun e =>
      Binary64.ofDecimal negative (digitsValue (whole ++ fraction)) (e - fraction.length)

/-- A real number in decimal notation, rounded to the nearest binary64 number. -/
def real? (cs : List Char) : Option Binary64 :=
  let (negative, r) := splitSign cs
  let word := String.ofList (r.map Char.toLower)
  if word = "inf" ∨ word = "infinity" then some (Binary64.infinity negative)
  else if word = "nan" then some Binary64.nan
  else decimal? negative r

end ResourceEngine.Text
