/-!
# Binary64 numbers

A binary64 number is its 64-bit word: a sign bit, eleven exponent bits, and fifty-two fraction
bits. A finite word stands for `± significand * 2 ^ scale`. Two words that are not NaN are equal as
numbers exactly when they have the same `rank`, which is also the order of the numbers they stand
for; `same_eq_true_iff` says so.
-/

namespace ResourceEngine

/-- A binary64 number, given by its word. -/
structure Binary64 where
  bits : UInt64
  deriving DecidableEq, Inhabited

namespace Binary64

/-- The bit of the sign. -/
def signBit : Nat := 0x8000000000000000

/-- The bit above the fraction, which the significand of a normal number begins with. -/
def leadingBit : Nat := 0x10000000000000

/-- The word of positive infinity; the magnitudes above it are the NaNs. -/
def infinityWord : Nat := 0x7FF0000000000000

/-- The sign bit is set. -/
def negative (x : Binary64) : Bool := decide (signBit ≤ x.bits.toNat)

/-- The word without its sign bit. -/
def magnitude (x : Binary64) : Nat := x.bits.toNat % signBit

/-- The number with the given sign and magnitude word. -/
def ofMagnitude (negative : Bool) (word : Nat) : Binary64 :=
  ⟨UInt64.ofNat ((if negative then signBit else 0) + word)⟩

/-- The word stands for no number. -/
def isNaN (x : Binary64) : Bool := decide (infinityWord < x.magnitude)

/-- The word stands for a finite number. -/
def isFinite (x : Binary64) : Bool := decide (x.magnitude < infinityWord)

def zero : Binary64 := ofMagnitude false 0

def infinity (negative : Bool) : Binary64 := ofMagnitude negative infinityWord

/-- The quiet NaN with an empty payload. -/
def nan : Binary64 := ofMagnitude false (infinityWord + leadingBit / 2)

/-- The exponent bits. -/
def exponentField (x : Binary64) : Nat := x.magnitude / leadingBit

/-- The fraction bits. -/
def fractionField (x : Binary64) : Nat := x.magnitude % leadingBit

/-- The integer that a finite number scales by a power of two. -/
def significand (x : Binary64) : Nat :=
  if x.exponentField = 0 then x.fractionField else leadingBit + x.fractionField

/-- The exponent of the power of two in a finite number. -/
def scale (x : Binary64) : Int := (max x.exponentField 1 : Nat) - 1075

/-- The absolute value of a finite number as a fraction: the numerator. -/
def numerator (x : Binary64) : Nat := x.significand <<< x.scale.toNat

/-- The absolute value of a finite number as a fraction: the denominator, a power of two. -/
def denominator (x : Binary64) : Nat := 1 <<< (-x.scale).toNat

/-- The signed magnitude. Both zeros have rank zero. -/
def rank (x : Binary64) : Int := if x.negative then -(x.magnitude : Int) else x.magnitude

/-- Numerical equality: a NaN differs from every number, and the two zeros are equal. -/
def same (x y : Binary64) : Bool := !x.isNaN && !y.isNaN && x.rank == y.rank

theorem same_eq_true_iff {x y : Binary64} :
    same x y = true ↔ x.isNaN = false ∧ y.isNaN = false ∧ x.rank = y.rank := by
  simp [same, and_assoc]

theorem same_comm (x y : Binary64) : same x y = same y x := by
  rw [Bool.eq_iff_iff, same_eq_true_iff, same_eq_true_iff]
  exact ⟨fun ⟨a, b, c⟩ => ⟨b, a, c.symm⟩, fun ⟨a, b, c⟩ => ⟨b, a, c.symm⟩⟩

theorem same_trans {x y z : Binary64} (h : same x y = true) (h' : same y z = true) :
    same x z = true := by
  rw [same_eq_true_iff] at *
  exact ⟨h.1, h'.2.1, h.2.2.trans h'.2.2⟩

theorem same_self {x : Binary64} (h : x.isNaN = false) : same x x = true := by
  simp [same, h]

/-- The integer a number is equal to, if there is one. -/
def integer? (x : Binary64) : Option Int :=
  if x.isFinite && x.numerator % x.denominator == 0 then
    let n := x.numerator / x.denominator
    some (if x.negative then -(n : Int) else n)
  else
    none

end Binary64

end ResourceEngine
