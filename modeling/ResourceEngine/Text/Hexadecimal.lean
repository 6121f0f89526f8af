/-!
# Hexadecimal digits

Digits are read in either case and written in lower case.
-/

namespace ResourceEngine.Text

/-- The value of a hexadecimal digit. -/
def hexValue? (c : Char) : Option Nat :=
  if c.isDigit then some (c.toNat - 48)
  else if 'a' ≤ c ∧ c ≤ 'f' then some (c.toNat - 87)
  else if 'A' ≤ c ∧ c ≤ 'F' then some (c.toNat - 55)
  else none

/-- The number of hexadecimal digits, read after a number already found. -/
def hexNumber? (found : Nat) : List Char → Option Nat
  | [] => some found
  | c :: cs =>
    match hexValue? c with
    | some d => hexNumber? (16 * found + d) cs
    | none => none

/-- The lower-case hexadecimal digits of a number. -/
def hexDigits (n : Nat) : String := String.ofList (Nat.toDigits 16 n)

end ResourceEngine.Text
