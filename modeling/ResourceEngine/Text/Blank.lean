/-!
# White space

The white space of Unicode, twenty-five characters, and trimming it from both ends of a text.
-/

namespace ResourceEngine.Text

/-- The character has the Unicode property `White_Space`. -/
def isBlank (c : Char) : Bool :=
  let n := c.toNat
  decide (9 ≤ n ∧ n ≤ 13) || n == 0x20 || n == 0x85 || n == 0xA0 || n == 0x1680 ||
    decide (0x2000 ≤ n ∧ n ≤ 0x200A) || n == 0x2028 || n == 0x2029 || n == 0x202F || n == 0x205F ||
    n == 0x3000

/-- Drops the last characters as long as they are white space. -/
def trimEnd (cs : List Char) : List Char := (cs.reverse.dropWhile isBlank).reverse

/-- Drops white space from both ends. -/
def trim (cs : List Char) : List Char := trimEnd (cs.dropWhile isBlank)

end ResourceEngine.Text
