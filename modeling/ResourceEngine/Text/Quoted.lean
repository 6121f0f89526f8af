import ResourceEngine.Text.Hexadecimal
import ResourceEngine.Text.Printable

/-!
# Quoted text

A quoted text stands between double quotes. A quote, a backslash, a tab, the two line breaks and NUL
have escapes of two characters, and every other character that is not printable is written by its
code point in hexadecimal.
-/

namespace ResourceEngine.Text

/-- A character inside quotes. -/
def escape (c : Char) : String :=
  if c = '"' then "\\\""
  else if c = '\\' then "\\\\"
  else if c = '\t' then "\\t"
  else if c = '\n' then "\\n"
  else if c = '\r' then "\\r"
  else if c = '\x00' then "\\0"
  else if isPrintable c then String.singleton c
  else "\\u\x7b" ++ hexDigits c.toNat ++ "\x7d"

/-- A text between quotes. -/
def quote (s : String) : String := "\"" ++ String.join (s.toList.map escape) ++ "\""

end ResourceEngine.Text
