import ResourceEngine.Binary64.Layout
import ResourceEngine.Document
import ResourceEngine.Text.Quoted

/-!
# Writing JSON

Documents are written without blanks. A blob is a list of its octets, and a number that is not
finite is null. Strings escape quotes, backslashes and control characters only.
-/

namespace ResourceEngine.Json

/-- A control character by its code, in four hexadecimal digits. -/
def codeEscape (n : Nat) : String :=
  "\\u" ++ String.ofList (List.replicate (4 - (Nat.toDigits 16 n).length) '0') ++ Text.hexDigits n

/-- A character inside a string. -/
def escape (c : Char) : String :=
  if c = '"' then "\\\""
  else if c = '\\' then "\\\\"
  else if c = '\n' then "\\n"
  else if c = '\r' then "\\r"
  else if c = '\t' then "\\t"
  else if c = '\x08' then "\\b"
  else if c = '\x0c' then "\\f"
  else if c.toNat < 0x20 then codeEscape c.toNat
  else String.singleton c

/-- A text between quotes. -/
def quote (s : String) : String := "\"" ++ String.join (s.toList.map escape) ++ "\""

/-- A number that is not finite is null. -/
def writeReal (x : Binary64) : String := if x.isFinite then Binary64.Layout.json.text x else "null"

/-- Items between brackets, with commas. -/
def writeList (items : List String) : String := "[" ++ String.intercalate "," items ++ "]"

/-- Entries between braces, with commas. -/
def writeRecord (entries : List (String × String)) : String :=
  "\x7b" ++ String.intercalate "," (entries.map fun (k, v) => quote k ++ ":" ++ v) ++ "\x7d"

/-- The text of a value; a blob is an array of its octets. -/
def writeValue : Value → String
  | .null => "null"
  | .integer i => toString i.toInt
  | .real x => writeReal x
  | .text s => quote s
  | .blob octets => writeList (octets.map fun b => toString b.toNat)
  | .bool b => Value.boolText b

mutual

/-- The text of a document, without white space. -/
def write : Document → String
  | .value v => writeValue v
  | .natural n => toString n.toNat
  | .list items => writeList (writeItems items)
  | .record entries => writeRecord (writeEntries entries)

def writeItems : List Document → List String
  | [] => []
  | d :: ds => write d :: writeItems ds

def writeEntries : List (String × Document) → List (String × String)
  | [] => []
  | (k, d) :: rest => (k, write d) :: writeEntries rest

end

end ResourceEngine.Json
