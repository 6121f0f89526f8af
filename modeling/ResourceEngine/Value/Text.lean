import ResourceEngine.Value.Basic
import ResourceEngine.Binary64.Layout
import ResourceEngine.Text.Quoted

/-!
# Values as text

`plainText` is the text a value has in a message or as a key: numbers in plain decimals, a text as
it stands, and a blob by its length. `literal` names the type as well and quotes texts.
-/

namespace ResourceEngine.Value

def boolText (b : Bool) : String := if b then "true" else "false"

/-- The text of a value. -/
def plainText : Value → String
  | .null => "null"
  | .integer i => toString i.toInt
  | .real r => Binary64.Layout.plain.text r
  | .text s => s
  | .blob octets => s!"<{octets.length} bytes>"
  | .bool b => boolText b

/-- The items between brackets, with a comma after each but the last. -/
def bracketed (items : List String) : String := "[" ++ String.intercalate ", " items ++ "]"

/-- The value with its type. -/
def literal : Value → String
  | .null => "Null"
  | .integer i => "Integer(" ++ toString i.toInt ++ ")"
  | .real r => "Real(" ++ Binary64.Layout.literal.text r ++ ")"
  | .text s => "Text(" ++ Text.quote s ++ ")"
  | .blob octets => "Blob(" ++ bracketed (octets.map fun b => toString b.toNat) ++ ")"
  | .bool b => "Bool(" ++ boolText b ++ ")"

/-- A list of values with their types. -/
def literals (vs : List Value) : String := bracketed (vs.map literal)

end ResourceEngine.Value
