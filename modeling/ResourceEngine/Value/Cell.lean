import ResourceEngine.Text.Utf8
import ResourceEngine.Value.Basic

/-!
# Cells

How values are stored. A cell has one of five storage classes: a truth value is stored as an integer
and comes back as one, and a text is stored as octets, which need not be UTF-8 when they come from
elsewhere.
-/

namespace ResourceEngine

/-- A stored value. -/
inductive Cell where
  | null
  | integer (i : Int64)
  | real (r : Binary64)
  | text (octets : List UInt8)
  | blob (octets : List UInt8)
  deriving DecidableEq

/-- The name of a cell's storage class. -/
def Cell.className : Cell → String
  | .null => "null"
  | .integer _ => "integer"
  | .real _ => "real"
  | .text _ => "text"
  | .blob _ => "blob"

/-- The value that is read from a cell; what is no UTF-8 in a text is replaced. -/
def Cell.value : Cell → Value
  | .null => .null
  | .integer i => .integer i
  | .real r => .real r
  | .text octets => .text (String.ofList (Text.ofUtf8Lossy octets))
  | .blob octets => .blob octets

/-- The cell that a value is stored in. -/
def Value.cell : Value → Cell
  | .null => .null
  | .integer i => .integer i
  | .real r => .real r
  | .text s => .text (Text.toUtf8 s)
  | .blob octets => .blob octets
  | .bool b => .integer (if b then 1 else 0)

end ResourceEngine
