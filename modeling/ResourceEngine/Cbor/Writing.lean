import ResourceEngine.Cbor.Basic
import ResourceEngine.Document

/-!
# Writing CBOR

Documents are written with definite lengths and smallest heads. A blob is a string of octets.
-/

namespace ResourceEngine.Cbor

def writeValue : Value → List UInt8
  | .null => writeNull
  | .integer i => writeInteger i.toInt
  | .real x => writeReal x
  | .text s => writeText s
  | .blob octets => writeBytes octets
  | .bool b => writeBool b

mutual

/-- The octets of a document; a record is a map with texts as keys. -/
def write : Document → List UInt8
  | .value v => writeValue v
  | .natural n => writeHead 0 n.toNat
  | .list items => writeHead 4 items.length ++ writeItems items
  | .record entries => writeHead 5 entries.length ++ writeEntries entries

def writeItems : List Document → List UInt8
  | [] => []
  | d :: ds => write d ++ writeItems ds

def writeEntries : List (String × Document) → List UInt8
  | [] => []
  | (k, d) :: rest => writeText k ++ write d ++ writeEntries rest

end

end ResourceEngine.Cbor
