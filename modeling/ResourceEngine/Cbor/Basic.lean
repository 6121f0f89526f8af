import ResourceEngine.Binary64.Interchange
import ResourceEngine.Value.Kind

/-!
# CBOR

Data items of the concise binary object representation. A head has a major type and an argument; the
argument is written in the fewest octets, and read in any. Reals are written in the narrowest format
that loses nothing. Tags are passed over, and both null and undefined are null.
-/

namespace ResourceEngine

/-- A data item. An integer may be any of 65 bits with its sign. -/
inductive Cbor where
  | null
  | bool (b : Bool)
  | integer (i : Int)
  | real (x : Binary64)
  | bytes (octets : List UInt8)
  | text (s : String)
  | array (items : List Cbor)
  | map (entries : List (Cbor × Cbor))

namespace Cbor

/-- The deepest nesting of an item. -/
def nestLimit : Nat := 127

/-- A natural number in `n` octets, the highest first. -/
def bigEndian : Nat → Nat → List UInt8
  | 0, _ => []
  | n + 1, x => UInt8.ofNat (x >>> (8 * n)) :: bigEndian n x

/-- The natural number of octets, the highest first. -/
def ofBigEndian (bs : List UInt8) : Nat := bs.foldl (fun n b => 256 * n + b.toNat) 0

/-- The head of an item: the major type and the argument. -/
def writeHead (major argument : Nat) : List UInt8 :=
  let initial (n : Nat) : UInt8 := UInt8.ofNat (32 * major + n)
  if argument < 24 then [initial argument]
  else if argument < UInt8.size then initial 24 :: bigEndian 1 argument
  else if argument < UInt16.size then initial 25 :: bigEndian 2 argument
  else if argument < UInt32.size then initial 26 :: bigEndian 4 argument
  else initial 27 :: bigEndian 8 argument

/-- A negative integer is written by its distance from minus one. -/
def writeInteger (i : Int) : List UInt8 :=
  if 0 ≤ i then writeHead 0 i.toNat else writeHead 1 (-i - 1).toNat

/-- A real in sixteen, thirty-two or sixty-four bits. Every NaN is the quiet one. -/
def writeReal (x : Binary64) : List UInt8 :=
  if x.isNaN then 0xF9 :: bigEndian 2 0x7E00
  else
    match x.narrow? .half, x.narrow? .single with
    | some w, _ => 0xF9 :: bigEndian 2 w
    | none, some w => 0xFA :: bigEndian 4 w
    | none, none => 0xFB :: bigEndian 8 x.bits.toNat

def writeText (s : String) : List UInt8 :=
  let bs := Text.toUtf8 s
  writeHead 3 bs.length ++ bs

def writeBytes (octets : List UInt8) : List UInt8 := writeHead 2 octets.length ++ octets

def writeBool (b : Bool) : List UInt8 := if b then [0xF5] else [0xF4]

def writeNull : List UInt8 := [0xF6]

/-- The octet that a data item stands for. -/
def octet? : Cbor → Option UInt8
  | .integer i => if 0 ≤ i ∧ i < 256 then some (UInt8.ofNat i.toNat) else none
  | _ => none

/-- The column value of an item: an array is a blob of octets, and a map is none. -/
def value? : Cbor → Option Value
  | .null => some .null
  | .bool b => some (.bool b)
  | .integer i => (Text.toInt64? i).map .integer
  | .real x => some (.real x)
  | .bytes octets => some (.blob octets)
  | .text s => some (.text s)
  | .array items => (items.mapM octet?).map .blob
  | .map _ => none

end Cbor

end ResourceEngine
