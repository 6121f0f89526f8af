import ResourceEngine.Binary64.Basic

/-!
# Column values

A value as it is bound into a statement or read back from a row. `Value.same` is the equality of the
engine: reals are compared as numbers, so the two zeros are the same value and a NaN is the same as
nothing.
-/

namespace ResourceEngine

/-- A dynamically typed column value. -/
inductive Value where
  | null
  | integer (i : Int64)
  | real (r : Binary64)
  | text (s : String)
  | blob (octets : List UInt8)
  | bool (b : Bool)
  deriving DecidableEq, Inhabited

namespace Value

/-- The value is null. -/
def isNull : Value → Bool
  | .null => true
  | _ => false

/-- The text of a text value. -/
def text? : Value → Option String
  | .text s => some s
  | _ => none

/-- The integer of an integer value. -/
def integer? : Value → Option Int64
  | .integer i => some i
  | _ => none

/-- The name of the value's type. -/
def typeName : Value → String
  | .null => "null"
  | .integer _ => "integer"
  | .real _ => "real"
  | .text _ => "text"
  | .blob _ => "blob"
  | .bool _ => "bool"

/-- Equality of values, with reals compared as numbers. -/
def same : Value → Value → Bool
  | .real x, .real y => x.same y
  | v, w => v == w

theorem isNull_iff {v : Value} : v.isNull = true ↔ v = .null := by
  cases v <;> simp [isNull]

theorem same_comm (v w : Value) : same v w = same w v := by
  cases v <;> cases w <;> simp [same, Binary64.same_comm, BEq.comm]

/-- The value is not a NaN. -/
def isProper : Value → Bool
  | .real x => !x.isNaN
  | _ => true

theorem same_self {v : Value} (h : v.isProper = true) : same v v = true := by
  cases v with
  | real x => exact Binary64.same_self (by simpa [isProper] using h)
  | _ => simp [same]

theorem same_trans {u v w : Value} (h : same u v = true) (h' : same v w = true) :
    same u w = true := by
  cases u <;> cases v <;> cases w <;> simp_all [same]
  exact Binary64.same_trans h h'

end Value

end ResourceEngine
