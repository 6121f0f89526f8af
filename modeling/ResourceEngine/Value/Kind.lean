import ResourceEngine.Dialect
import ResourceEngine.Text.Blank
import ResourceEngine.Text.Numeral
import ResourceEngine.Text.Utf8
import ResourceEngine.Value.Text

/-!
# Field kinds

The kind of a field says which values it stores. `Kind.coerce` converts a value to a kind: null
stays null, a value of the kind stays as it is, and every other conversion either loses nothing or
is refused, but that an integer is rounded when it becomes a real.
-/

namespace ResourceEngine

/-- The kind of a field. -/
inductive Kind where
  | integer
  | real
  | text
  | bool
  | blob
  deriving DecidableEq, Inhabited

/-- A value could not be converted to a kind. -/
structure CoercionFailure where
  expected : Kind
  value : Value
  deriving DecidableEq

namespace Kind

def name : Kind → String
  | .integer => "integer"
  | .real => "real"
  | .text => "text"
  | .bool => "bool"
  | .blob => "blob"

/-- The value of a field of the kind that nothing has been assigned to. -/
def zero : Kind → Value
  | .integer => .integer 0
  | .real => .real .zero
  | .text => .text ""
  | .bool => .bool false
  | .blob => .blob []

/-- The storage type of the kind in a column definition. -/
def sqlType : Kind → Dialect → String
  | .integer, .sqlite => "INTEGER"
  | .integer, .postgresql => "BIGINT"
  | .real, .sqlite => "REAL"
  | .real, .postgresql => "DOUBLE PRECISION"
  | .text, _ => "TEXT"
  | .bool, .sqlite => "INTEGER"
  | .bool, .postgresql => "BOOLEAN"
  | .blob, .sqlite => "BLOB"
  | .blob, .postgresql => "BYTEA"

/-- The value is of the kind. -/
def admits : Kind → Value → Bool
  | .integer, .integer _ => true
  | .real, .real _ => true
  | .text, .text _ => true
  | .bool, .bool _ => true
  | .blob, .blob _ => true
  | _, _ => false

/-- The truth value that a trimmed text names. -/
def truth? (s : String) : Option Bool :=
  if s ∈ ["true", "t", "1", "on"] then some true
  else if s ∈ ["false", "f", "0", "off", ""] then some false
  else none

/-- The value of the kind that a value other than null converts to, if there is one. -/
def convert? : Kind → Value → Option Value
  | .integer, .integer i => some (.integer i)
  | .integer, .bool b => some (.integer (if b then 1 else 0))
  | .integer, .real r => (r.integer?.bind Text.toInt64?).map .integer
  | .integer, .text s => (Text.int64? (Text.trim s.toList)).map .integer
  | .real, .real r => some (.real r)
  | .real, .integer i => some (.real (Binary64.ofInt i.toInt))
  | .real, .text s => (Text.real? (Text.trim s.toList)).map .real
  | .text, .text s => some (.text s)
  | .text, .integer i => some (.text (Value.plainText (.integer i)))
  | .text, .real r => some (.text (Value.plainText (.real r)))
  | .text, .bool b => some (.text (Value.plainText (.bool b)))
  | .bool, .bool b => some (.bool b)
  | .bool, .integer i =>
    if i = 0 then some (.bool false)
    else if i = 1 then some (.bool true)
    else none
  | .bool, .text s => (truth? (String.ofList (Text.trim s.toList))).map .bool
  | .blob, .blob octets => some (.blob octets)
  | .blob, .text s => some (.blob (Text.toUtf8 s))
  | _, _ => none

/-- Converts a value to the kind; null passes through unchanged. -/
def coerce (k : Kind) (v : Value) : Except CoercionFailure Value :=
  if v.isNull then .ok .null
  else
    match k.convert? v with
    | some w => .ok w
    | none => .error ⟨k, v⟩

theorem admits_zero (k : Kind) : k.admits k.zero = true := by cases k <;> rfl

theorem admits_of_convert? {k : Kind} {v w : Value} (h : k.convert? v = some w) :
    k.admits w = true := by
  cases k <;> cases v <;> simp only [convert?, Option.map_eq_some_iff, Option.some.injEq,
    reduceCtorEq] at h <;> grind [admits]

theorem convert?_of_admits {k : Kind} {v : Value} (h : k.admits v = true) :
    k.convert? v = some v := by
  cases k <;> cases v <;> simp_all [admits, convert?]

theorem isNull_of_admits {k : Kind} {v : Value} (h : k.admits v = true) : v.isNull = false := by
  cases k <;> cases v <;> first | rfl | cases h

/-- A value of the kind stays as it is. -/
theorem coerce_of_admits {k : Kind} {v : Value} (h : k.admits v = true) : k.coerce v = .ok v := by
  simp only [coerce, isNull_of_admits h, Bool.false_eq_true, if_false, convert?_of_admits h]

end Kind

namespace CoercionFailure

/-- The text of the value that was refused. -/
def valueText (f : CoercionFailure) : String := f.value.plainText

/-- The wording of a failure. -/
def message (f : CoercionFailure) : String :=
  s!"cannot convert {f.value.typeName} value '{f.valueText}' to {f.expected.name}"

end CoercionFailure

end ResourceEngine
