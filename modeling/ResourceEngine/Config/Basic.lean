import ResourceEngine.Text.Blank

/-!
# Configuration

The defaults that the engine applies to requests.
-/

namespace ResourceEngine

/-- The settings of an engine. -/
structure Config where
  /-- The page size where a request gives none. -/
  defaultLimit : UInt64
  /-- The largest page size; zero for no bound. -/
  maxLimit : UInt64
  defaultContentType : String
  defaultAccept : String
  defaultNamespace : Option String
  deriving DecidableEq, Inhabited

namespace Config

/-- The settings where none is given. -/
def default : Config := ⟨10, 0, "application/json", "application/json", none⟩

/-- What is wrong with a configuration. -/
inductive Fault where
  | emptyContentType
  | emptyAccept
  | limitsCrossed (max default : UInt64)
  deriving DecidableEq

/-- The wording of a fault. -/
def Fault.message : Fault → String
  | .emptyContentType => "defaultContentType must not be empty"
  | .emptyAccept => "defaultAccept must not be empty"
  | .limitsCrossed max default =>
    s!"maxLimit ({max.toNat}) is below defaultLimit ({default.toNat})"

/-- The text has nothing but white space. -/
def isBlankText (s : String) : Bool := s.toList.all Text.isBlank

/-- The first fault of a configuration, if it has any. -/
def fault? (c : Config) : Option Fault :=
  if isBlankText c.defaultContentType then some .emptyContentType
  else if isBlankText c.defaultAccept then some .emptyAccept
  else if c.maxLimit ≠ 0 ∧ c.maxLimit < c.defaultLimit then
    some (.limitsCrossed c.maxLimit c.defaultLimit)
  else none

/-- The page size for a request: the default where none is asked for, and at most the largest. Zero,
which asks for everything, is the largest too where there is one. -/
def resolveLimit (c : Config) (requested : Option UInt64) : UInt64 :=
  let limit := requested.getD c.defaultLimit
  if c.maxLimit = 0 then limit
  else if limit = 0 ∨ c.maxLimit < limit then c.maxLimit
  else limit

theorem resolveLimit_le {c : Config} (h : c.maxLimit ≠ 0) (requested : Option UInt64) :
    c.resolveLimit requested ≤ c.maxLimit ∧ c.resolveLimit requested ≠ 0 := by
  unfold resolveLimit
  simp only [h, if_false]
  split
  · exact ⟨UInt64.le_refl _, h⟩
  · rename_i h'
    rw [not_or] at h'
    exact ⟨UInt64.not_lt.1 h'.2, h'.1⟩

end Config

end ResourceEngine
