/-!
# Actions

The five things a request can do with a resource, and sets of them. A set is five bits.
-/

namespace ResourceEngine

/-- What a request does to a resource. -/
inductive Action where
  | fetch
  | create
  | replace
  | partialUpdate
  | delete
  deriving DecidableEq, Inhabited

namespace Action

/-- The actions in the order of their bits. -/
def all : List Action := [.fetch, .create, .replace, .partialUpdate, .delete]

def name : Action → String
  | .fetch => "Fetch"
  | .create => "Create"
  | .replace => "Replace"
  | .partialUpdate => "PartialUpdate"
  | .delete => "Delete"

/-- The bit of the action in a set. -/
def bit : Action → UInt8
  | .fetch => 1
  | .create => 2
  | .replace => 4
  | .partialUpdate => 8
  | .delete => 16

/-- The response status when the action succeeds. -/
def successStatus : Action → Nat
  | .fetch | .replace | .partialUpdate => 200
  | .create => 201
  | .delete => 204

/-- The request carries a body. -/
def hasBody : Action → Bool
  | .create | .replace | .partialUpdate => true
  | _ => false

end Action

/-- A set of actions. -/
structure ActionSet where
  bits : UInt8
  deriving DecidableEq, Inhabited

namespace ActionSet

def empty : ActionSet := ⟨0⟩

def all : ActionSet := ⟨31⟩

def singleton (a : Action) : ActionSet := ⟨a.bit⟩

def union (s t : ActionSet) : ActionSet := ⟨s.bits ||| t.bits⟩

def inter (s t : ActionSet) : ActionSet := ⟨s.bits &&& t.bits⟩

instance : Union ActionSet := ⟨union⟩

instance : Inter ActionSet := ⟨inter⟩

/-- The set of the actions in a list. -/
def ofList (as : List Action) : ActionSet := as.foldl (fun s a => s ∪ singleton a) empty

/-- The action is in the set. -/
def permits (s : ActionSet) (a : Action) : Bool := s.bits &&& a.bit != 0

def isEmpty (s : ActionSet) : Bool := s.bits == 0

/-- The actions of the set in the order of their bits. -/
def toList (s : ActionSet) : List Action := Action.all.filter s.permits

def text (s : ActionSet) : String :=
  if s.isEmpty then "None"
  else if s = all then "All"
  else String.intercalate "|" (s.toList.map Action.name)

end ActionSet

end ResourceEngine
