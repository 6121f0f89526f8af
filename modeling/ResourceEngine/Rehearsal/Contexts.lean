import ResourceEngine.Context

/-!
# Named contexts

A rehearsal knows its contexts by name. Each is new or derived from an earlier one, and time stands
still between them.
-/

namespace ResourceEngine.Rehearsal

/-- How a context is made: from a parent or in a family of its own, with a time span, and cancelled
at once or not. -/
structure ContextSpec where
  parent : Option String
  span : Option Nat
  cancelled : Bool

/-- The named contexts, and the moment they are judged in. -/
structure Contexts where
  moment : Moment
  /-- The number of families so far, without that of `Context.background`. -/
  families : Nat
  named : List (String × Context)

namespace Contexts

def empty : Contexts := ⟨⟨[], 0⟩, 0, []⟩

/-- The context with a name. -/
def get? (cs : Contexts) (name : String) : Option Context :=
  (cs.named.find? (·.1 == name)).map (·.2)

/-- Adds a context under a name, in the place of an earlier one of that name. -/
def declare (cs : Contexts) (name : String) (spec : ContextSpec) : Contexts :=
  let families := cs.families + 1
  let base := (spec.parent.bind cs.get?).getD ⟨families, none⟩
  let c := match spec.span with
    | some span => base.withTimeout cs.moment span
    | none => base
  { moment := if spec.cancelled then cs.moment.cancel c else cs.moment
    families
    named := (name, c) :: cs.named.filter (·.1 != name) }

/-- Cancels the family of a named context. -/
def cancel (cs : Contexts) (name : String) : Contexts :=
  match cs.get? name with
  | some c => { cs with moment := cs.moment.cancel c }
  | none => cs

/-- The contexts in order of their names. -/
def sorted (cs : Contexts) : List (String × Context) :=
  cs.named.mergeSort fun a b => decide (a.1 ≤ b.1)

end Contexts

end ResourceEngine.Rehearsal
