import ResourceEngine.Problem

/-!
# Execution contexts

A context belongs to a family that is cancelled as a whole, and may have a deadline. Deriving a
context keeps the family and can only bring the deadline forward. Whether a context is done depends
on the moment: which families have been cancelled, and what time it is.
-/

namespace ResourceEngine

/-- The family and the deadline of an execution, both of which the moment decides on. -/
structure Context where
  family : Nat
  deadline : Option Nat
  deriving DecidableEq, Inhabited

/-- What a context is judged by: the families cancelled so far, and the time. -/
structure Moment where
  cancelled : List Nat
  now : Nat
  deriving Inhabited

namespace Context

/-- A context without a deadline, of the family that is set apart for contexts that nobody cancels.
-/
def background : Context := ⟨0, none⟩

/-- The context of the same family with this deadline or its own, whichever is earlier. -/
def withDeadline (c : Context) (deadline : Nat) : Context :=
  match c.deadline with
  | some d => { c with deadline := some (if d < deadline then d else deadline) }
  | none => { c with deadline := some deadline }

@[simp] theorem family_withDeadline (c : Context) (d : Nat) :
    (c.withDeadline d).family = c.family := by
  unfold withDeadline
  split <;> rfl

/-- The context of the same family that ends after a time span. -/
def withTimeout (c : Context) (m : Moment) (span : Nat) : Context := c.withDeadline (m.now + span)

/-- The family has been cancelled. -/
def isCancelled (c : Context) (m : Moment) : Bool := m.cancelled.contains c.family

/-- The deadline is now or has passed. -/
def isExpired (c : Context) (m : Moment) : Bool :=
  match c.deadline with
  | some d => decide (d ≤ m.now)
  | none => false

/-- The context is cancelled or its deadline has passed. -/
def isDone (c : Context) (m : Moment) : Bool := c.isCancelled m || c.isExpired m

/-- A context is done under a deadline of its own exactly if it was done already or the deadline has
passed. -/
theorem isDone_withDeadline (c : Context) (d : Nat) (m : Moment) :
    (c.withDeadline d).isDone m = (c.isDone m || decide (d ≤ m.now)) := by
  unfold isDone
  rw [Bool.or_assoc, isCancelled, family_withDeadline, ← isCancelled]
  congr 1
  rw [Bool.eq_iff_iff]
  cases h : c.deadline with
  | none => simp [withDeadline, isExpired, h]
  | some e =>
    by_cases he : e < d
    · simp only [withDeadline, isExpired, h, he, if_true, Bool.or_eq_true, decide_eq_true_eq]
      omega
    · simp only [withDeadline, isExpired, h, he, if_false, Bool.or_eq_true, decide_eq_true_eq]
      omega

/-- Why the context is done, if it is; a cancellation comes before a deadline. -/
def problem? (c : Context) (m : Moment) : Option Problem :=
  if c.isCancelled m then some .cancelled
  else if c.isExpired m then some .deadlineExceeded
  else none

theorem isSome_problem? (c : Context) (m : Moment) : (c.problem? m).isSome = c.isDone m := by
  unfold problem? isDone
  cases c.isCancelled m <;> cases c.isExpired m <;> rfl

end Context

namespace Moment

/-- The moment after a context's family is cancelled. -/
def cancel (m : Moment) (c : Context) : Moment := { m with cancelled := c.family :: m.cancelled }

theorem isCancelled_cancel (m : Moment) (c d : Context) :
    d.isCancelled (m.cancel c) = (d.family == c.family || d.isCancelled m) := by
  rw [Bool.eq_iff_iff]
  simp [Context.isCancelled, cancel]

end Moment

end ResourceEngine
