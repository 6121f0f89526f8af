import ResourceEngine.Sql.Basic

/-!
# Conditions

The conditions of SQL as trees, and what they say of a row. A condition on a row with missing cells
holds, fails or is unknown; an operand that decides the outcome of a connective does so also beside
an unknown one. How a database orders and matches the values that are there is a parameter.
-/

namespace ResourceEngine

/-- What a condition says of a row. -/
inductive Truth where
  | fails
  | unknown
  | holds
  deriving DecidableEq, Inhabited

namespace Truth

/-- The truth of what is known. -/
def ofBool (b : Bool) : Truth := if b then .holds else .fails

def not : Truth → Truth
  | .fails => .holds
  | .unknown => .unknown
  | .holds => .fails

def and : Truth → Truth → Truth
  | .fails, _ => .fails
  | _, .fails => .fails
  | .holds, .holds => .holds
  | _, _ => .unknown

def or : Truth → Truth → Truth
  | .holds, _ => .holds
  | _, .holds => .holds
  | .fails, .fails => .fails
  | _, _ => .unknown

/-- All of the conditions hold. -/
def all (ts : List Truth) : Truth := ts.foldr and .holds

/-- Some of the conditions hold. -/
def any (ts : List Truth) : Truth := ts.foldr or .fails

@[simp] theorem and_holds (t : Truth) : t.and .holds = t := by cases t <;> rfl

@[simp] theorem or_fails (t : Truth) : t.or .fails = t := by cases t <;> rfl

@[simp] theorem not_ofBool (b : Bool) : (ofBool b).not = ofBool (!b) := by cases b <;> rfl

/-- A truth value as a value. -/
def value : Truth → Value
  | .holds => .bool true
  | .fails => .bool false
  | .unknown => .null

end Truth

/-- A value as a truth value. Only truth values are known to hold or to fail. -/
def Value.truth : Value → Truth
  | .bool b => .ofBool b
  | _ => .unknown

@[simp] theorem Truth.truth_value (t : Truth) : t.value.truth = t := by cases t <;> rfl

namespace Sql

/-- How a value is matched with a pattern. -/
inductive Matcher where
  | like
  | ilike
  | similar
  deriving DecidableEq

/-- What is left to a database: how it orders and matches values that are not null, and what its
functions on texts give. Where it gives no order, a comparison is unknown. -/
structure Database where
  order : Value → Value → Option Ordering
  isLike : Matcher → Value → Value → Truth
  lower : Value → Value
  unaccent : Value → Value

namespace Database

variable (D : Database)

/-- A comparison of two values: unknown where one of them is null. -/
def compare (p : Ordering → Bool) (v w : Value) : Truth :=
  if v.isNull || w.isNull then .unknown
  else
    match D.order v w with
    | some o => .ofBool (p o)
    | none => .unknown

/-- A match of a value with a pattern: unknown where one of the two is null. -/
def matched (m : Matcher) (v pattern : Value) : Truth :=
  if v.isNull || pattern.isNull then .unknown else D.isLike m v pattern

/-- A function on texts; of null it gives null. -/
def ofText (f : Value → Value) (v : Value) : Value := if v.isNull then .null else f v

/-- The functions that conditions call. -/
def call (function : String) (arguments : List Value) : Value :=
  match arguments with
  | [v] =>
    if function = "lower" then ofText D.lower v
    else if function = "unaccent" then ofText D.unaccent v
    else .null
  | [v, w] => if function = "similar_to" then (D.matched .similar v w).value else .null
  | _ => .null

end Database

/-- What a condition compares. -/
inductive Term where
  | column (name : String)
  | placeholder (n : Nat)
  | call (function : String) (arguments : List Term)

/-- A condition on a row. -/
inductive Condition where
  | constant (b : Bool)
  /-- The call of a function that gives a truth value. -/
  | ask (t : Term)
  | compare (comparison : Token) (t u : Term)
  | isNull (t : Term)
  | isIn (t : Term) (us : List Term)
  | isLike (m : Matcher) (t u : Term)
  | not (c : Condition)
  | and (c e : Condition)
  | or (c e : Condition)

/-! ### What conditions say -/

/-- The comparison accepts the order of its two sides. -/
def Token.accepts : Token → Ordering → Bool
  | .EQ, o => o == .eq
  | .NE, o => o != .eq
  | .LT, o => o == .lt
  | .GT, o => o == .gt
  | .LE, o => o != .gt
  | .GE, o => o != .lt
  | _, _ => false

section Meaning

variable (D : Database) (row : String → Value) (bound : List Value)

mutual

/-- The value of a term on a row, under values for the placeholders. -/
def Term.value : Term → Value
  | .column name => row name
  | .placeholder n => bound.getD n .null
  | .call f us => D.call f (Term.values us)

def Term.values : List Term → List Value
  | [] => []
  | u :: us => Term.value u :: Term.values us

end

theorem Term.values_eq_map (us : List Term) :
    Term.values D row bound us = us.map (Term.value D row bound) := by
  induction us with
  | nil => rfl
  | cons u us ih => rw [Term.values, ih, List.map_cons]

/-- What a condition says of a row, under values for the placeholders. -/
def Condition.truth : Condition → Truth
  | .constant b => .ofBool b
  | .ask t => (t.value D row bound).truth
  | .compare c t u => D.compare c.accepts (t.value D row bound) (u.value D row bound)
  | .isNull t => .ofBool (t.value D row bound).isNull
  | .isIn t us =>
    .any (us.map fun u => D.compare Token.EQ.accepts (t.value D row bound) (u.value D row bound))
  | .isLike m t u => D.matched m (t.value D row bound) (u.value D row bound)
  | .not c => c.truth.not
  | .and c e => c.truth.and e.truth
  | .or c e => c.truth.or e.truth

end Meaning

end Sql

end ResourceEngine
