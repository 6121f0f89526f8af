import ResourceEngine.Value.Basic

/-!
# Filters

A filter is a tree: a group joins its children by *and* or *or*, and a predicate compares one
attribute with an operand. `predicateCount` counts the predicates, so a filter restricts nothing
exactly when its count is zero.
-/

namespace ResourceEngine

namespace Filter

/-- How a group joins its children. -/
inductive Combinator where
  | and
  | or
  deriving DecidableEq

/-- A comparison of an attribute with an operand. -/
inductive Op where
  | eq
  | neq
  | isIn
  | notIn
  | gt
  | gte
  | lt
  | lte
  | like
  | notLike
  | ilike
  | notIlike
  | similar
  | notSimilar
  | unaccentIlike
  | notUnaccentIlike
  | isNull
  | isNotNull
  deriving DecidableEq

/-- What an attribute is compared with. -/
inductive Operand where
  | scalar (v : Value)
  | list (vs : List Value)
  deriving DecidableEq

namespace Combinator

def all : List Combinator := [.and, .or]

/-- The word for the combinator in a written filter. -/
def code : Combinator → String
  | .and => "and"
  | .or => "or"

/-- The combinator with a code; codes are case-sensitive. -/
def ofCode? (s : String) : Option Combinator := all.find? (·.code == s)

theorem ofCode?_code (c : Combinator) : ofCode? c.code = some c := by cases c <;> decide

end Combinator

namespace Op

def all : List Op :=
  [.eq, .neq, .isIn, .notIn, .gt, .gte, .lt, .lte, .like, .notLike, .ilike, .notIlike, .similar,
    .notSimilar, .unaccentIlike, .notUnaccentIlike, .isNull, .isNotNull]

/-- The word for the operator in a written filter. -/
def code : Op → String
  | .eq => "eq"
  | .neq => "neq"
  | .isIn => "in"
  | .notIn => "nin"
  | .gt => "gt"
  | .gte => "gte"
  | .lt => "lt"
  | .lte => "lte"
  | .like => "lk"
  | .notLike => "nlk"
  | .ilike => "ilk"
  | .notIlike => "nilk"
  | .similar => "sim"
  | .notSimilar => "nsim"
  | .unaccentIlike => "ilkua"
  | .notUnaccentIlike => "nilkua"
  | .isNull => "null"
  | .isNotNull => "nnull"

/-- The operator with a code; codes are case-sensitive. -/
def ofCode? (s : String) : Option Op := all.find? (·.code == s)

/-- The operator looks at the attribute alone. -/
def isUnary : Op → Bool
  | .isNull | .isNotNull => true
  | _ => false

/-- The operator compares with a list. -/
def takesList : Op → Bool
  | .isIn | .notIn => true
  | _ => false

/-- The operator compares with a text pattern. -/
def isPattern : Op → Bool
  | .like | .notLike | .ilike | .notIlike | .similar | .notSimilar | .unaccentIlike
  | .notUnaccentIlike => true
  | _ => false

theorem ofCode?_code (op : Op) : ofCode? op.code = some op := by cases op <;> decide

/-- No word means both a combinator and an operator. -/
theorem combinator_ofCode?_code (op : Op) : Combinator.ofCode? op.code = none := by
  cases op <;> decide

end Op

end Filter

/-- A filter over the attributes of a resource. -/
inductive Filter where
  | group (combinator : Filter.Combinator) (children : List Filter)
  | predicate (attr : String) (op : Filter.Op) (operand : Filter.Operand)

namespace Filter

mutual

/-- The number of predicates in the tree. -/
def predicateCount : Filter → Nat
  | .group _ children => predicateCounts children
  | .predicate .. => 1

def predicateCounts : List Filter → Nat
  | [] => 0
  | f :: fs => predicateCount f + predicateCounts fs

end

end Filter

end ResourceEngine
