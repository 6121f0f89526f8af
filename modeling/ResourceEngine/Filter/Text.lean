import ResourceEngine.Filter.Basic
import ResourceEngine.Value.Text

/-!
# Filters as text

A group stands in parentheses with its word between the children, and a predicate is the attribute,
the operator's word and the operand with its type. A unary operator has no operand.
-/

namespace ResourceEngine.Filter

/-- An operand with the types of its values. -/
def Operand.text : Operand → String
  | .scalar v => v.literal
  | .list vs => Value.literals vs

mutual

/-- A filter in a line. -/
def text : Filter → String
  | .group c children =>
    "(" ++ String.intercalate (" " ++ c.code ++ " ") (texts children) ++ ")"
  | .predicate attr op operand =>
    if op.isUnary then attr ++ " " ++ op.code
    else attr ++ " " ++ op.code ++ " " ++ operand.text

def texts : List Filter → List String
  | [] => []
  | f :: fs => text f :: texts fs

end

end ResourceEngine.Filter
