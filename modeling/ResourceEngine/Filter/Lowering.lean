import ResourceEngine.Schema.Basic
import ResourceEngine.SimilarTo
import ResourceEngine.Sql.Basic

/-!
# Lowering filters

A filter becomes the condition of a statement. Groups stand in parentheses with their word between
the children, so the nesting of the tree is the nesting of the condition; groups without predicates
vanish. Attributes are written as quoted names and operands only as parameters, converted to the
kind of their field.
-/

namespace ResourceEngine.Filter

open Sql

/-- The operator between the parts of a group. -/
def Combinator.token : Combinator → Token
  | .and => .AND
  | .or => .OR

/-- The comparison that an operator stands for, if it is one. -/
def Op.comparison? : Op → Option Token
  | .eq => some .EQ
  | .neq => some .NE
  | .gt => some .GT
  | .gte => some .GE
  | .lt => some .LT
  | .lte => some .LE
  | _ => none

/-- The operator denies what its positive partner says. -/
def Op.isNegated : Op → Bool
  | .neq | .notIn | .notLike | .notIlike | .notSimilar | .notUnaccentIlike | .isNotNull => true
  | _ => false

/-- The operand as one value. -/
def scalarOf (f : Field) (op : Op) : Operand → Except Problem Value
  | .scalar v => .ok v
  | .list _ => .error (.scalarRequired op f.name)

/-- The operand as a list of values. -/
def listOf (f : Field) (op : Op) : Operand → Except Problem (List Value)
  | .list vs => .ok vs
  | .scalar _ => .error (.listRequired op f.name)

/-- A value converted to the kind of the field. -/
def coerceFor (f : Field) (op : Op) (v : Value) : Except Problem Value :=
  match f.kind.coerce v with
  | .ok w => .ok w
  | .error e => .error (.invalidOperand op f.name e)

/-- The operand as a text pattern. -/
def patternOf (f : Field) (op : Op) (operand : Operand) : Except Problem String :=
  match scalarOf f op operand with
  | .ok (.text s) => .ok s
  | .ok v => .error (.textPatternRequired op f.name v)
  | .error e => .error e

/-- An operator word between two sides, denied if asked for. -/
def infixed (negated : Bool) (left : Sql) (operator : Token) (right : Sql) : Sql :=
  left ++ (if negated then [.token .NOT] else []) ++ .token operator :: right

/-- A comparison that ignores case: with an operator of its own, or with both sides in lower case.
-/
def caseless (d : Dialect) (negated : Bool) (left right : Sql) : Sql :=
  match d with
  | .postgresql => infixed negated left .ILIKE right
  | .sqlite => infixed negated (call "lower" left) .LIKE (call "lower" right)

/-- A comparison with a `SIMILAR TO` pattern: with an operator of its own, or by a function. -/
def similarity (d : Dialect) (negated : Bool) (column : String) (pattern : Value) : Sql :=
  match d with
  | .postgresql => infixed negated [.ident column] .SIMILAR [.token .TO, .param pattern]
  | .sqlite =>
    (if negated then [.token .NOT] else []) ++
      call "similar_to" [.ident column, .token .COMMA, .param pattern]

/-- The condition of a predicate on a field. -/
def lowerPredicate (d : Dialect) (f : Field) (op : Op) (operand : Operand) : Except Problem Sql :=
  let column : Sql := [.ident f.name]
  match op with
  | .isNull => .ok [.ident f.name, .token .IS, .token .NULL]
  | .isNotNull => .ok [.ident f.name, .token .IS, .token .NOT, .token .NULL]
  | .isIn | .notIn => do
    let vs ← listOf f op operand
    if vs.isEmpty then
      return [.token (if op.isNegated then .TRUE else .FALSE)]
    let ws ← vs.mapM (coerceFor f op)
    return infixed op.isNegated column .IN (parens (paramList ws))
  | .like | .notLike => do
    let pattern ← patternOf f op operand
    return infixed op.isNegated column .LIKE [.param (.text pattern)]
  | .ilike | .notIlike => do
    let pattern ← patternOf f op operand
    return caseless d op.isNegated column [.param (.text pattern)]
  | .unaccentIlike | .notUnaccentIlike => do
    let pattern ← patternOf f op operand
    return caseless d op.isNegated (call "unaccent" column)
      (call "unaccent" [.param (.text pattern)])
  | .similar | .notSimilar => do
    let pattern ← patternOf f op operand
    if (SimilarTo.compile? pattern).isNone then
      throw (.invalidPattern pattern)
    return similarity d op.isNegated f.name (.text pattern)
  | .eq | .neq | .gt | .gte | .lt | .lte => do
    let v ← scalarOf f op operand
    let w ← coerceFor f op v
    return column ++ [.token (op.comparison?.getD .EQ), .param w]

/-- A group of the conditions of its children, or nothing if none of them has one. -/
def joinGroup (c : Combinator) (parts : List Sql) : Option Sql :=
  if parts.isEmpty then none else some (parens (join c.token parts))

mutual

/-- The condition of a filter on a resource, or nothing if it has no predicate. -/
def lower (s : Schema) (resource : String) (d : Dialect) : Filter → Except Problem (Option Sql)
  | .group c children =>
    match lowerAll s resource d children with
    | .ok parts => .ok (joinGroup c parts)
    | .error e => .error e
  | .predicate attr op operand =>
    match s.field? attr with
    | none => .error (.unknownAttribute attr resource)
    | some f =>
      match lowerPredicate d f op operand with
      | .ok sql => .ok (some sql)
      | .error e => .error e

/-- The conditions of filters, without those that have none. -/
def lowerAll (s : Schema) (resource : String) (d : Dialect) :
    List Filter → Except Problem (List Sql)
  | [] => .ok []
  | f :: fs =>
    match lower s resource d f with
    | .error e => .error e
    | .ok part =>
      match lowerAll s resource d fs with
      | .error e => .error e
      | .ok parts => .ok (part.toList ++ parts)

end

end ResourceEngine.Filter
