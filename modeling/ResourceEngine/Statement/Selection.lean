import ResourceEngine.Statement.Target

/-!
# Selections

The statements that read rows: by key, by a set of keys, by a filter in a window, and the count of
the rows that a filter matches.
-/

namespace ResourceEngine

/-- The order and the bounds of a selection. A limit of zero is no limit. -/
structure Window where
  sort : List SortTerm
  offset : UInt64
  limit : UInt64

/-- A window of the matching rows and the count of all of them. -/
structure PageSelection where
  select : Sql
  count : Sql
  offset : UInt64
  limit : UInt64

namespace Target

open Sql

/-- The start of every selection. -/
def selectFrom (t : Target) (columns : Sql) : Sql :=
  .token .SELECT :: columns ++ .token .FROM :: t.table

/-- The clause of a filter; nothing, if it has no predicate. -/
def whereClause (t : Target) : Option Filter → Except Problem Sql
  | none => .ok []
  | some f => do
    match ← f.lower t.schema t.name t.dialect with
    | some condition => return .token .WHERE :: condition
    | none => return []

/-- One term of an order. -/
def sortTerm (t : Target) (s : SortTerm) : Except Problem Sql :=
  if (t.schema.field? s.attr).isNone then .error (.unknownSort s.attr t.name)
  else .ok [.ident s.attr, .token (if s.ascending then .ASC else .DESC)]

/-- The clause of an order; nothing, if it has no terms. -/
def orderBy (t : Target) (sort : List SortTerm) : Except Problem Sql := do
  if sort.isEmpty then
    return []
  let terms ← sort.mapM t.sortTerm
  return .token .ORDER :: .token .BY :: join .COMMA terms

/-- An unsigned number as a literal, at most the largest signed one. -/
def literal (n : UInt64) : Chunk :=
  .number (if n ≤ Int64.maxValue.toUInt64 then n.toInt64 else Int64.maxValue)

/-- The clauses of a window. Where an offset needs a limit before it and none is asked for, the
limit is minus one, which stands for none. -/
def paginate (d : Dialect) (offset limit : UInt64) : Sql :=
  (if limit = 0 then
    if d = .sqlite ∧ offset ≠ 0 then [.token .LIMIT, .number (-1)] else []
  else [.token .LIMIT, literal limit]) ++
    (if offset = 0 then [] else [.token .OFFSET, literal offset])

/-- The rows that a filter matches, in a window. -/
def select (t : Target) (projection : List Nat) (filter : Option Filter) (w : Window) :
    Except Problem Sql := do
  let condition ← t.whereClause filter
  let order ← t.orderBy w.sort
  return t.selectFrom (t.columns projection) ++ condition ++ order ++
    paginate t.dialect w.offset w.limit

/-- The row with a key. -/
def selectOne (t : Target) (projection : List Nat) (key : Value) : Except Problem Sql := do
  return t.selectFrom (t.columns projection) ++ (← t.whereKey key)

/-- The rows with one of the keys in a column. -/
def selectIn (t : Target) (projection : List Nat) (column : String) (keys : List Value) : Sql :=
  t.selectFrom (t.columns projection) ++
    [.token .WHERE, .ident column, .token .IN] ++ parens (paramList keys)

/-- The number of rows that a filter matches. -/
def count (t : Target) (filter : Option Filter) : Except Problem Sql := do
  return t.selectFrom (call "COUNT" [.token .STAR]) ++ (← t.whereClause filter)

/-- A window and the count. A filter that binds more values than the dialect allows is refused. -/
def page (t : Target) (projection : List Nat) (filter : Option Filter) (w : Window) :
    Except Problem PageSelection := do
  let select ← t.select projection filter w
  let bound := (params select).length
  if t.dialect.maxParams < bound then
    throw (.tooManyParams bound t.dialect.maxParams)
  return ⟨select, ← t.count filter, w.offset, w.limit⟩

end Target

end ResourceEngine
