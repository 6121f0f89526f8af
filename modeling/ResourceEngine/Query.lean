import ResourceEngine.Context
import ResourceEngine.Filter.Text

/-!
# Queries

What a request asks for: an action on a resource, the key of one row or a window of many, the fields
and relations to return, and the body of a write.
-/

namespace ResourceEngine

/-- An attribute to sort by, and the direction. -/
structure SortTerm where
  attr : String
  ascending : Bool
  deriving DecidableEq

/-- A request. -/
structure Query where
  resource : String
  action : Action
  /-- The primary key as text; empty for none. -/
  key : String
  offset : UInt64
  limit : Option UInt64
  /-- The fields to return; empty for all. -/
  fields : List String
  relations : List String
  sort : List SortTerm
  filter : Option Filter
  /-- The namespace; empty for the default. -/
  space : String
  contentType : String
  accept : String
  body : List UInt8
  debug : Bool
  context : Context

namespace Query

/-- The request has a key. -/
def keyed (q : Query) : Bool := q.key != ""

/-- A descending term has a minus sign in front. -/
def SortTerm.text (s : SortTerm) : String := if s.ascending then s.attr else "-" ++ s.attr

/-- The parts of a query for many rows that are not empty. -/
def windowText (q : Query) : String :=
  let list (label : String) (items : List String) :=
    if items.isEmpty then "" else label ++ String.intercalate "," items
  " offset=" ++ toString q.offset.toNat ++
    (match q.limit with
      | some n => " limit=" ++ toString n.toNat
      | none => "") ++
    list " fields=" q.fields ++ list " relations=" q.relations ++
    list " sort=" (q.sort.map SortTerm.text) ++
    (match q.filter with
      | some f => " filter=" ++ f.text
      | none => "")

/-- A query in a line. -/
def text (q : Query) : String :=
  q.action.name ++ " " ++ q.resource ++
    (if q.keyed then "[" ++ q.key ++ "]"
    else if q.action = .fetch then q.windowText
    else "")

end Query

end ResourceEngine
