/-!
# SQL dialects

The two dialects that statements are written in.
-/

namespace ResourceEngine

/-- A dialect of SQL that statements are written in. -/
inductive Dialect where
  | sqlite
  | postgresql
  deriving DecidableEq, Inhabited

namespace Dialect

def all : List Dialect := [.sqlite, .postgresql]

def name : Dialect → String
  | .sqlite => "sqlite"
  | .postgresql => "postgresql"

/-- Placeholders carry the number of their parameter. -/
def numbersPlaceholders : Dialect → Bool
  | .sqlite => false
  | .postgresql => true

/-- The placeholder of the `n`-th parameter, counted from one. -/
def placeholder (d : Dialect) (n : Nat) : String :=
  match d with
  | .sqlite => "?"
  | .postgresql => "$" ++ toString n

/-- The largest number of parameters a statement may bind. -/
def maxParams : Dialect → Nat
  | .sqlite => 32766
  | .postgresql => 65535

end Dialect

end ResourceEngine
