import ResourceEngine.Sql.Basic
import ResourceEngine.Value.Text

/-!
# The text of a fragment

`Sql.render` writes the chunks in order and numbers the placeholders. `Sql.spaced` decides where a
space goes: it looks at two neighbouring chunks only.
-/

namespace ResourceEngine.Sql

/-- A name between double quotes, with every quote inside it written twice. -/
def quoteName (name : String) : String :=
  "\"" ++ String.join (name.toList.map fun c => if c = '"' then "\"\"" else String.singleton c) ++
    "\""

/-- A space goes between the two chunks. -/
def spaced (current next : Chunk) : Bool :=
  match current, next with
  | .func _, .token .LPAREN => false
  | _, .token .RPAREN => false
  | _, .token .COMMA => false
  | _, .token .SEMI => false
  | _, .token .DOT => false
  | .token .LPAREN, _ => false
  | .token .DOT, _ => false
  | .token .COMMA, _ => true
  | .token .RPAREN, next => next.isWord
  | current, .token .LPAREN => current.isWord
  | current, next =>
    current.isComparison || next.isComparison || (current.isWord && next.isWord)

/-- The text of a chunk, with `n` parameters before it. -/
def Chunk.text (d : Dialect) (n : Nat) : Chunk → String
  | .token t => t.text
  | .ident name => quoteName name
  | .raw text => text
  | .func name => name
  | .number i => toString i.toInt
  | .param _ => d.placeholder (n + 1)

/-- The number of parameters after a chunk that has `n` before it. -/
def Chunk.paramsAfter (n : Nat) : Chunk → Nat
  | .param _ => n + 1
  | _ => n

/-- The texts of the chunks and the spaces between them. -/
def pieces (d : Dialect) : Nat → Sql → List String
  | _, [] => []
  | n, [c] => [c.text d n]
  | n, c :: next :: rest =>
    if spaced c next then c.text d n :: " " :: pieces d (c.paramsAfter n) (next :: rest)
    else c.text d n :: pieces d (c.paramsAfter n) (next :: rest)

/-- The text of a fragment in a dialect. -/
def render (d : Dialect) (s : Sql) : String := String.join (pieces d 0 s)

/-- A statement as it is sent: its text, and the values for its placeholders. -/
structure Statement where
  text : String
  params : List Value
  deriving DecidableEq

/-- The text of a statement and its parameters. -/
def build (d : Dialect) (s : Sql) : Statement := ⟨render d s, params s⟩

/-- The text and the values of a fragment, for a reader. -/
def summary (s : Sql) : String :=
  "sql: \"" ++ render .sqlite s ++ "\", params: " ++ Value.literals (params s)

end ResourceEngine.Sql
