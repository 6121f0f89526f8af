import ResourceEngine.Dialect
import ResourceEngine.Value.Basic

/-!
# Fragments of SQL

A fragment is a sequence of chunks: tokens, quoted names, raw text, function names, numbers, and
values. A value is never written into the text; it stands as a placeholder and is handed over beside
it.
-/

namespace ResourceEngine

namespace Sql

/-- A keyword, a punctuation mark or a comparison operator. -/
inductive Token where
  | SELECT
  | FROM
  | WHERE
  | INSERT
  | INTO
  | VALUES
  | UPDATE
  | SET
  | DELETE
  | RETURNING
  | CREATE
  | TABLE
  | IF
  | EXISTS
  | ORDER
  | BY
  | ASC
  | DESC
  | LIMIT
  | OFFSET
  | AS
  | DEFAULT
  | PRIMARY
  | KEY
  | AND
  | OR
  | NOT
  | IN
  | IS
  | NULL
  | LIKE
  | ILIKE
  | SIMILAR
  | TO
  | TRUE
  | FALSE
  | LPAREN
  | RPAREN
  | COMMA
  | SEMI
  | DOT
  | STAR
  | EQ
  | NE
  | LT
  | GT
  | LE
  | GE
  deriving DecidableEq

namespace Token

def all : List Token :=
  [.SELECT, .FROM, .WHERE, .INSERT, .INTO, .VALUES, .UPDATE, .SET, .DELETE, .RETURNING, .CREATE,
    .TABLE, .IF, .EXISTS, .ORDER, .BY, .ASC, .DESC, .LIMIT, .OFFSET, .AS, .DEFAULT, .PRIMARY, .KEY,
    .AND, .OR, .NOT, .IN, .IS, .NULL, .LIKE, .ILIKE, .SIMILAR, .TO, .TRUE, .FALSE, .LPAREN, .RPAREN,
    .COMMA, .SEMI, .DOT, .STAR, .EQ, .NE, .LT, .GT, .LE, .GE]

/-- The spelling of a token. -/
def text : Token → String
  | .SELECT => "SELECT"
  | .FROM => "FROM"
  | .WHERE => "WHERE"
  | .INSERT => "INSERT"
  | .INTO => "INTO"
  | .VALUES => "VALUES"
  | .UPDATE => "UPDATE"
  | .SET => "SET"
  | .DELETE => "DELETE"
  | .RETURNING => "RETURNING"
  | .CREATE => "CREATE"
  | .TABLE => "TABLE"
  | .IF => "IF"
  | .EXISTS => "EXISTS"
  | .ORDER => "ORDER"
  | .BY => "BY"
  | .ASC => "ASC"
  | .DESC => "DESC"
  | .LIMIT => "LIMIT"
  | .OFFSET => "OFFSET"
  | .AS => "AS"
  | .DEFAULT => "DEFAULT"
  | .PRIMARY => "PRIMARY"
  | .KEY => "KEY"
  | .AND => "AND"
  | .OR => "OR"
  | .NOT => "NOT"
  | .IN => "IN"
  | .IS => "IS"
  | .NULL => "NULL"
  | .LIKE => "LIKE"
  | .ILIKE => "ILIKE"
  | .SIMILAR => "SIMILAR"
  | .TO => "TO"
  | .TRUE => "TRUE"
  | .FALSE => "FALSE"
  | .LPAREN => "("
  | .RPAREN => ")"
  | .COMMA => ","
  | .SEMI => ";"
  | .DOT => "."
  | .STAR => "*"
  | .EQ => "="
  | .NE => "<>"
  | .LT => "<"
  | .GT => ">"
  | .LE => "<="
  | .GE => ">="

/-- The token compares its two sides. -/
def isComparison : Token → Bool
  | .EQ | .NE | .LT | .GT | .LE | .GE => true
  | _ => false

/-- The token is set like a word, apart from other words. -/
def isWord : Token → Bool
  | .LPAREN | .RPAREN | .COMMA | .SEMI | .DOT => false
  | t => !t.isComparison

end Token

/-- A piece of a statement. -/
inductive Chunk where
  | token (t : Token)
  /-- A name, quoted when it is written. -/
  | ident (name : String)
  | raw (text : String)
  /-- The name of a function, written next to its arguments. -/
  | func (name : String)
  | number (n : Int64)
  /-- A value, written as a placeholder. -/
  | param (v : Value)
  deriving DecidableEq

instance : Coe Token Chunk := ⟨.token⟩

/-- The chunk is set like a word. -/
def Chunk.isWord : Chunk → Bool
  | .token t => t.isWord
  | _ => true

/-- The chunk is a comparison operator. -/
def Chunk.isComparison : Chunk → Bool
  | .token t => t.isComparison
  | _ => false

/-- The value that the chunk binds. -/
def Chunk.value? : Chunk → Option Value
  | .param v => some v
  | _ => none

end Sql

/-- A statement or a part of one. -/
abbrev Sql := List Sql.Chunk

namespace Sql

/-- The values a fragment binds, in order. -/
def params (s : Sql) : List Value := s.filterMap Chunk.value?

@[simp] theorem params_nil : params [] = [] := rfl

@[simp] theorem params_append (s t : Sql) : params (s ++ t) = params s ++ params t :=
  List.filterMap_append

@[simp] theorem params_param (v : Value) (s : Sql) : params (.param v :: s) = v :: params s := rfl

@[simp] theorem params_token (t : Token) (s : Sql) : params (.token t :: s) = params s := rfl

@[simp] theorem params_ident (n : String) (s : Sql) : params (.ident n :: s) = params s := rfl

@[simp] theorem params_func (n : String) (s : Sql) : params (.func n :: s) = params s := rfl

/-- A table, in a namespace unless its name is empty. -/
def table (namespace? : Option String) (name : String) : Sql :=
  match namespace? with
  | some ns => if ns = "" then [.ident name] else [.ident ns, .token .DOT, .ident name]
  | none => [.ident name]

@[simp] theorem params_table (namespace? : Option String) (name : String) :
    params (table namespace? name) = [] := by
  unfold table
  split
  · split <;> rfl
  · rfl

/-- A fragment in parentheses. -/
def parens (s : Sql) : Sql := .token .LPAREN :: s ++ [.token .RPAREN]

@[simp] theorem params_parens (s : Sql) : params (parens s) = params s := by
  simp only [parens, params_append, params_token, params_nil, List.append_nil]

/-- A call of a function. -/
def call (name : String) (arguments : Sql) : Sql := .func name :: parens arguments

@[simp] theorem params_call (name : String) (s : Sql) : params (call name s) = params s := by
  simp only [call, params_func, params_parens]

/-- The fragments with a token between each two. -/
def join (separator : Token) : List Sql → Sql
  | [] => []
  | [s] => s
  | s :: ss => s ++ .token separator :: join separator ss

theorem params_join (separator : Token) (fragments : List Sql) :
    params (join separator fragments) = fragments.flatMap params := by
  induction fragments with
  | nil => rfl
  | cons s rest ih =>
    cases rest with
    | nil => simp [join]
    | cons t rest => simp [join, ih]

/-- A fragment under another name. -/
def aliased (s : Sql) (name : String) : Sql := s ++ [.token .AS, .ident name]

/-- Values with commas between them. -/
def paramList (vs : List Value) : Sql := join .COMMA (vs.map fun v => [.param v])

@[simp] theorem params_paramList (vs : List Value) : params (paramList vs) = vs := by
  simp [paramList, params_join, List.flatMap_map]

/-- Names with commas between them. -/
def identList (names : List String) : Sql := join .COMMA (names.map fun n => [.ident n])

@[simp] theorem params_identList (names : List String) : params (identList names) = [] := by
  simp [identList, params_join, List.flatMap_map]

/-- Assignments of values to columns. -/
def assignments (pairs : List (String × Value)) : Sql :=
  join .COMMA (pairs.map fun (column, v) => [.ident column, .token .EQ, .param v])

@[simp] theorem params_assignments (pairs : List (String × Value)) :
    params (assignments pairs) = pairs.map (·.2) := by
  rw [assignments, params_join, List.flatMap_map, List.map_eq_flatMap]
  rfl

end Sql

end ResourceEngine
