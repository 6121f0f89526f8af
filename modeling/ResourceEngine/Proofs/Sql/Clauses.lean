import ResourceEngine.Sql.Basic

/-!
# Clauses

How the parts of a statement are found in it. A word such as `FROM` begins a clause, and the next
such word ends it; after some of these words stands the name of a table. `Uses` says which tokens a
fragment has, so that a fragment without such words can be passed over.
-/

namespace ResourceEngine.Sql

/-! ### Tokens of fragments -/

/-- The chunk, if it is a token, is one of these. -/
def Chunk.uses (allowed : Token → Bool) : Chunk → Bool
  | .token t => allowed t
  | _ => true

/-- Every token in the fragment is one of these. -/
def Uses (allowed : Token → Bool) (s : Sql) : Prop := ∀ c ∈ s, c.uses allowed = true

section

variable {allowed allowed' : Token → Bool} {s t : Sql}

@[simp] theorem uses_nil : Uses allowed [] := List.forall_mem_nil _

@[simp] theorem uses_cons {c : Chunk} :
    Uses allowed (c :: s) ↔ c.uses allowed = true ∧ Uses allowed s := List.forall_mem_cons

@[simp] theorem uses_append : Uses allowed (s ++ t) ↔ Uses allowed s ∧ Uses allowed t :=
  List.forall_mem_append

@[simp] theorem Chunk.uses_token (t : Token) : (Chunk.token t).uses allowed = allowed t := rfl

@[simp] theorem Chunk.uses_ident (name : String) : (Chunk.ident name).uses allowed = true := rfl

@[simp] theorem Chunk.uses_raw (text : String) : (Chunk.raw text).uses allowed = true := rfl

@[simp] theorem Chunk.uses_func (name : String) : (Chunk.func name).uses allowed = true := rfl

@[simp] theorem Chunk.uses_number (n : Int64) : (Chunk.number n).uses allowed = true := rfl

@[simp] theorem Chunk.uses_param (v : Value) : (Chunk.param v).uses allowed = true := rfl

theorem Uses.mono (hs : Uses allowed s) (h : ∀ t, allowed t = true → allowed' t = true) :
    Uses allowed' s := by
  intro c hc
  cases c with
  | token t => exact h t (hs _ hc)
  | _ => rfl

/-- A token that is not allowed is not in the fragment. -/
theorem Uses.without {t : Token} (hs : Uses allowed s) (ht : allowed t = false) :
    Uses (· != t) s := by
  refine hs.mono fun u hu => bne_iff_ne.2 ?_
  rintro rfl
  exact Bool.false_ne_true (ht.symm.trans hu)

/-- A fragment without a token is passed over in search of it. -/
theorem ne_of_uses {t : Token} (hs : Uses (· != t) s) : ∀ c ∈ s, (c != .token t) = true := by
  intro c hc
  rw [bne_iff_ne]
  rintro rfl
  exact bne_iff_ne.1 (hs _ hc) rfl

theorem uses_parens (hl : allowed .LPAREN = true) (hr : allowed .RPAREN = true)
    (hs : Uses allowed s) : Uses allowed (parens s) := by
  simp [parens, hl, hr, hs]

theorem uses_call (hl : allowed .LPAREN = true) (hr : allowed .RPAREN = true) (name : String)
    (hs : Uses allowed s) : Uses allowed (call name s) :=
  uses_cons.2 ⟨rfl, uses_parens hl hr hs⟩

theorem uses_join {separator : Token} (hseparator : allowed separator = true)
    {fragments : List Sql} (h : ∀ s ∈ fragments, Uses allowed s) :
    Uses allowed (join separator fragments) := by
  induction fragments with
  | nil => exact uses_nil
  | cons s rest ih =>
    rw [List.forall_mem_cons] at h
    cases rest with
    | nil => exact h.1
    | cons t rest => exact uses_append.2 ⟨h.1, uses_cons.2 ⟨hseparator, ih h.2⟩⟩

theorem uses_paramList (hcomma : allowed .COMMA = true) (vs : List Value) :
    Uses allowed (paramList vs) := by
  refine uses_join hcomma fun s hs => ?_
  obtain ⟨v, -, rfl⟩ := List.mem_map.1 hs
  simp

theorem uses_identList (hcomma : allowed .COMMA = true) (names : List String) :
    Uses allowed (identList names) := by
  refine uses_join hcomma fun s hs => ?_
  obtain ⟨name, -, rfl⟩ := List.mem_map.1 hs
  simp

end

/-! ### Tables -/

/-- The name of a table stands after the token. -/
def Token.namesTable : Token → Bool
  | .FROM | .INTO | .UPDATE => true
  | _ => false

/-- The table that is named at the start of a fragment, with its namespace if it is in one. -/
def tableAt : Sql → Option (Option String × String)
  | .ident space :: .token .DOT :: .ident name :: _ => some (some space, name)
  | .ident name :: _ => some (none, name)
  | _ => none

/-- The tables that a statement names, in order. -/
def tables : Sql → List (Option String × String)
  | [] => []
  | .token t :: rest => (if t.namesTable then (tableAt rest).toList else []) ++ tables rest
  | _ :: rest => tables rest

/-- The token begins a clause of a selection. -/
def Token.beginsClause : Token → Bool
  | .FROM | .WHERE | .ORDER | .LIMIT | .OFFSET => true
  | _ => false

def Chunk.beginsClause : Chunk → Bool
  | .token t => t.beginsClause
  | _ => false

/-- The clause of a selection that begins with the token, as far as the next clause. -/
def clause? (t : Token) : Sql → Option Sql
  | [] => none
  | .token u :: rest =>
    if u = t then some (rest.takeWhile (!·.beginsClause)) else clause? t rest
  | _ :: rest => clause? t rest

section

variable {t : Token} {s rest : Sql}

/-- A fragment without the token is passed over. -/
theorem clause?_append (hs : Uses (· != t) s) (rest : Sql) :
    clause? t (s ++ rest) = clause? t rest := by
  induction s with
  | nil => rfl
  | cons c s ih =>
    rw [uses_cons] at hs
    cases c with
    | token u =>
      have hne : u ≠ t := by simpa using hs.1
      simp [clause?, hne, ih hs.2]
    | _ => exact ih hs.2

theorem clause?_of_uses (hs : Uses (· != t) s) : clause? t s = none := by
  have hclause := clause?_append hs []
  rwa [List.append_nil] at hclause

/-- A clause ends where the next one begins. -/
theorem clause?_token (t : Token) (hs : Uses (!·.beginsClause) s)
    (hrest : ∀ c, rest.head? = some c → c.beginsClause = true) :
    clause? t (.token t :: (s ++ rest)) = some s := by
  have hinside : ∀ c ∈ s, (!c.beginsClause) = true := by
    intro c hc
    have huses := hs c hc
    cases c with
    | token u => exact huses
    | _ => rfl
  have hafter : rest.takeWhile (!·.beginsClause) = [] := by
    cases rest with
    | nil => rfl
    | cons c rest => simp [hrest c rfl]
  simp [clause?, List.takeWhile_append_of_pos hinside, hafter]

end

end ResourceEngine.Sql
