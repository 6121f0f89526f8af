import ResourceEngine.Proofs.Sql.Scanning

/-!
# Outlines of fragments

What of a fragment stands in its text. The outline of a fragment has nothing in the place of each
value; fragments of one outline have one text and bind equally many values. `IsFrom` says that every
name in a fragment is one of a list and that nothing in it is raw text. Both go through the ways in
which fragments are put together.
-/

namespace ResourceEngine.Sql

/-! ### Values left out -/

/-- The chunk without its value. -/
def Chunk.blank : Chunk → Chunk
  | .param _ => .param .null
  | c => c

/-- The fragment without its values. -/
def outline (s : Sql) : Sql := s.map Chunk.blank

@[simp] theorem outline_nil : outline [] = [] := rfl

@[simp] theorem outline_cons (c : Chunk) (s : Sql) : outline (c :: s) = c.blank :: outline s := rfl

@[simp] theorem outline_append (s t : Sql) : outline (s ++ t) = outline s ++ outline t :=
  List.map_append

@[simp] theorem blank_param (v : Value) : (Chunk.param v).blank = .param .null := rfl

@[simp] theorem outline_parens (s : Sql) : outline (parens s) = parens (outline s) := by
  simp [parens, Chunk.blank]

@[simp] theorem outline_call (name : String) (s : Sql) :
    outline (call name s) = call name (outline s) := by
  simp [call, Chunk.blank]

theorem outline_join (separator : Token) (fragments : List Sql) :
    outline (join separator fragments) = join separator (fragments.map outline) := by
  induction fragments with
  | nil => rfl
  | cons s rest ih =>
    cases rest with
    | nil => rfl
    | cons t rest => simp [join, ih, Chunk.blank]

theorem outline_join_congr {separator : Token} {ss ts : List Sql}
    (h : ss.map outline = ts.map outline) :
    outline (join separator ss) = outline (join separator ts) := by
  rw [outline_join, outline_join, h]

theorem outline_paramList (vs : List Value) :
    outline (paramList vs) = paramList (List.replicate vs.length .null) := by
  rw [paramList, paramList, outline_join, List.map_map, List.map_replicate, ← List.map_const']
  rfl

theorem outline_assignments (pairs : List (String × Value)) :
    outline (assignments pairs) = assignments (pairs.map fun p => (p.1, .null)) := by
  rw [assignments, assignments, outline_join, List.map_map, List.map_map]
  rfl

theorem spaced_blank (c next : Chunk) : spaced c.blank next.blank = spaced c next := by
  cases c with
  | token t =>
    cases next with
    | param v => cases t <;> rfl
    | _ => rfl
  | param v =>
    cases next with
    | token t => cases t <;> rfl
    | _ => rfl
  | _ => cases next <;> rfl

theorem text_blank (d : Dialect) (n : Nat) (c : Chunk) : c.blank.text d n = c.text d n := by
  cases c <;> rfl

theorem paramsAfter_blank (n : Nat) (c : Chunk) : c.blank.paramsAfter n = c.paramsAfter n := by
  cases c <;> rfl

theorem pieces_outline (d : Dialect) (n : Nat) (s : Sql) :
    pieces d n (outline s) = pieces d n s := by
  fun_induction pieces d n s with
  | case1 n => rfl
  | case2 n c => simp [pieces, text_blank]
  | case3 n c next rest h ih =>
    rw [outline_cons] at ih
    rw [outline_cons, outline_cons, pieces, spaced_blank, if_pos h, text_blank, paramsAfter_blank,
      ih]
  | case4 n c next rest h ih =>
    rw [outline_cons] at ih
    rw [outline_cons, outline_cons, pieces, spaced_blank, if_neg h, text_blank, paramsAfter_blank,
      ih]

theorem length_params_outline (s : Sql) : (params (outline s)).length = (params s).length := by
  induction s with
  | nil => rfl
  | cons c s ih =>
    cases c with
    | param v => exact congrArg (· + 1) ih
    | _ => exact ih

/-- Fragments that differ in values have the same text, and bind equally many. -/
theorem build_eq_of_outline {s t : Sql} (h : outline s = outline t) (d : Dialect) :
    (build d s).text = (build d t).text ∧
      (build d s).params.length = (build d t).params.length := by
  constructor
  · show render d s = render d t
    rw [render, render, ← pieces_outline d 0 s, h, pieces_outline]
  · show (params s).length = (params t).length
    rw [← length_params_outline s, h, length_params_outline]

/-! ### Names and raw text -/

/-- The chunk is no raw text, a name in it is one of these, and a function in it has a word for a
name. -/
def Chunk.IsFrom (names : List String) : Chunk → Prop
  | .ident name => name ∈ names
  | .raw _ => False
  | .func name => isWordText name = true
  | .token _ | .number _ | .param _ => True

/-- The fragment has no raw text and no names but these. -/
def IsFrom (names : List String) (s : Sql) : Prop := ∀ c ∈ s, c.IsFrom names

section

variable {names : List String}

theorem Chunk.IsFrom.isPlain {c : Chunk} (hc : c.IsFrom names) : c.isPlain = true := by
  cases c with
  | raw text => cases hc
  | func name => exact hc
  | _ => rfl

@[simp] theorem isFrom_nil : IsFrom names [] := List.forall_mem_nil _

@[simp] theorem isFrom_cons {c : Chunk} {s : Sql} :
    IsFrom names (c :: s) ↔ c.IsFrom names ∧ IsFrom names s := List.forall_mem_cons

@[simp] theorem isFrom_append {s t : Sql} :
    IsFrom names (s ++ t) ↔ IsFrom names s ∧ IsFrom names t := List.forall_mem_append

@[simp] theorem Chunk.isFrom_token (t : Token) : (Chunk.token t).IsFrom names := trivial

@[simp] theorem Chunk.isFrom_param (v : Value) : (Chunk.param v).IsFrom names := trivial

@[simp] theorem Chunk.isFrom_number (i : Int64) : (Chunk.number i).IsFrom names := trivial

@[simp] theorem Chunk.isFrom_ident {name : String} :
    (Chunk.ident name).IsFrom names ↔ name ∈ names := Iff.rfl

theorem IsFrom.mono {more : List String} (hsub : names ⊆ more) {s : Sql} (hs : IsFrom names s) :
    IsFrom more s := by
  intro c hc
  cases c with
  | ident name => exact hsub (hs _ hc)
  | _ => exact hs _ hc

@[simp] theorem isFrom_parens {s : Sql} : IsFrom names (parens s) ↔ IsFrom names s := by
  simp [parens]

theorem isFrom_call {name : String} (hname : isWordText name = true) {s : Sql} :
    IsFrom names (call name s) ↔ IsFrom names s := by
  simp [call, Chunk.IsFrom, hname]

theorem isFrom_join {separator : Token} {fragments : List Sql}
    (h : ∀ s ∈ fragments, IsFrom names s) : IsFrom names (join separator fragments) := by
  induction fragments with
  | nil => exact isFrom_nil
  | cons s rest ih =>
    rw [List.forall_mem_cons] at h
    cases rest with
    | nil => exact h.1
    | cons t rest => exact isFrom_append.2 ⟨h.1, isFrom_cons.2 ⟨trivial, ih h.2⟩⟩

theorem isFrom_paramList (vs : List Value) : IsFrom names (paramList vs) := by
  refine isFrom_join fun s hs => ?_
  obtain ⟨v, -, rfl⟩ := List.mem_map.1 hs
  simp

theorem isFrom_identList {columns : List String} (h : columns ⊆ names) :
    IsFrom names (identList columns) := by
  refine isFrom_join fun s hs => ?_
  obtain ⟨name, hname, rfl⟩ := List.mem_map.1 hs
  simpa using h hname

theorem isFrom_assignments {pairs : List (String × Value)} (h : ∀ p ∈ pairs, p.1 ∈ names) :
    IsFrom names (assignments pairs) := by
  refine isFrom_join fun s hs => ?_
  obtain ⟨p, hp, rfl⟩ := List.mem_map.1 hs
  simpa using h p hp

end

end ResourceEngine.Sql
