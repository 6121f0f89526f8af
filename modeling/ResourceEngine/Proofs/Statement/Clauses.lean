import ResourceEngine.Proofs.Statement.StoredRow

/-!
# The clauses of statements

What stands where in a statement for a target. Each one names a single table, that of the target in
its namespace, whatever the values and the condition are.
-/

namespace ResourceEngine.Target

open Sql

variable {t : Target}

/-! ### Tokens -/

theorem uses_columns {allowed : Token → Bool} (hcomma : allowed .COMMA = true)
    (projection : List Nat) : Uses allowed (t.columns projection) :=
  uses_identList hcomma _

/-- The clause of a filter is empty, or it is the word and a condition. -/
theorem whereClause_cases {filter : Option Filter} {sql : Sql}
    (h : t.whereClause filter = .ok sql) :
    sql = [] ∨ ∃ condition, sql = .token .WHERE :: condition ∧
      Uses Filter.isConditional condition := by
  cases filter with
  | none =>
    cases h
    exact .inl rfl
  | some f =>
    obtain ⟨part, hpart, h⟩ := Filter.exists_of_bind h
    cases part with
    | none =>
      cases h
      exact .inl rfl
    | some condition =>
      cases h
      exact .inr ⟨condition, rfl, (Filter.conditional_lower hpart).uses⟩

/-- Besides its first word, the clause of a filter has the tokens of conditions. -/
theorem uses_whereClause {filter : Option Filter} {sql : Sql}
    (h : t.whereClause filter = .ok sql) :
    Uses (fun u => u == .WHERE || Filter.isConditional u) sql := by
  obtain rfl | ⟨condition, rfl, hcondition⟩ := whereClause_cases h
  · exact uses_nil
  · exact uses_cons.2 ⟨rfl, hcondition.mono fun u hu => by simp [hu]⟩

theorem uses_orderBy {sort : List SortTerm} {sql : Sql} (h : t.orderBy sort = .ok sql) :
    Uses (fun u => u == .ORDER || u == .BY || u == .ASC || u == .DESC || u == .COMMA) sql := by
  cases sort with
  | nil =>
    cases h
    exact uses_nil
  | cons s sort =>
    obtain ⟨terms, hterms, h⟩ := Filter.exists_of_bind h
    cases h
    refine uses_cons.2 ⟨rfl, uses_cons.2 ⟨rfl, uses_join rfl ?_⟩⟩
    refine forall_of_mapM (fun s term hterm => ?_) hterms
    unfold sortTerm at hterm
    split_ifs at hterm <;> cases hterm <;> simp

theorem uses_paginate (d : Dialect) (offset limit : UInt64) :
    Uses (fun u => u == .LIMIT || u == .OFFSET) (paginate d offset limit) := by
  unfold paginate literal
  split_ifs <;> simp

/-! ### Tables -/

/-- Before its clauses a selection has no token but these. -/
def isLeading (u : Token) : Bool :=
  u == .SELECT || u == .FROM || u == .DOT || u == .COMMA || u == .STAR || u == .LPAREN ||
    u == .RPAREN

theorem uses_table {allowed : Token → Bool} (hdot : allowed .DOT = true) (t : Target) :
    Uses allowed t.table := by
  unfold Target.table Sql.table
  split
  · split_ifs <;> simp [hdot]
  · simp

theorem uses_selectFrom {columns : Sql} (hcolumns : Uses isLeading columns) :
    Uses isLeading (t.selectFrom columns) :=
  uses_cons.2 ⟨rfl, uses_append.2 ⟨hcolumns, uses_cons.2 ⟨rfl, uses_table rfl t⟩⟩⟩

theorem uses_selected (t : Target) (projection : List Nat) :
    Uses isLeading (t.selectFrom (t.columns projection)) :=
  uses_selectFrom (uses_columns rfl projection)

theorem uses_counted (t : Target) : Uses isLeading (t.selectFrom (call "COUNT" [.token .STAR])) :=
  uses_selectFrom (uses_call rfl rfl "COUNT" (uses_cons.2 ⟨rfl, uses_nil⟩))

section

variable {filter : Option Filter} {w : Window} {projection : List Nat} {p : PageSelection}

/-- The statements of a page, with the clauses that they are made of. -/
structure Paged (t : Target) (projection : List Nat) (filter : Option Filter) (w : Window)
    (p : PageSelection) (condition order : Sql) : Prop where
  lowered : t.whereClause filter = .ok condition
  sorted : t.orderBy w.sort = .ok order
  select : p.select = t.selectFrom (t.columns projection) ++
    (condition ++ (order ++ paginate t.dialect w.offset w.limit))
  count : p.count = t.selectFrom (call "COUNT" [.token .STAR]) ++ condition

/-- The two statements of a page are made of the same condition. -/
theorem exists_paged_of_page (h : t.page projection filter w = .ok p) :
    ∃ condition order, t.Paged projection filter w p condition order := by
  obtain ⟨hselect, hcount, -⟩ := select_and_count_of_page h
  obtain ⟨condition, hcondition, hselect⟩ := Filter.exists_of_bind hselect
  obtain ⟨order, horder, hselect⟩ := Filter.exists_of_bind hselect
  obtain ⟨condition', hcondition', hcount⟩ := Filter.exists_of_bind hcount
  obtain rfl := Except.ok.inj (hcondition.symm.trans hcondition')
  exact ⟨condition, order, hcondition, horder, by simpa using (Except.ok.inj hselect).symm,
    (Except.ok.inj hcount).symm⟩

variable {condition order : Sql}

/-- What stands before the clauses of the window has none of their words. -/
theorem Paged.clause?_window (h : t.Paged projection filter w p condition order) {u : Token}
    (hu : u = .LIMIT ∨ u = .OFFSET) :
    clause? u p.select = clause? u (paginate t.dialect w.offset w.limit) := by
  have hleading : isLeading u = false := by rcases hu with rfl | rfl <;> rfl
  have hcondition : (u == .WHERE || Filter.isConditional u) = false := by
    rcases hu with rfl | rfl <;> rfl
  have horder : (u == .ORDER || u == .BY || u == .ASC || u == .DESC || u == .COMMA) = false := by
    rcases hu with rfl | rfl <;> rfl
  rw [h.select, clause?_append ((t.uses_selected projection).without hleading),
    clause?_append ((uses_whereClause h.lowered).without hcondition),
    clause?_append ((uses_orderBy h.sorted).without horder)]

/-- A limit is written unless it is zero, and an offset unless it is zero. An offset alone has to
follow a limit in one of the dialects, which is then one that limits nothing. -/
theorem clause?_paginate (d : Dialect) (offset limit : UInt64) :
    clause? .LIMIT (paginate d offset limit) =
        (if limit = 0 then if d = .sqlite ∧ offset ≠ 0 then some [.number (-1)] else none
        else some [literal limit]) ∧
      clause? .OFFSET (paginate d offset limit) =
        if offset = 0 then none else some [literal offset] := by
  unfold paginate
  split_ifs <;> simp [clause?, literal, List.takeWhile, Chunk.beginsClause, Token.beginsClause]

/-- What follows the condition of a selection is nothing or another clause. -/
theorem beginsClause_of_head? (horder : t.orderBy w.sort = .ok order) {c : Chunk}
    (hc : (order ++ paginate t.dialect w.offset w.limit).head? = some c) :
    c.beginsClause = true := by
  cases hsort : w.sort with
  | nil =>
    rw [hsort] at horder
    cases horder
    unfold paginate at hc
    split_ifs at hc <;> cases hc <;> rfl
  | cons s sort =>
    rw [hsort] at horder
    obtain ⟨terms, -, horder⟩ := Filter.exists_of_bind horder
    cases horder
    cases hc
    rfl

/-- Both statements have the same condition. -/
theorem Paged.clause?_where (h : t.Paged projection filter w p condition order) :
    clause? .WHERE p.count = clause? .WHERE p.select := by
  have hwindow : clause? .WHERE (order ++ paginate t.dialect w.offset w.limit) = none :=
    clause?_of_uses (uses_append.2
      ⟨(uses_orderBy h.sorted).without rfl, (uses_paginate _ _ _).without rfl⟩)
  rw [h.select, h.count, clause?_append (t.uses_counted.without rfl),
    clause?_append ((t.uses_selected projection).without rfl)]
  -- Without a condition neither has the clause. With one, it ends where the next clause begins.
  obtain rfl | ⟨c, rfl, hc⟩ := whereClause_cases h.lowered
  · rw [List.nil_append, hwindow]
    rfl
  · have hinside : Uses (!·.beginsClause) c := hc.mono fun v hv => by
      cases v <;> first | rfl | exact nomatch hv
    have hcount : clause? .WHERE (.token .WHERE :: (c ++ [])) = some c :=
      clause?_token .WHERE hinside fun _ hnone => nomatch hnone
    rw [List.append_nil] at hcount
    rw [hcount, List.cons_append, clause?_token .WHERE hinside]
    exact fun c => beginsClause_of_head? h.sorted

theorem params_orderBy {sort : List SortTerm} {sql : Sql} (h : t.orderBy sort = .ok sql) :
    params sql = [] := by
  cases sort with
  | nil =>
    cases h
    rfl
  | cons s sort =>
    obtain ⟨terms, hterms, h⟩ := Filter.exists_of_bind h
    cases h
    rw [params_token, params_token, params_join, List.flatMap_eq_nil_iff]
    refine forall_of_mapM (fun s term hterm => ?_) hterms
    unfold sortTerm at hterm
    split_ifs at hterm <;> cases hterm <;> rfl

theorem params_paginate (d : Dialect) (offset limit : UInt64) :
    params (paginate d offset limit) = [] := by
  unfold paginate literal
  split_ifs <;> rfl

/-- Both statements bind the same values: those of the condition. -/
theorem Paged.params (h : t.Paged projection filter w p condition order) :
    params p.count = params p.select := by
  rw [h.select, h.count]
  simp [selectFrom, columns, table, params_orderBy h.sorted, params_paginate]

end

end ResourceEngine.Target
