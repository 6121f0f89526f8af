import ResourceEngine.Proofs.Filter.Acceptance

/-!
# The dialects of a filter

SQLite has no operator for a comparison that ignores case and none for `SIMILAR TO`; a filter calls
functions for them instead. `Sql.inPostgresql` goes through a fragment and writes the operators in
place of the calls. The condition of a filter for PostgreSQL is the one for SQLite written so, with
the same values in the same order, and what is refused for one dialect is refused for the other.
-/

namespace ResourceEngine

namespace Sql

/-- The number of parentheses that are open after a chunk. -/
def nesting (depth : Nat) : Chunk → Nat
  | .token .LPAREN => depth + 1
  | .token .RPAREN => depth - 1
  | _ => depth

/-- The fragment up to the parenthesis that closes the one in front of it, and what stands after
that; `depth` more parentheses are open. -/
def enclosed? (depth : Nat) : Sql → Option (Sql × Sql)
  | [] => none
  | c :: s =>
    if c = .token .RPAREN ∧ depth = 0 then some ([], s)
    else (enclosed? (nesting depth c) s).map fun (inside, after) => (c :: inside, after)

/-- The arguments of the call of a function that the fragment starts with, and what stands after
the call. -/
def called? (name : String) : Sql → Option (Sql × Sql)
  | .func f :: .token .LPAREN :: s => if f = name then enclosed? 0 s else none
  | _ => none

/-- The fragment starts with `NOT`, and what stands after it. -/
def denied : Sql → Bool × Sql
  | .token .NOT :: s => (true, s)
  | s => (false, s)

/-- `x ILIKE y` for `lower(x) LIKE lower(y)`, denied or not, at the start of a fragment, and what
stands after it. -/
def caseless? (s : Sql) : Option (Sql × Sql) :=
  match called? "lower" s with
  | none => none
  | some (x, s) =>
    match denied s with
    | (negated, .token .LIKE :: s) =>
      (called? "lower" s).map fun (y, after) => (Filter.infixed negated x .ILIKE y, after)
    | _ => none

/-- `x SIMILAR TO p` for `similar_to(x, p)`, denied or not, at the start of a fragment, and what
stands after it. -/
def similarity? (s : Sql) : Option (Sql × Sql) :=
  match denied s with
  | (negated, s) =>
    match called? "similar_to" s with
    | some ([x, .token .COMMA, p], after) =>
      some (Filter.infixed negated [x] .SIMILAR [.token .TO, p], after)
    | _ => none

/-- The condition with an operator for the one without at the start of a fragment, if there is one,
and what stands after it. -/
def operator? (s : Sql) : Option (Sql × Sql) := caseless? s <|> similarity? s

/-! ### What is left after a step -/

/-- Something is left out, the closing parenthesis at least. -/
theorem length_enclosed? {depth : Nat} {s inside after : Sql}
    (h : enclosed? depth s = some (inside, after)) : after.length < s.length := by
  induction s generalizing depth inside with
  | nil => exact nomatch h
  | cons c s ih =>
    rw [enclosed?] at h
    split at h
    · cases h
      exact Nat.lt_succ_self _
    · obtain ⟨⟨inside, after⟩, hs, heq⟩ := Option.map_eq_some_iff.1 h
      cases heq
      exact Nat.lt_succ_of_lt (ih hs)

theorem length_called? {name : String} {s arguments after : Sql}
    (h : called? name s = some (arguments, after)) : after.length < s.length := by
  unfold called? at h
  split at h
  · split at h
    · have := length_enclosed? h
      simp only [List.length_cons]
      omega
    · exact nomatch h
  · exact nomatch h

theorem length_denied (s : Sql) : (denied s).2.length ≤ s.length := by
  unfold denied
  split
  · exact Nat.le_succ _
  · exact Nat.le_refl _

theorem length_caseless? {s condition after : Sql} (h : caseless? s = some (condition, after)) :
    after.length < s.length := by
  unfold caseless? at h
  split at h
  · exact nomatch h
  next x t ht =>
    have hx := length_called? ht
    split at h
    · next negated u hu =>
      have hnot := length_denied t
      obtain ⟨⟨y, after⟩, hy, heq⟩ := Option.map_eq_some_iff.1 h
      cases heq
      have hy := length_called? hy
      simp only [hu, List.length_cons] at hnot
      omega
    · exact nomatch h

theorem length_similarity? {s condition after : Sql}
    (h : similarity? s = some (condition, after)) : after.length < s.length := by
  unfold similarity? at h
  split at h
  next negated t ht =>
    have hnot := length_denied s
    rw [ht] at hnot
    split at h
    · next hcall =>
      cases h
      exact Nat.lt_of_lt_of_le (length_called? hcall) hnot
    · exact nomatch h

/-- A condition that is written otherwise is not empty, so what is left is shorter. -/
theorem length_operator? {s condition after : Sql} (h : operator? s = some (condition, after)) :
    after.length < s.length := by
  rw [operator?, Option.orElse_eq_orElse, Option.orElse_eq_or, Option.or_eq_some_iff] at h
  obtain h | ⟨-, h⟩ := h
  · exact length_caseless? h
  · exact length_similarity? h

/-- The fragment with the operators of PostgreSQL in place of the calls of functions that SQLite has
for them. -/
def inPostgresql : Sql → Sql
  | [] => []
  | c :: s =>
    match _h : operator? (c :: s) with
    | some (condition, after) => condition ++ inPostgresql after
    | none => c :: inPostgresql s
termination_by s => s.length
decreasing_by
  · exact length_operator? _h
  · exact Nat.lt_succ_self _

/-! ### Chunk by chunk -/

@[simp] theorem inPostgresql_nil : inPostgresql [] = [] := by
  rw [inPostgresql]

/-- Where a condition starts that is written otherwise, its operator takes its place. -/
theorem inPostgresql_of_operator? {s condition after : Sql}
    (h : operator? s = some (condition, after)) :
    inPostgresql s = condition ++ inPostgresql after := by
  cases s with
  | nil => exact nomatch length_operator? h
  | cons c s =>
    rw [inPostgresql]
    split
    · next h' =>
      cases h.symm.trans h'
      rfl
    · next h' => cases h.symm.trans h'

/-- Where none starts, a chunk stays. -/
theorem inPostgresql_cons {c : Chunk} {s : Sql} (h : operator? (c :: s) = none) :
    inPostgresql (c :: s) = c :: inPostgresql s := by
  rw [inPostgresql]
  split
  · next h' => cases h.symm.trans h'
  · rfl

/-- No condition that is written otherwise starts with the chunk. -/
def Chunk.isInert : Chunk → Bool
  | .token .NOT | .func _ => false
  | _ => true

theorem Chunk.isInert_token {t : Token} (h : t ≠ .NOT) : (Chunk.token t).isInert = true := by
  cases t with
  | NOT => exact absurd rfl h
  | _ => rfl

/-- A chunk that no condition starts with calls no function. -/
theorem called?_of_isInert {c : Chunk} (hc : c.isInert = true) (name : String) (s : Sql) :
    called? name (c :: s) = none := by
  cases c with
  | func f => exact nomatch hc
  | _ => rfl

theorem denied_of_isInert {c : Chunk} (hc : c.isInert = true) (s : Sql) :
    denied (c :: s) = (false, c :: s) := by
  unfold denied
  split
  · next heq =>
    cases heq
    exact nomatch hc
  · rfl

/-- A chunk that no condition starts with stays, whatever comes after it. -/
theorem operator?_of_isInert {c : Chunk} (hc : c.isInert = true) (s : Sql) :
    operator? (c :: s) = none := by
  rw [operator?, caseless?, called?_of_isInert hc, similarity?, denied_of_isInert hc]
  simp only [called?_of_isInert hc]
  rfl

/-- A `NOT` before such a chunk stays too. -/
theorem operator?_not {c : Chunk} (hc : c.isInert = true) (s : Sql) :
    operator? (.token .NOT :: c :: s) = none := by
  have hcall : called? "lower" (.token .NOT :: c :: s) = none := rfl
  rw [operator?, caseless?, hcall, similarity?, denied]
  simp only [called?_of_isInert hc]
  rfl

/-! ### Calls -/

/-- The fragment closes each parenthesis that it opens, and no other. -/
def IsClosed (a : Sql) : Prop :=
  ∀ depth rest,
    enclosed? depth (a ++ rest) =
      (enclosed? depth rest).map fun (inside, after) => (a ++ inside, after)

/-- A chunk that is no parenthesis is closed. -/
theorem isClosed_single {c : Chunk} (hl : c ≠ .token .LPAREN) (hr : c ≠ .token .RPAREN) :
    IsClosed [c] := by
  intro depth rest
  have hnesting : nesting depth c = depth := by
    unfold nesting
    split
    · exact absurd rfl hl
    · exact absurd rfl hr
    · rfl
  rw [List.singleton_append, enclosed?, if_neg (fun h => hr h.1), hnesting]
  rfl

/-- A call with closed arguments is closed. -/
theorem IsClosed.call {a : Sql} (ha : IsClosed a) (name : String) : IsClosed (call name a) := by
  intro depth rest
  simp only [Sql.call, parens, List.cons_append, List.append_assoc, List.nil_append, enclosed?,
    nesting, ha (depth + 1)]
  simp [Option.map_map, Function.comp_def]

/-- The call of a function on closed arguments is found, and so is what stands after it. -/
theorem called?_call {a : Sql} (ha : IsClosed a) (name : String) (rest : Sql) :
    called? name (call name a ++ rest) = some (a, rest) := by
  simp [called?, call, parens, ha 0, enclosed?]

/-! ### Fragments and what they are written as -/

/-- Wherever the first fragment stands, the second is written in its place, and it binds the same
values. -/
structure WrittenAs (a b : Sql) : Prop where
  onward : ∀ rest, inPostgresql (a ++ rest) = b ++ inPostgresql rest
  params_eq : params b = params a

namespace WrittenAs

theorem inPostgresql_eq {a b : Sql} (h : WrittenAs a b) : inPostgresql a = b := by
  simpa using h.onward []

theorem nil : WrittenAs [] [] := ⟨fun _ => rfl, rfl⟩

/-- What is written for two fragments is written for them one after the other. -/
theorem append {a a' b b' : Sql} (ha : WrittenAs a a') (hb : WrittenAs b b') :
    WrittenAs (a ++ b) (a' ++ b') where
  onward rest := by rw [List.append_assoc, ha.onward, hb.onward, List.append_assoc]
  params_eq := by rw [params_append, params_append, ha.params_eq, hb.params_eq]

/-- A chunk that no condition starts with is written as it is. -/
theorem single {c : Chunk} (hc : c.isInert = true) : WrittenAs [c] [c] where
  onward rest := inPostgresql_cons (operator?_of_isInert hc rest)
  params_eq := rfl

theorem cons {c : Chunk} {a b : Sql} (hc : c.isInert = true) (h : WrittenAs a b) :
    WrittenAs (c :: a) (c :: b) := (single hc).append h

/-- A `NOT` is written as it is before such a chunk. -/
theorem not {c : Chunk} {a b : Sql} (hc : c.isInert = true) (h : WrittenAs (c :: a) b) :
    WrittenAs (.token .NOT :: c :: a) (.token .NOT :: b) where
  onward rest := by
    rw [List.cons_append, List.cons_append, inPostgresql_cons (operator?_not hc _),
      ← List.cons_append, h.onward, List.cons_append]
  params_eq := h.params_eq

theorem parens {a b : Sql} (h : WrittenAs a b) : WrittenAs (parens a) (parens b) :=
  cons rfl (h.append (single rfl))

/-- A separated list is written item by item. -/
theorem join {separator : Token} (hseparator : separator ≠ .NOT) {as bs : List Sql}
    (h : List.Forall₂ WrittenAs as bs) : WrittenAs (join separator as) (join separator bs) := by
  induction h with
  | nil => exact nil
  | cons ha h ih =>
    cases h with
    | nil => exact ha
    | cons hb h => exact ha.append (cons (Chunk.isInert_token hseparator) ih)

theorem paramList (vs : List Value) : WrittenAs (paramList vs) (paramList vs) := by
  refine join (by decide) (List.forall₂_map_left_iff.2 (List.forall₂_map_right_iff.2 ?_))
  exact List.forall₂_same.2 fun v _ => single rfl

/-- A comparison is written operand by operand. -/
theorem infixed (negated : Bool) {a a' b b' : Sql} {operator : Token} (hoperator : operator ≠ .NOT)
    (ha : WrittenAs a a') (hb : WrittenAs b b') :
    WrittenAs (Filter.infixed negated a operator b) (Filter.infixed negated a' operator b') := by
  have hinert := Chunk.isInert_token hoperator
  cases negated with
  | false => exact (ha.append nil).append (cons hinert hb)
  | true =>
    simp only [Filter.infixed, if_true, List.append_assoc, List.singleton_append]
    exact ha.append (not hinert (cons hinert hb))

/-- A comparison that ignores case is written with `ILIKE`, its operands as they are. -/
theorem caseless (negated : Bool) {x y : Sql} (hx : IsClosed x) (hy : IsClosed y) :
    WrittenAs (Filter.caseless .sqlite negated x y) (Filter.caseless .postgresql negated x y) where
  onward rest := by
    refine inPostgresql_of_operator? ?_
    have hcaseless : caseless? (Filter.caseless .sqlite negated x y ++ rest) =
        some (Filter.infixed negated x .ILIKE y, rest) := by
      cases negated <;>
        simp [caseless?, Filter.caseless, Filter.infixed, called?_call hx, called?_call hy, denied]
    rw [operator?, hcaseless]
    rfl
  params_eq := by simp

/-- The call for a pattern with wildcards is written with `SIMILAR TO`. -/
theorem similarity (negated : Bool) (column : String) (pattern : Value) :
    WrittenAs (Filter.similarity .sqlite negated column pattern)
      (Filter.similarity .postgresql negated column pattern) where
  onward rest := by
    refine inPostgresql_of_operator? ?_
    cases negated <;> rfl
  params_eq := by simp

end WrittenAs

end Sql

namespace Filter

open Sql

/-- PostgreSQL has an operator for the predicate that SQLite has not. -/
def Op.isDialectal : Op → Bool
  | .ilike | .notIlike | .unaccentIlike | .notUnaccentIlike | .similar | .notSimilar => true
  | _ => false

/-- A predicate is written for PostgreSQL as the one for SQLite is rewritten. -/
theorem writtenAs_written (f : Field) (op : Op) (vs : List Value) :
    WrittenAs (written .sqlite f op vs) (written .postgresql f op vs) := by
  have hcolumn : WrittenAs [.ident f.name] [.ident f.name] := .single rfl
  have hparam : ∀ v, WrittenAs [.param v] [.param v] := fun v => .single rfl
  have hx : IsClosed [.ident f.name] := isClosed_single (by simp) (by simp)
  have hy : ∀ v, IsClosed [.param v] := fun v => isClosed_single (by simp) (by simp)
  -- Something changes only where the operator ignores case or matches a pattern with wildcards.
  cases op with
  | isNull => exact hcolumn.append (.cons rfl (.single rfl))
  | isNotNull => exact hcolumn.append (.cons rfl (.not rfl (.single rfl)))
  | isIn | notIn =>
    rw [written, written]
    split
    · exact .single rfl
    · exact .infixed _ (by decide) hcolumn (WrittenAs.paramList vs).parens
  | like | notLike => exact .infixed _ (by decide) hcolumn (hparam _)
  | ilike | notIlike => exact .caseless _ hx (hy _)
  | unaccentIlike | notUnaccentIlike => exact .caseless _ (hx.call _) ((hy _).call _)
  | similar | notSimilar => exact .similarity _ f.name _
  | eq | neq | gt | gte | lt | lte => exact hcolumn.append (.cons rfl (hparam _))

/-- A predicate that both dialects have an operator for is written alike. -/
theorem written_eq (d d' : Dialect) (f : Field) {op : Op} (hop : op.isDialectal = false)
    (vs : List Value) : written d f op vs = written d' f op vs := by
  cases op with
  | ilike | notIlike | unaccentIlike | notUnaccentIlike | similar | notSimilar => exact nomatch hop
  | _ => rfl

section Tree

variable {s : Schema} {resource : String}

/-- A group is written part by part, and is empty for both dialects or for none. -/
theorem rel_joinGroup (c : Combinator) {parts parts' : List Sql}
    (h : List.Forall₂ WrittenAs parts parts') :
    Option.Rel WrittenAs (joinGroup c parts) (joinGroup c parts') := by
  cases h with
  | nil => exact .none
  | cons ha h => exact .some (WrittenAs.join (by cases c <;> decide) (.cons ha h)).parens

mutual

/-- The condition of a filter for SQLite is written as the one for PostgreSQL. -/
theorem rel_lower {f : Filter} {part part' : Option Sql}
    (h : lower s resource .sqlite f = .ok part) (h' : lower s resource .postgresql f = .ok part') :
    Option.Rel WrittenAs part part' := by
  cases f with
  | group c children =>
    obtain ⟨parts, hparts, rfl⟩ := lower_group h
    obtain ⟨parts', hparts', rfl⟩ := lower_group h'
    exact rel_joinGroup c (forall₂_lowerAll hparts hparts')
  | predicate attr op operand =>
    obtain ⟨f, sql, hf, hsql, rfl⟩ := lower_predicate h
    obtain ⟨f', sql', hf', hsql', rfl⟩ := lower_predicate h'
    cases hf.symm.trans hf'
    -- The values are the same, for they are taken before the dialect matters.
    obtain ⟨vs, hvs, rfl⟩ := lowerPredicate_eq_ok_iff.1 hsql
    obtain ⟨vs', hvs', rfl⟩ := lowerPredicate_eq_ok_iff.1 hsql'
    cases hvs.symm.trans hvs'
    exact .some (writtenAs_written f op vs)

theorem forall₂_lowerAll {fs : List Filter} {parts parts' : List Sql}
    (h : lowerAll s resource .sqlite fs = .ok parts)
    (h' : lowerAll s resource .postgresql fs = .ok parts') :
    List.Forall₂ WrittenAs parts parts' := by
  cases fs with
  | nil =>
    cases h
    cases h'
    exact .nil
  | cons f fs =>
    obtain ⟨part, rest, hpart, hrest, rfl⟩ := lowerAll_cons h
    obtain ⟨part', rest', hpart', hrest', rfl⟩ := lowerAll_cons h'
    have htail := forall₂_lowerAll hrest hrest'
    cases rel_lower hpart hpart' with
    | none => exact htail
    | some hhead => exact .cons hhead htail

end

mutual

/-- A filter without operators of one dialect alone has the same condition for both. -/
theorem lower_congr (d d' : Dialect) {f : Filter}
    (h : ∀ q ∈ predicates f, q.op.isDialectal = false) :
    lower s resource d f = lower s resource d' f := by
  cases f with
  | group c children =>
    rw [predicates] at h
    rw [lower, lower, lowerAll_congr d d' h]
  | predicate attr op operand =>
    rw [predicates, List.forall_mem_singleton] at h
    rw [lower, lower]
    cases s.field? attr with
    | none => rfl
    | some f => simp only [lowerPredicate_eq, funext (written_eq d d' f h)]

theorem lowerAll_congr (d d' : Dialect) {fs : List Filter}
    (h : ∀ q ∈ predicatesAll fs, q.op.isDialectal = false) :
    lowerAll s resource d fs = lowerAll s resource d' fs := by
  cases fs with
  | nil => rfl
  | cons f fs =>
    rw [predicatesAll, List.forall_mem_append] at h
    rw [lowerAll, lowerAll, lower_congr d d' h.1, lowerAll_congr d d' h.2]

end

end Tree

/-- A filter is lowered for PostgreSQL exactly if it is for SQLite, to nothing in the same cases, and
is refused for the same reason otherwise. The condition for PostgreSQL is the one for SQLite with
operators in place of calls, and binds the same values in the same order; without an operator that
only one of the dialects has, it is the condition for SQLite. -/
theorem lower_postgresql (s : Schema) (resource : String) (f : Filter) :
    ((∃ part, lower s resource .postgresql f = .ok part) ↔
      ∃ part, lower s resource .sqlite f = .ok part) ∧
    (∀ p, lower s resource .postgresql f = .error p ↔ lower s resource .sqlite f = .error p) ∧
    (lower s resource .postgresql f = .ok none ↔ lower s resource .sqlite f = .ok none) ∧
    (∀ sql, lower s resource .sqlite f = .ok (some sql) →
      lower s resource .postgresql f = .ok (some (inPostgresql sql)) ∧
        params (inPostgresql sql) = params sql) ∧
    ((∀ q ∈ predicates f, q.op.isDialectal = false) →
      lower s resource .postgresql f = lower s resource .sqlite f) := by
  have hok : (∃ part, lower s resource .postgresql f = .ok part) ↔
      ∃ part, lower s resource .sqlite f = .ok part := by
    rw [exists_lower_iff, exists_lower_iff]
  refine ⟨hok, fun p => ?_, ⟨fun h => ?_, fun h => ?_⟩, fun sql hsql => ?_, lower_congr _ _⟩
  · rw [lower_eq_error_iff, lower_eq_error_iff]
  · obtain ⟨part, hpart⟩ := hok.1 ⟨_, h⟩
    cases rel_lower hpart h
    exact hpart
  · obtain ⟨part, hpart⟩ := hok.2 ⟨_, h⟩
    cases rel_lower h hpart
    exact hpart
  · obtain ⟨part, hpart⟩ := hok.2 ⟨_, hsql⟩
    cases rel_lower hsql hpart with
    | some hwritten =>
      rw [hwritten.inPostgresql_eq]
      exact ⟨hpart, hwritten.params_eq⟩

/-- A filter with three operators that only one of the dialects has. -/
def patternFilter : Filter :=
  .group .or [.predicate "title" .notIlike (.scalar (.text "a_")),
    .group .and [.predicate "title" .unaccentIlike (.scalar (.text "b%")),
      .predicate "title" .notSimilar (.scalar (.text "c"))]]

/-- The three calls are written as operators, each with its own pattern. -/
theorem lower_postgresql_patternFilter :
    ∃ sql,
      lower ⟨"todos", [⟨"title", .text, true, false, false⟩], []⟩ "todo" .sqlite patternFilter =
        .ok (some sql) ∧
      params sql = [.text "a_", .text "b%", .text "c"] ∧
      inPostgresql sql =
        parens ([.ident "title", .token .NOT, .token .ILIKE, .param (.text "a_"), .token .OR] ++
          parens (call "unaccent" [.ident "title"] ++
            .token .ILIKE :: call "unaccent" [.param (.text "b%")] ++
            [.token .AND, .ident "title", .token .NOT, .token .SIMILAR, .token .TO,
              .param (.text "c")])) := by
  have hlower := (lower_postgresql ⟨"todos", [⟨"title", .text, true, false, false⟩], []⟩ "todo"
    patternFilter).2.2.2.1 _ rfl
  exact ⟨_, rfl, rfl, (Option.some.inj (Except.ok.inj hlower.1)).symm⟩

end Filter

end ResourceEngine
