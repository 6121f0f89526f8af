import ResourceEngine.Filter.Lowering
import ResourceEngine.Proofs.Sql.Grammar

/-!
# What filters mean

`Filter.truth` says of a filter, without any SQL, whether a row holds it, fails it or leaves it
unknown. The condition that a filter is lowered to is read as a whole by the grammar of conditions,
and says the same of every row. Each part of a lowered filter denotes its truth wherever a condition
may end after it; so a group may put its parts side by side.
-/

namespace ResourceEngine.Filter

open Sql

/-- The operator that a negated operator denies. -/
def Op.denied? : Op → Option Op
  | .neq => some .eq
  | .notIn => some .isIn
  | .notLike => some .like
  | .notIlike => some .ilike
  | .notSimilar => some .similar
  | .notUnaccentIlike => some .unaccentIlike
  | .isNotNull => some .isNull
  | _ => none

/-- The value as a value of the kind. -/
def coerced (k : Kind) (v : Value) : Value :=
  match k.coerce v with
  | .ok w => w
  | .error _ => .null

section Meaning

variable (D : Database) (d : Dialect)

/-- Two texts match without regard to case: by an operator of the database, or by their lower case.
-/
def matchedCaseless (v pattern : Value) : Truth :=
  match d with
  | .postgresql => D.matched .ilike v pattern
  | .sqlite => D.matched .like (Database.ofText D.lower v) (Database.ofText D.lower pattern)

/-- What an operator that is not negated says of a cell of the kind. -/
def affirmed (k : Kind) (cell : Value) : Op → Operand → Truth
  | .isNull, _ => .ofBool cell.isNull
  | .eq, .scalar v => D.compare (· == .eq) cell (coerced k v)
  | .gt, .scalar v => D.compare (· == .gt) cell (coerced k v)
  | .gte, .scalar v => D.compare (· != .lt) cell (coerced k v)
  | .lt, .scalar v => D.compare (· == .lt) cell (coerced k v)
  | .lte, .scalar v => D.compare (· != .gt) cell (coerced k v)
  | .isIn, .list vs => .any (vs.map fun v => D.compare (· == .eq) cell (coerced k v))
  | .like, .scalar pattern => D.matched .like cell pattern
  | .ilike, .scalar pattern => matchedCaseless D d cell pattern
  | .unaccentIlike, .scalar pattern =>
    matchedCaseless D d (Database.ofText D.unaccent cell) (Database.ofText D.unaccent pattern)
  | .similar, .scalar pattern => D.matched .similar cell pattern
  | _, _ => .unknown

/-- What an operator says of a cell of the kind. -/
def predicateTruth (k : Kind) (cell : Value) (op : Op) (operand : Operand) : Truth :=
  match op.denied? with
  | some positive => (affirmed D d k cell positive operand).not
  | none => affirmed D d k cell op operand

variable (s : Schema) (row : String → Value)

mutual

/-- What a filter says of a row. -/
def truth : Filter → Truth
  | .group .and children => .all (truths children)
  | .group .or children => .any (truths children)
  | .predicate attr op operand =>
    match s.field? attr with
    | some f => predicateTruth D d f.kind (row attr) op operand
    | none => .unknown

/-- What the filters that have a predicate say of a row. -/
def truths : List Filter → List Truth
  | [] => []
  | f :: fs => if predicateCount f = 0 then truths fs else truth f :: truths fs

end

end Meaning

/-! ### Operands -/

/-- A sequence that comes to a value has come to one in its first part. -/
theorem exists_of_bind {ε α β : Type} {x : Except ε α} {g : α → Except ε β} {b : β}
    (h : x >>= g = .ok b) : ∃ a, x = .ok a ∧ g a = .ok b := by
  cases x with
  | error e => exact nomatch h
  | ok a => exact ⟨a, rfl, h⟩

theorem eq_of_scalarOf {f : Field} {op : Op} {operand : Operand} {v : Value}
    (h : scalarOf f op operand = .ok v) : operand = .scalar v := by
  cases operand with
  | scalar w => rw [scalarOf, Except.ok.injEq] at h; rw [h]
  | list ws => exact nomatch h

theorem eq_of_listOf {f : Field} {op : Op} {operand : Operand} {vs : List Value}
    (h : listOf f op operand = .ok vs) : operand = .list vs := by
  cases operand with
  | list ws => rw [listOf, Except.ok.injEq] at h; rw [h]
  | scalar w => exact nomatch h

theorem eq_of_patternOf {f : Field} {op : Op} {operand : Operand} {pattern : String}
    (h : patternOf f op operand = .ok pattern) : operand = .scalar (.text pattern) := by
  unfold patternOf at h
  split at h
  · next hs =>
    rw [Except.ok.injEq] at h
    rw [eq_of_scalarOf hs, h]
  · exact nomatch h
  · exact nomatch h

/-- A value that has been taken for a field is the one that is compared. -/
theorem coerced_of_coerceFor {f : Field} {op : Op} {v w : Value}
    (h : coerceFor f op v = .ok w) : coerced f.kind v = w := by
  unfold coerceFor at h
  split at h
  · next hc =>
    rw [Except.ok.injEq] at h
    rw [coerced, hc, h]
  · exact nomatch h

/-- The same holds of the values of a list. -/
theorem map_coerced_of_mapM {f : Field} {op : Op} {vs ws : List Value}
    (h : vs.mapM (coerceFor f op) = .ok ws) : vs.map (coerced f.kind) = ws := by
  induction vs generalizing ws with
  | nil => cases h; rfl
  | cons v vs ih =>
    rw [List.mapM_cons] at h
    obtain ⟨w, hw, h⟩ := exists_of_bind h
    obtain ⟨us, hus, h⟩ := exists_of_bind h
    cases h
    rw [List.map_cons, coerced_of_coerceFor hw, ih hus]

/-- Kleene's denial of a comparison is the opposite comparison, as both are unknown at once. -/
theorem not_compare (D : Database) (p : Ordering → Bool) (v w : Value) :
    (D.compare p v w).not = D.compare (fun o => !p o) v w := by
  unfold Database.compare
  split
  · rfl
  · split
    · exact Truth.not_ofBool _
    · rfl

/-! ### Lowered predicates -/

section Lowered

variable {D : Database} {row : String → Value}

theorem call_lower (v : Value) : D.call "lower" [v] = Database.ofText D.lower v := rfl

theorem call_unaccent (v : Value) : D.call "unaccent" [v] = Database.ofText D.unaccent v := by
  rw [Database.call, if_neg (by decide), if_pos rfl]

theorem call_similarTo (v w : Value) :
    D.call "similar_to" [v, w] = (D.matched .similar v w).value := rfl

/-- A comparison that ignores case denotes the match of its operands in the dialect, or the denial
of that. -/
theorem denotes_caseless {d : Dialect} {left right : Sql} {v w : Value} (negated : Bool)
    (hl : TermDenotes D row left v) (hr : TermDenotes D row right w) :
    Denotes D row (caseless d negated left right)
      (if negated then (matchedCaseless D d v w).not else matchedCaseless D d v w) := by
  cases d with
  | postgresql => exact denotes_test rfl hl (testDenotes_match .ilike hr) negated
  | sqlite =>
    have hl' := termDenotes_call "lower" (termsDenote_single hl)
    have hr' := termDenotes_call "lower" (termsDenote_single hr)
    rw [call_lower] at hl' hr'
    exact denotes_test rfl hl' (testDenotes_match .like hr') negated

/-- A match against a pattern with wildcards denotes what the database says of it, in both dialects.
-/
theorem denotes_similarity {d : Dialect} (negated : Bool) (column : String) (pattern : Value) :
    Denotes D row (similarity d negated column pattern)
      (if negated then (D.matched .similar (row column) pattern).not
        else D.matched .similar (row column) pattern) := by
  have hc : TermDenotes D row [.ident column] (row column) := termDenotes_column column
  have hp : TermDenotes D row [.param pattern] pattern := termDenotes_param pattern
  cases d with
  | postgresql => exact denotes_test rfl hc (testDenotes_match .similar hp) negated
  | sqlite =>
    have h := denotes_call "similar_to" (termsDenote_cons hc (termsDenote_single hp))
    rw [call_similarTo, Truth.truth_value] at h
    cases negated with
    | false => exact h
    | true => exact denotes_not h

/-- Membership is true of a value that equals one in the list. -/
theorem affirmed_isIn {d : Dialect} {f : Field} {op : Op} {vs ws : List Value} {cell : Value}
    (h : vs.mapM (coerceFor f op) = .ok ws) :
    affirmed D d f.kind cell .isIn (.list vs) =
      .any (ws.map (D.compare Token.EQ.accepts cell)) := by
  rw [← map_coerced_of_mapM h, List.map_map]
  rfl

/-- A lowered predicate denotes what its operator says of the cell. -/
theorem denotes_lowerPredicate {d : Dialect} {f : Field} {op : Op} {operand : Operand} {sql : Sql}
    (h : lowerPredicate d f op operand = .ok sql) :
    Denotes D row sql (predicateTruth D d f.kind (row f.name) op operand) := by
  have hc : TermDenotes D row [.ident f.name] (row f.name) := termDenotes_column f.name
  cases op with
  | isNull =>
    cases h
    exact denotes_tested hc testDenotes_isNull (List.cons_ne_nil _ _)
  | isNotNull =>
    cases h
    exact denotes_tested hc testDenotes_isNotNull (List.cons_ne_nil _ _)
  | isIn | notIn =>
    obtain ⟨vs, hvs, hlist⟩ := exists_of_bind h
    rw [eq_of_listOf hvs]
    cases vs with
    | nil =>
      cases hlist
      exact denotes_constant _
    | cons v vs =>
      obtain ⟨ws, hws, hlist⟩ := exists_of_bind hlist
      cases hlist
      -- An empty list has no place in parentheses; here there is a value for each operand.
      have hne : ws ≠ [] := by
        rw [← map_coerced_of_mapM hws]
        exact List.cons_ne_nil _ _
      simp only [predicateTruth, Op.denied?, affirmed_isIn hws]
      exact denotes_test rfl hc (testDenotes_isIn hne) _
  | like | notLike =>
    obtain ⟨pattern, hpattern, h⟩ := exists_of_bind h
    cases h
    rw [eq_of_patternOf hpattern]
    exact denotes_test rfl hc (testDenotes_match .like (termDenotes_param _)) _
  | ilike | notIlike =>
    obtain ⟨pattern, hpattern, h⟩ := exists_of_bind h
    cases h
    rw [eq_of_patternOf hpattern]
    exact denotes_caseless _ hc (termDenotes_param _)
  | unaccentIlike | notUnaccentIlike =>
    obtain ⟨pattern, hpattern, h⟩ := exists_of_bind h
    cases h
    rw [eq_of_patternOf hpattern]
    have hl := termDenotes_call "unaccent" (termsDenote_single hc)
    have hp : TermDenotes D row [.param (.text pattern)] (.text pattern) := termDenotes_param _
    have hr := termDenotes_call "unaccent" (termsDenote_single hp)
    rw [call_unaccent] at hl hr
    exact denotes_caseless _ hl hr
  | similar | notSimilar =>
    obtain ⟨pattern, hp, h⟩ := exists_of_bind h
    simp only at h
    split at h
    · exact nomatch h
    cases h
    rw [eq_of_patternOf hp]
    exact denotes_similarity _ f.name (.text pattern)
  | neq =>
    obtain ⟨v, hv, h⟩ := exists_of_bind h
    obtain ⟨w, hw, h⟩ := exists_of_bind h
    cases h
    rw [eq_of_scalarOf hv]
    show Denotes D row _ (D.compare _ (row f.name) (coerced f.kind v)).not
    rw [not_compare, coerced_of_coerceFor hw]
    exact denotes_tested hc (testDenotes_compare rfl (termDenotes_param w)) (List.cons_ne_nil _ _)
  | eq | gt | gte | lt | lte =>
    obtain ⟨v, hv, h⟩ := exists_of_bind h
    obtain ⟨w, hw, h⟩ := exists_of_bind h
    cases h
    rw [eq_of_scalarOf hv]
    show Denotes D row _ (D.compare _ (row f.name) (coerced f.kind v))
    rw [coerced_of_coerceFor hw]
    exact denotes_tested hc (testDenotes_compare rfl (termDenotes_param w)) (List.cons_ne_nil _ _)

end Lowered

/-! ### Lowered filters -/

theorem name_of_field? {s : Schema} {attr : String} {f : Field} (h : s.field? attr = some f) :
    f.name = attr := by
  simpa using List.find?_some h

section Tree

variable {s : Schema} {resource : String} {d : Dialect}

/-- A group that is lowered has all its children lowered, and joins them. -/
theorem lower_group {c : Combinator} {children : List Filter} {part : Option Sql}
    (h : lower s resource d (.group c children) = .ok part) :
    ∃ parts, lowerAll s resource d children = .ok parts ∧ part = joinGroup c parts := by
  rw [lower] at h
  split at h
  · next parts hparts => exact ⟨parts, hparts, (Except.ok.inj h).symm⟩
  · exact nomatch h

/-- A predicate that is lowered has a field, and one condition. -/
theorem lower_predicate {attr : String} {op : Op} {operand : Operand} {part : Option Sql}
    (h : lower s resource d (.predicate attr op operand) = .ok part) :
    ∃ f sql, s.field? attr = some f ∧ lowerPredicate d f op operand = .ok sql ∧
      part = some sql := by
  rw [lower] at h
  split at h
  · exact nomatch h
  next f hf =>
    split at h
    · next sql hsql => exact ⟨f, sql, hf, hsql, (Except.ok.inj h).symm⟩
    · exact nomatch h

/-- Filters are lowered from left to right, and the empty ones among them left out. -/
theorem lowerAll_cons {f : Filter} {fs : List Filter} {parts : List Sql}
    (h : lowerAll s resource d (f :: fs) = .ok parts) :
    ∃ part rest, lower s resource d f = .ok part ∧ lowerAll s resource d fs = .ok rest ∧
      parts = part.toList ++ rest := by
  rw [lowerAll] at h
  split at h
  · exact nomatch h
  next part hpart =>
    split at h
    · exact nomatch h
    next rest hrest => exact ⟨part, rest, hpart, hrest, (Except.ok.inj h).symm⟩

/-- Only nothing joins to nothing. -/
theorem joinGroup_eq_none_iff {c : Combinator} {parts : List Sql} :
    joinGroup c parts = none ↔ parts = [] := by
  cases parts <;> simp [joinGroup]

mutual

/-- A filter is lowered to nothing exactly when it has no predicate. -/
theorem lower_eq_none_iff {f : Filter} {part : Option Sql} (h : lower s resource d f = .ok part) :
    part = none ↔ predicateCount f = 0 := by
  cases f with
  | group c children =>
    obtain ⟨parts, hparts, rfl⟩ := lower_group h
    rw [joinGroup_eq_none_iff, predicateCount]
    exact lowerAll_eq_nil_iff hparts
  | predicate attr op operand =>
    obtain ⟨f, sql, -, -, rfl⟩ := lower_predicate h
    simp [predicateCount]

/-- Filters are lowered to nothing exactly if there are no predicates in them. -/
theorem lowerAll_eq_nil_iff {fs : List Filter} {parts : List Sql}
    (h : lowerAll s resource d fs = .ok parts) : parts = [] ↔ predicateCounts fs = 0 := by
  cases fs with
  | nil =>
    cases h
    simp [predicateCounts]
  | cons f fs =>
    obtain ⟨part, rest, hpart, hrest, rfl⟩ := lowerAll_cons h
    rw [List.append_eq_nil_iff, Option.toList_eq_nil_iff, predicateCounts, Nat.add_eq_zero_iff,
      lower_eq_none_iff hpart, lowerAll_eq_nil_iff hrest]

end

/-- A group denotes the truth of its children, joined by its combinator. -/
theorem denotes_joinGroup {D : Database} {row : String → Value} {c : Combinator}
    {children : List Filter} {parts : List Sql} {sql : Sql}
    (h : List.Forall₂ (Denotes D row) parts (truths D d s row children))
    (hsql : joinGroup c parts = some sql) :
    Denotes D row sql (truth D d s row (.group c children)) := by
  have hne : parts ≠ [] := by
    intro hnil
    rw [joinGroup_eq_none_iff.2 hnil] at hsql
    exact nomatch hsql
  rw [joinGroup, if_neg (by simpa using hne)] at hsql
  cases hsql
  cases c with
  | and => exact denotes_all hne h
  | or => exact denotes_any hne h

mutual

/-- A lowered filter denotes what the filter says of the row. -/
theorem denotes_lower (D : Database) (row : String → Value) {f : Filter} {sql : Sql}
    (h : lower s resource d f = .ok (some sql)) : Denotes D row sql (truth D d s row f) := by
  cases f with
  | group c children =>
    obtain ⟨parts, hparts, hsql⟩ := lower_group h
    exact denotes_joinGroup (forall₂_denotes_lowerAll D row hparts) hsql.symm
  | predicate attr op operand =>
    obtain ⟨f, sql, hf, hsql, heq⟩ := lower_predicate h
    cases heq
    rw [truth, hf, ← name_of_field? hf]
    exact denotes_lowerPredicate hsql

/-- The parts of lowered filters denote, in order, what the filters with a predicate say. -/
theorem forall₂_denotes_lowerAll (D : Database) (row : String → Value) {fs : List Filter}
    {parts : List Sql} (h : lowerAll s resource d fs = .ok parts) :
    List.Forall₂ (Denotes D row) parts (truths D d s row fs) := by
  cases fs with
  | nil =>
    cases h
    exact .nil
  | cons f fs =>
    obtain ⟨part, rest, hpart, hrest, rfl⟩ := lowerAll_cons h
    have htail := forall₂_denotes_lowerAll D row hrest
    rw [truths]
    -- A filter without a predicate is left out on both sides.
    cases part with
    | none =>
      rw [if_pos ((lower_eq_none_iff hpart).1 rfl)]
      exact htail
    | some sql =>
      rw [if_neg (mt (lower_eq_none_iff hpart).2 (by simp))]
      exact .cons (denotes_lower D row hpart) htail

end

end Tree

/-- The condition that a filter is lowered to is read to its end, and with its values bound from the
left it says of every row what the filter says. -/
theorem ofSql?_lower (D : Database) (s : Schema) (resource : String) (d : Dialect)
    (row : String → Value) (f : Filter) (sql : Sql)
    (h : lower s resource d f = .ok (some sql)) :
    ∃ c, Condition.ofSql? sql = some c ∧ c.truth D row (params sql) = truth D d s row f :=
  (denotes_lower D row h).ofSql?

/-- A database that orders integers and matches a text with itself only. -/
def plainDatabase : Database where
  order
    | .integer i, .integer j => some (compare i.toInt j.toInt)
    | _, _ => none
  isLike _ v pattern := .ofBool (v == pattern)
  lower v := v
  unaccent v := v

/-- A filter with a group that has no predicate and a group in which one of the children fails. -/
def nestedFilter : Filter :=
  .group .or [.predicate "title" .notIlike (.scalar (.text "a")), .group .and [],
    .group .and [.predicate "id" .notIn (.list [.bool true, .integer 7]),
      .predicate "title" .isNull (.scalar .null)]]

/-- A missing title leaves the whole filter unknown. -/
theorem ofSql?_lower_nestedFilter :
    ∃ sql c,
      lower ⟨"todos", [⟨"id", .integer, false, true, true⟩, ⟨"title", .text, true, false, false⟩],
        []⟩ "todo" .sqlite nestedFilter = .ok (some sql) ∧
      Condition.ofSql? sql = some c ∧
      c.truth plainDatabase (fun name => if name = "id" then .integer 7 else .null) (params sql) =
        .unknown := by
  obtain ⟨c, hc, htruth⟩ := ofSql?_lower plainDatabase
    ⟨"todos", [⟨"id", .integer, false, true, true⟩, ⟨"title", .text, true, false, false⟩], []⟩
    "todo" .sqlite (fun name => if name = "id" then .integer 7 else .null) nestedFilter _ rfl
  exact ⟨_, c, rfl, hc, htruth.trans (by decide)⟩

end ResourceEngine.Filter
