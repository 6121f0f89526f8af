import ResourceEngine.Proofs.Filter.Outline

/-!
# Which filters are lowered

A filter is lowered exactly if each of its predicates names a field and has an operand that meets
what the operator demands. `Predicate.WellFormed` says so without the condition that comes out;
`Predicate.Fault` says what is wrong with a predicate otherwise, and the first fault from the left is
the one that is reported.
-/

namespace ResourceEngine

/-- The value can be converted to the kind. -/
def Kind.Converts (k : Kind) (v : Value) : Prop := ∃ w, k.coerce v = .ok w

namespace Filter

open Sql

/-- What an operator demands of its operand. -/
inductive Demand where
  | nothing
  /-- A value that can be converted to the kind of the field. -/
  | value
  /-- A list of values that can be. -/
  | values
  | text
  /-- A text that is a `SIMILAR TO` pattern. -/
  | pattern
  deriving DecidableEq

def Op.demand : Op → Demand
  | .isNull | .isNotNull => .nothing
  | .eq | .neq | .gt | .gte | .lt | .lte => .value
  | .isIn | .notIn => .values
  | .like | .notLike | .ilike | .notIlike | .unaccentIlike | .notUnaccentIlike => .text
  | .similar | .notSimilar => .pattern

/-- The operand is what is demanded on a field of the kind. -/
def Operand.Meets (k : Kind) : Demand → Operand → Prop
  | .nothing, _ => True
  | .value, .scalar v => k.Converts v
  | .values, .list vs => ∀ v ∈ vs, k.Converts v
  | .text, .scalar (.text _) => True
  | .pattern, .scalar (.text pattern) => (SimilarTo.compile? pattern).isSome
  | _, _ => False

/-- The number of values that are bound for an operand. -/
def Operand.count : Demand → Operand → Nat
  | .nothing, _ => 0
  | .values, .list vs => vs.length
  | _, _ => 1

/-- The first item from the left that is not good has this problem. -/
def First {α : Type} (good : α → Prop) (bad : α → Problem → Prop) (as : List α) (p : Problem) :
    Prop :=
  ∃ before a after, as = before ++ a :: after ∧ (∀ b ∈ before, good b) ∧ bad a p

/-- The problem of an operand that does not meet the demand of an operator on a field. -/
inductive Operand.Fault (f : Field) (op : Op) : Demand → Operand → Problem → Prop where
  | notList (v : Value) : Fault f op .values (.scalar v) (.listRequired op f.name)
  | notScalar (vs : List Value) {demand : Demand} (hne : demand ≠ .nothing ∧ demand ≠ .values) :
    Fault f op demand (.list vs) (.scalarRequired op f.name)
  | value {v : Value} {e : CoercionFailure} (hv : f.kind.coerce v = .error e) :
    Fault f op .value (.scalar v) (.invalidOperand op f.name e)
  | item {vs : List Value} {p : Problem}
    (hvs : First f.kind.Converts
      (fun v p => ∃ e, f.kind.coerce v = .error e ∧ p = .invalidOperand op f.name e) vs p) :
    Fault f op .values (.list vs) p
  | notText {v : Value} {demand : Demand} (htext : demand = .text ∨ demand = .pattern)
    (hv : v.text? = none) : Fault f op demand (.scalar v) (.textPatternRequired op f.name v)
  | pattern {pattern : String} (hpattern : SimilarTo.compile? pattern = none) :
    Fault f op .pattern (.scalar (.text pattern)) (.invalidPattern pattern)

/-- A comparison in a filter. -/
structure Predicate where
  attr : String
  op : Op
  operand : Operand

namespace Predicate

/-- The attribute is a field, and the operand meets the demand of the operator. -/
def WellFormed (s : Schema) (q : Predicate) : Prop :=
  ∃ f, s.field? q.attr = some f ∧ q.operand.Meets f.kind q.op.demand

/-- The problem of a predicate on a resource. -/
inductive Fault (s : Schema) (resource : String) (q : Predicate) : Problem → Prop where
  | unknown (hattr : s.field? q.attr = none) :
    Fault s resource q (.unknownAttribute q.attr resource)
  | unfit {f : Field} {p : Problem} (hattr : s.field? q.attr = some f)
    (hoperand : q.operand.Fault f q.op q.op.demand p) : Fault s resource q p

/-- The number of values that the predicate binds. -/
def paramCount (q : Predicate) : Nat := q.operand.count q.op.demand

end Predicate

mutual

/-- The predicates of a filter, depth first and from left to right. -/
def predicates : Filter → List Predicate
  | .group _ children => predicatesAll children
  | .predicate attr op operand => [⟨attr, op, operand⟩]

def predicatesAll : List Filter → List Predicate
  | [] => []
  | f :: fs => predicates f ++ predicatesAll fs

end

/-! ### The first problem of a list -/

section First

variable {α β : Type} {good : α → Prop} {bad : α → Problem → Prop} {a : α} {as bs : List α}
  {p : Problem}

theorem not_first_nil : ¬First good bad [] p := by
  rintro ⟨before, a, after, heq, -⟩
  exact List.append_ne_nil_of_right_ne_nil before (List.cons_ne_nil a after) heq.symm

/-- The first problem of a list is that of its head, or that of the tail after a good head. -/
theorem first_cons : First good bad (a :: as) p ↔ bad a p ∨ good a ∧ First good bad as p := by
  constructor
  · rintro ⟨_ | ⟨b, before⟩, a', after, heq, hbefore, ha⟩
    · cases heq
      exact .inl ha
    · obtain ⟨rfl, rfl⟩ := List.cons.inj heq
      rw [List.forall_mem_cons] at hbefore
      exact .inr ⟨hbefore.1, before, a', after, rfl, hbefore.2, ha⟩
  · rintro (ha | ⟨hgood, before, a', after, rfl, hbefore, ha⟩)
    · exact ⟨[], a, as, rfl, List.forall_mem_nil _, ha⟩
    · exact ⟨a :: before, a', after, rfl, List.forall_mem_cons.2 ⟨hgood, hbefore⟩, ha⟩

/-- The first problem of two lists is that of the first one, or that of the second one after a good
first one. -/
theorem first_append :
    First good bad (as ++ bs) p ↔
      First good bad as p ∨ (∀ a ∈ as, good a) ∧ First good bad bs p := by
  induction as with
  | nil => simp [not_first_nil]
  | cons a as ih =>
    rw [List.cons_append, first_cons, first_cons, ih, List.forall_mem_cons]
    tauto

/-- A function that is run along a list fails with the first error. -/
theorem mapM_eq_error_iff {g : α → Except Problem β} :
    as.mapM g = .error p ↔ First (∃ b, g · = .ok b) (g · = .error ·) as p := by
  induction as with
  | nil => simp [not_first_nil, pure, Except.pure]
  | cons a as ih =>
    rw [List.mapM_cons, first_cons, ← ih]
    rcases g a with e | b
    · simp [bind, Except.bind]
    · rcases as.mapM g with e | bs <;> simp [bind, Except.bind, pure, Except.pure]

/-- A function that is run along a list comes to its end exactly if it does so everywhere. -/
theorem exists_mapM_iff {g : α → Except Problem β} :
    (∃ bs, as.mapM g = .ok bs) ↔ ∀ a ∈ as, ∃ b, g a = .ok b := by
  induction as with
  | nil => simp [pure, Except.pure]
  | cons a as ih =>
    rw [List.mapM_cons, List.forall_mem_cons, ← ih]
    rcases g a with e | b
    · simp [bind, Except.bind]
    · rcases as.mapM g with e | bs <;> simp [bind, Except.bind, pure, Except.pure]

end First

/-! ### Operands -/

@[simp] theorem params_infixed (negated : Bool) (left : Sql) (operator : Token) (right : Sql) :
    params (infixed negated left operator right) = params left ++ params right := by
  cases negated <;> simp [infixed]

@[simp] theorem params_caseless (d : Dialect) (negated : Bool) (left right : Sql) :
    params (caseless d negated left right) = params left ++ params right := by
  cases d <;> simp [caseless]

@[simp] theorem params_similarity (d : Dialect) (negated : Bool) (column : String) (v : Value) :
    params (similarity d negated column v) = [v] := by
  cases d <;> cases negated <;> simp [similarity]

/-- The values that a predicate on a field binds. -/
def taken (f : Field) (op : Op) (operand : Operand) : Except Problem (List Value) :=
  match op.demand with
  | .nothing => .ok []
  | .value => do return [← coerceFor f op (← scalarOf f op operand)]
  | .values => do (← listOf f op operand).mapM (coerceFor f op)
  | .text => do return [.text (← patternOf f op operand)]
  | .pattern => do
    let pattern ← patternOf f op operand
    if (SimilarTo.compile? pattern).isNone then
      throw (.invalidPattern pattern)
    return [.text pattern]

/-- The condition of a predicate on a field that binds these values. -/
def written (d : Dialect) (f : Field) (op : Op) (vs : List Value) : Sql :=
  let column : Sql := [.ident f.name]
  let param : Sql := [.param (vs.headD .null)]
  match op with
  | .isNull => [.ident f.name, .token .IS, .token .NULL]
  | .isNotNull => [.ident f.name, .token .IS, .token .NOT, .token .NULL]
  | .isIn | .notIn =>
    if vs.isEmpty then [.token (if op.isNegated then .TRUE else .FALSE)]
    else infixed op.isNegated column .IN (parens (paramList vs))
  | .like | .notLike => infixed op.isNegated column .LIKE param
  | .ilike | .notIlike => caseless d op.isNegated column param
  | .unaccentIlike | .notUnaccentIlike =>
    caseless d op.isNegated (call "unaccent" column) (call "unaccent" param)
  | .similar | .notSimilar => similarity d op.isNegated f.name (vs.headD .null)
  | .eq | .neq | .gt | .gte | .lt | .lte =>
    column ++ .token (op.comparison?.getD .EQ) :: param

section Operand

variable {d : Dialect} {f : Field} {op : Op} {operand : Operand} {p : Problem} {vs : List Value}

/-- A predicate is lowered in two steps: the values are taken from the operand, and only then is the
condition written for the dialect. -/
theorem lowerPredicate_eq (d : Dialect) (f : Field) (op : Op) (operand : Operand) :
    lowerPredicate d f op operand = written d f op <$> taken f op operand := by
  cases op with
  | isNull | isNotNull => rfl
  | isIn | notIn =>
    rcases operand with v | _ | ⟨v, vs⟩
    · rfl
    · rfl
    · simp only [lowerPredicate, taken, Op.demand, listOf, bind, Except.bind, List.isEmpty_cons]
      cases hws : (v :: vs).mapM (coerceFor f _) with
      | error p => rfl
      | ok ws =>
        cases ws with
        | nil => cases length_of_mapM hws
        | cons w ws => rfl
  | like | notLike | ilike | notIlike | unaccentIlike | notUnaccentIlike =>
    simp only [lowerPredicate, taken, Op.demand]
    cases patternOf f _ operand <;> rfl
  | similar | notSimilar =>
    simp only [lowerPredicate, taken, Op.demand]
    cases patternOf f _ operand with
    | error p => rfl
    | ok pattern =>
      simp only [bind, Except.bind]
      split <;> rfl
  | eq | neq | gt | gte | lt | lte =>
    simp only [lowerPredicate, taken, Op.demand]
    cases scalarOf f _ operand with
    | error p => rfl
    | ok v =>
      simp only [bind, Except.bind]
      cases coerceFor f _ v <;> rfl

theorem exists_coerceFor_iff (op : Op) {v : Value} :
    (∃ w, coerceFor f op v = .ok w) ↔ f.kind.Converts v := by
  unfold coerceFor Kind.Converts
  cases f.kind.coerce v <;> simp

/-- A value that is refused for a field names the operator, the field and the reason. -/
theorem coerceFor_eq_error_iff {v : Value} :
    coerceFor f op v = .error p ↔
      ∃ e, f.kind.coerce v = .error e ∧ p = .invalidOperand op f.name e := by
  unfold coerceFor
  cases f.kind.coerce v <;> simp [eq_comm]

theorem patternOf_eq_ok_iff {pattern : String} :
    patternOf f op operand = .ok pattern ↔ operand = .scalar (.text pattern) := by
  refine ⟨eq_of_patternOf, ?_⟩
  rintro rfl
  rfl

/-- Refused as a pattern are lists, and single values that are no text. -/
theorem patternOf_eq_error_iff :
    patternOf f op operand = .error p ↔
      (∃ vs, operand = .list vs ∧ p = .scalarRequired op f.name) ∨
        ∃ v, operand = .scalar v ∧ v.text? = none ∧ p = .textPatternRequired op f.name v := by
  rcases operand with v | vs
  · cases v <;> simp [patternOf, scalarOf, Value.text?, eq_comm]
  · simp [patternOf, scalarOf, eq_comm]

theorem bind_eq_error_iff {ε α β : Type} {x : Except ε α} {g : α → Except ε β} {e : ε} :
    x >>= g = .error e ↔ x = .error e ∨ ∃ a, x = .ok a ∧ g a = .error e := by
  cases x <;> simp [bind, Except.bind]

/-- The values of an operand are taken exactly if it meets what the operator asks for. -/
theorem exists_taken_iff :
    (∃ vs, taken f op operand = .ok vs) ↔ operand.Meets f.kind op.demand := by
  unfold taken
  cases op.demand with
  | nothing => simp [Operand.Meets]
  | value =>
    cases operand with
    | scalar v =>
      rw [Operand.Meets, ← exists_coerceFor_iff op]
      cases h : coerceFor f op v <;> simp [scalarOf, h, bind, Except.bind, pure, Except.pure]
    | list vs => simp [Operand.Meets, scalarOf, bind, Except.bind]
  | values =>
    cases operand with
    | scalar v => simp [Operand.Meets, listOf, bind, Except.bind]
    | list vs =>
      simp only [Operand.Meets, ← exists_coerceFor_iff op, ← exists_mapM_iff]
      rfl
  | text =>
    rcases operand with (_ | _ | _ | _ | _ | _) | vs <;>
      simp [Operand.Meets, patternOf, scalarOf, bind, Except.bind, pure, Except.pure]
  | pattern =>
    rcases operand with (_ | _ | _ | pattern | _ | _) | vs
    case scalar.text =>
      simp only [Operand.Meets, patternOf, scalarOf, bind, Except.bind]
      cases SimilarTo.compile? pattern <;>
        simp [pure, Except.pure, throw, throwThe, MonadExceptOf.throw]
    all_goals simp [Operand.Meets, patternOf, scalarOf, bind, Except.bind]

/-! ### The faults of an operand by what is demanded -/

/-- What is wrong with an operand where a value is asked for. -/
theorem fault_value_iff :
    operand.Fault f op .value p ↔
      (∃ vs, operand = .list vs ∧ p = .scalarRequired op f.name) ∨
        ∃ v, operand = .scalar v ∧ coerceFor f op v = .error p := by
  simp only [coerceFor_eq_error_iff]
  constructor
  · rintro (_ | ⟨vs, -⟩ | hv | _ | ⟨htext, -⟩)
    · exact .inl ⟨vs, rfl, rfl⟩
    · exact .inr ⟨_, rfl, _, hv, rfl⟩
    · simp at htext
  · rintro (⟨vs, rfl, rfl⟩ | ⟨v, rfl, e, he, rfl⟩)
    · exact .notScalar vs (by decide)
    · exact .value he

/-- What is wrong with an operand where a list is asked for: it is none, or the first value in it
that is refused. -/
theorem fault_values_iff :
    operand.Fault f op .values p ↔
      (∃ v, operand = .scalar v ∧ p = .listRequired op f.name) ∨
        ∃ vs, operand = .list vs ∧ vs.mapM (coerceFor f op) = .error p := by
  simp only [mapM_eq_error_iff, exists_coerceFor_iff, coerceFor_eq_error_iff]
  constructor
  · rintro (⟨v⟩ | ⟨vs, -, hne⟩ | _ | hvs | ⟨htext, -⟩)
    · exact .inl ⟨v, rfl, rfl⟩
    · exact absurd rfl hne
    · exact .inr ⟨_, rfl, hvs⟩
    · simp at htext
  · rintro (⟨v, rfl, rfl⟩ | ⟨vs, rfl, hvs⟩)
    · exact .notList v
    · exact .item hvs

/-- What is wrong with an operand where a text is asked for. -/
theorem fault_text_iff :
    operand.Fault f op .text p ↔ patternOf f op operand = .error p := by
  rw [patternOf_eq_error_iff]
  constructor
  · rintro (_ | ⟨vs, -⟩ | _ | _ | ⟨-, hv⟩)
    · exact .inl ⟨vs, rfl, rfl⟩
    · exact .inr ⟨_, rfl, hv, rfl⟩
  · rintro (⟨vs, rfl, rfl⟩ | ⟨v, rfl, hv, rfl⟩)
    · exact .notScalar vs (by decide)
    · exact .notText (.inl rfl) hv

/-- A pattern with wildcards is at fault as a text is, or because it does not compile. -/
theorem fault_pattern_iff :
    operand.Fault f op .pattern p ↔
      operand.Fault f op .text p ∨
        ∃ pattern, operand = .scalar (.text pattern) ∧ SimilarTo.compile? pattern = none ∧
          p = .invalidPattern pattern := by
  constructor
  · rintro (_ | ⟨vs, -⟩ | _ | _ | ⟨-, hv⟩ | hpattern)
    · exact .inl (.notScalar vs (by decide))
    · exact .inl (.notText (.inl rfl) hv)
    · exact .inr ⟨_, rfl, hpattern, rfl⟩
  · rintro ((_ | ⟨vs, -⟩ | _ | _ | ⟨-, hv⟩) | ⟨pattern, rfl, hpattern, rfl⟩)
    · exact .notScalar vs (by decide)
    · exact .notText (.inr rfl) hv
    · exact .pattern hpattern

/-- The error in taking the values of an operand is its fault. -/
theorem taken_eq_error_iff :
    taken f op operand = .error p ↔ operand.Fault f op op.demand p := by
  unfold taken
  cases op.demand with
  | nothing =>
    constructor
    · rintro ⟨⟩
    · rintro ⟨⟩ <;> simp_all
  | value =>
    rw [fault_value_iff]
    cases operand with
    | scalar v =>
      simp only [scalarOf, bind, Except.bind]
      cases hv : coerceFor f op v <;> simp [hv, pure, Except.pure]
    | list vs => simp [scalarOf, bind, Except.bind, eq_comm]
  | values =>
    rw [fault_values_iff]
    cases operand with
    | scalar v => simp [listOf, bind, Except.bind, eq_comm]
    | list vs => simp [listOf, bind, Except.bind]
  | text =>
    rw [fault_text_iff]
    cases patternOf f op operand <;> simp [bind, Except.bind, pure, Except.pure]
  | pattern =>
    rw [fault_pattern_iff, fault_text_iff]
    simp only [bind_eq_error_iff, patternOf_eq_ok_iff]
    refine or_congr_right (exists_congr fun pattern => and_congr_right fun _ => ?_)
    cases SimilarTo.compile? pattern <;>
      simp [bind, Except.bind, throw, throwThe, MonadExceptOf.throw, pure, Except.pure, eq_comm]

/-- As many values are taken from an operand as it counts. -/
theorem length_of_taken (h : taken f op operand = .ok vs) :
    vs.length = operand.count op.demand := by
  unfold taken at h
  cases hdemand : op.demand <;> rw [hdemand] at h <;> simp only at h
  case nothing =>
    cases h
    rfl
  case values =>
    obtain ⟨ws, hws, h⟩ := exists_of_bind h
    rw [length_of_mapM h, eq_of_listOf hws, Operand.count]
  all_goals
    obtain ⟨v, hv, h⟩ := exists_of_bind h
  case value =>
    obtain ⟨w, -, h⟩ := exists_of_bind h
    cases h
    rw [eq_of_scalarOf hv]
    rfl
  case text =>
    cases h
    rw [eq_of_patternOf hv]
    rfl
  case pattern =>
    split at h
    · cases h
    · cases h
      rw [eq_of_patternOf hv]
      rfl

/-- The values taken are those that are bound, in their order. -/
theorem params_written (h : taken f op operand = .ok vs) : params (written d f op vs) = vs := by
  have hlength := length_of_taken h
  cases op with
  | isNull | isNotNull =>
    cases h
    rfl
  | isIn | notIn => cases vs <;> simp [written]
  | _ =>
    obtain ⟨v, rfl⟩ := List.length_eq_one_iff.1 hlength
    simp [written]

/-- A predicate is lowered by taking its values and writing them, in this order. -/
theorem lowerPredicate_eq_ok_iff {sql : Sql} :
    lowerPredicate d f op operand = .ok sql ↔
      ∃ vs, taken f op operand = .ok vs ∧ sql = written d f op vs := by
  rw [lowerPredicate_eq]
  cases taken f op operand <;> simp [eq_comm]

/-- Only in taking the values can a predicate fail, and so before the dialect matters. -/
theorem lowerPredicate_eq_error_iff :
    lowerPredicate d f op operand = .error p ↔ operand.Fault f op op.demand p := by
  rw [lowerPredicate_eq, ← taken_eq_error_iff]
  cases taken f op operand <;> simp

end Operand

/-! ### Trees -/

section Tree

variable {s : Schema} {resource : String} {d : Dialect} {p : Problem}

/-- A predicate is lowered exactly if it is well formed. -/
theorem exists_lower_predicate_iff {attr : String} {op : Op} {operand : Operand} :
    (∃ part, lower s resource d (.predicate attr op operand) = .ok part) ↔
      Predicate.WellFormed s ⟨attr, op, operand⟩ := by
  rw [lower, Predicate.WellFormed]
  cases s.field? attr with
  | none => simp
  | some f =>
    simp only [Option.some.injEq, exists_eq_left', ← exists_taken_iff, lowerPredicate_eq]
    cases taken f op operand <;> simp

/-- A predicate is refused for its fault. -/
theorem lower_predicate_eq_error_iff {attr : String} {op : Op} {operand : Operand} :
    lower s resource d (.predicate attr op operand) = .error p ↔
      Predicate.Fault s resource ⟨attr, op, operand⟩ p := by
  rw [lower]
  cases hattr : s.field? attr with
  | none =>
    constructor
    · rintro ⟨⟩
      exact .unknown hattr
    · rintro (_ | ⟨hf, -⟩)
      · rfl
      · cases hattr.symm.trans hf
  | some f =>
    have hfault : Predicate.Fault s resource ⟨attr, op, operand⟩ p ↔
        operand.Fault f op op.demand p := by
      refine ⟨?_, .unfit (q := ⟨attr, op, operand⟩) hattr⟩
      rintro (h | ⟨hf, h⟩)
      · cases hattr.symm.trans h
      · cases hattr.symm.trans hf
        exact h
    rw [hfault, ← lowerPredicate_eq_error_iff (d := d)]
    cases hlower : lowerPredicate d f op operand <;> simp [hlower]

mutual

/-- A filter is lowered exactly if all its predicates are well formed. -/
theorem exists_lower_iff (f : Filter) :
    (∃ part, lower s resource d f = .ok part) ↔ ∀ q ∈ predicates f, q.WellFormed s := by
  cases f with
  | group c children =>
    rw [lower, predicates, ← exists_lowerAll_iff children]
    cases lowerAll s resource d children <;> simp
  | predicate attr op operand => rw [exists_lower_predicate_iff, predicates, List.forall_mem_singleton]

theorem exists_lowerAll_iff (fs : List Filter) :
    (∃ parts, lowerAll s resource d fs = .ok parts) ↔ ∀ q ∈ predicatesAll fs, q.WellFormed s := by
  cases fs with
  | nil => simp [lowerAll, predicatesAll]
  | cons f fs =>
    rw [lowerAll, predicatesAll, List.forall_mem_append, ← exists_lower_iff f,
      ← exists_lowerAll_iff fs]
    cases lower s resource d f with
    | error p => simp
    | ok part => cases lowerAll s resource d fs <;> simp

end

mutual

/-- A filter is refused for the first fault among its predicates, from left to right. -/
theorem lower_eq_error_iff (f : Filter) :
    lower s resource d f = .error p ↔
      First (·.WellFormed s) (·.Fault s resource) (predicates f) p := by
  cases f with
  | group c children =>
    rw [lower, predicates, ← lowerAll_eq_error_iff children]
    cases lowerAll s resource d children <;> simp
  | predicate attr op operand =>
    rw [lower_predicate_eq_error_iff, predicates, first_cons, iff_self_or]
    exact fun h => absurd h.2 not_first_nil

theorem lowerAll_eq_error_iff (fs : List Filter) :
    lowerAll s resource d fs = .error p ↔
      First (·.WellFormed s) (·.Fault s resource) (predicatesAll fs) p := by
  cases fs with
  | nil => simp [lowerAll, predicatesAll, not_first_nil]
  | cons f fs =>
    rw [lowerAll, predicatesAll, first_append, ← lower_eq_error_iff f,
      ← lowerAll_eq_error_iff fs, ← exists_lower_iff f]
    cases lower s resource d f with
    | error p => simp
    | ok part => cases lowerAll s resource d fs <;> simp

end

mutual

/-- A lowered filter binds the values that its predicates count. -/
theorem length_params_lower {f : Filter} {part : Option Sql}
    (h : lower s resource d f = .ok part) :
    (part.toList.flatMap params).length = ((predicates f).map Predicate.paramCount).sum := by
  cases f with
  | group c children =>
    obtain ⟨parts, hparts, rfl⟩ := lower_group h
    rw [predicates, ← length_params_lowerAll hparts, joinGroup]
    split
    · next hempty => rw [List.isEmpty_iff.1 hempty]; rfl
    · simp [params_join]
  | predicate attr op operand =>
    obtain ⟨f, sql, -, hsql, rfl⟩ := lower_predicate h
    obtain ⟨vs, hvs, rfl⟩ := lowerPredicate_eq_ok_iff.1 hsql
    simp [predicates, Predicate.paramCount, params_written hvs, length_of_taken hvs]

theorem length_params_lowerAll {fs : List Filter} {parts : List Sql}
    (h : lowerAll s resource d fs = .ok parts) :
    (parts.flatMap params).length = ((predicatesAll fs).map Predicate.paramCount).sum := by
  cases fs with
  | nil =>
    cases h
    rfl
  | cons f fs =>
    obtain ⟨part, rest, hpart, hrest, rfl⟩ := lowerAll_cons h
    rw [predicatesAll, List.flatMap_append, List.length_append, length_params_lower hpart,
      length_params_lowerAll hrest, List.map_append, List.sum_append]

end

mutual

/-- The predicates of a filter are as many as it counts. -/
theorem length_predicates (f : Filter) : (predicates f).length = predicateCount f := by
  cases f with
  | group c children => rw [predicates, predicateCount, length_predicatesAll]
  | predicate attr op operand => rfl

theorem length_predicatesAll (fs : List Filter) :
    (predicatesAll fs).length = predicateCounts fs := by
  cases fs with
  | nil => rfl
  | cons f fs =>
    rw [predicatesAll, List.length_append, predicateCounts, length_predicates,
      length_predicatesAll]

end

/-- Every fault of an operand is one of the request. -/
theorem Operand.Fault.kind_error {f : Field} {op : Op} {demand : Demand} {operand : Operand}
    (h : operand.Fault f op demand p) : p.error.kind = .badRequest := by
  cases h with
  | item hvs =>
    obtain ⟨-, -, -, -, -, -, -, rfl⟩ := hvs
    rfl
  | _ => rfl

/-- Every fault of a predicate is one of the request. -/
theorem Predicate.Fault.kind_error {q : Predicate} (h : q.Fault s resource p) :
    p.error.kind = .badRequest := by
  cases h with
  | unknown => rfl
  | unfit _ h => exact h.kind_error

/-- A filter is lowered exactly if all of its predicates are well formed, and to nothing exactly if
it has none. What it is refused for otherwise is wrong with the request, and it is the problem of
the first predicate from the left that is not well formed. The condition binds as many values as the
predicates do together. -/
theorem lower_accepts (s : Schema) (resource : String) (d : Dialect) (f : Filter) :
    ((∃ part, lower s resource d f = .ok part) ↔ ∀ q ∈ predicates f, q.WellFormed s) ∧
    (∀ p, lower s resource d f = .error p ↔
      First (·.WellFormed s) (·.Fault s resource) (predicates f) p) ∧
    (∀ p, lower s resource d f = .error p → p.error.kind = .badRequest) ∧
    (lower s resource d f = .ok none ↔ predicateCount f = 0) ∧
    ∀ sql, lower s resource d f = .ok (some sql) →
      (params sql).length = ((predicates f).map Predicate.paramCount).sum := by
  refine ⟨exists_lower_iff f, fun p => lower_eq_error_iff f, fun p hp => ?_, ⟨fun h => ?_, fun h => ?_⟩,
    fun sql hsql => ?_⟩
  · obtain ⟨-, q, -, -, -, hq⟩ := (lower_eq_error_iff f).1 hp
    exact hq.kind_error
  · exact (lower_eq_none_iff h).1 rfl
  · -- Without predicates there is nothing that could be refused.
    have hnil : predicates f = [] := by
      rw [← List.length_eq_zero_iff, length_predicates, h]
    obtain ⟨part, hpart⟩ : ∃ part, lower s resource d f = .ok part :=
      (exists_lower_iff f).2 (by rw [hnil]; exact List.forall_mem_nil _)
    rw [hpart, (lower_eq_none_iff hpart).2 h]
  · simpa using length_params_lower hsql

end Tree

end Filter

end ResourceEngine
