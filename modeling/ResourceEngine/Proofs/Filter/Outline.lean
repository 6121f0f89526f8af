import ResourceEngine.Proofs.Filter.Meaning
import ResourceEngine.Proofs.Sql.Clauses
import ResourceEngine.Proofs.Sql.Outline

/-!
# Outlines of filters

Filters of the same shape differ in operands alone. Lowered, they have the same outline, so what is
asked for changes no text. The names in a lowered filter are those of fields, and its tokens are
those of conditions, so it begins no clause of a statement.
-/

namespace ResourceEngine.Filter

open Sql

/-- Both operands are single values, or lists of one length. -/
def Operand.sameShape : Operand → Operand → Bool
  | .scalar _, .scalar _ => true
  | .list vs, .list ws => vs.length == ws.length
  | _, _ => false

mutual

/-- The filters have the same groups, and the same attributes and operators in them. Operands are
alike as well, but for operators that look at the attribute alone. -/
def sameShape : Filter → Filter → Bool
  | .group c fs, .group c' gs => c == c' && sameShapes fs gs
  | .predicate attr op x, .predicate attr' op' y =>
    attr == attr' && op == op' && (op.isUnary || x.sameShape y)
  | _, _ => false

/-- As many filters, one by one of the same shape. -/
def sameShapes : List Filter → List Filter → Bool
  | [], [] => true
  | f :: fs, g :: gs => sameShape f g && sameShapes fs gs
  | _, _ => false

end

/-- A function that is run along a list keeps its length. -/
theorem length_of_mapM {α β ε : Type} {g : α → Except ε β} {as : List α} {bs : List β}
    (h : as.mapM g = .ok bs) : bs.length = as.length := by
  induction as generalizing bs with
  | nil => cases h; rfl
  | cons a as ih =>
    rw [List.mapM_cons] at h
    obtain ⟨b, -, h⟩ := exists_of_bind h
    obtain ⟨cs, hcs, h⟩ := exists_of_bind h
    cases h
    rw [List.length_cons, List.length_cons, ih hcs]

/-! ### Outlines -/

section

variable {d : Dialect} {f : Field} {op : Op}

@[simp] theorem outline_infixed (negated : Bool) (left : Sql) (operator : Token) (right : Sql) :
    outline (infixed negated left operator right) =
      infixed negated (outline left) operator (outline right) := by
  cases negated <;> simp [infixed, Chunk.blank]

/-- The outline of a comparison that ignores case is that of its operands. -/
theorem outline_caseless (negated : Bool) (left right : Sql) :
    outline (caseless d negated left right) =
      caseless d negated (outline left) (outline right) := by
  cases d <;> simp [caseless]

/-- The outline of a match leaves the pattern out. -/
theorem outline_similarity (negated : Bool) (column : String) (pattern : Value) :
    outline (similarity d negated column pattern) = similarity d negated column .null := by
  cases d <;> cases negated <;> simp [similarity, Chunk.blank]

/-- Lowered from operands of one shape, a predicate has one outline. -/
theorem outline_lowerPredicate {x y : Operand} {a b : Sql}
    (h : op.isUnary = true ∨ x.sameShape y = true) (ha : lowerPredicate d f op x = .ok a)
    (hb : lowerPredicate d f op y = .ok b) : outline a = outline b := by
  -- The cases go by what an operator takes its values from. Lists are the ones whose shape is seen
  -- in the text, by the number of parameters.
  cases op with
  | isNull | isNotNull =>
    cases ha
    cases hb
    rfl
  | isIn | notIn =>
    obtain ⟨vs, hvs, ha⟩ := exists_of_bind ha
    obtain ⟨vs', hvs', hb⟩ := exists_of_bind hb
    rw [eq_of_listOf hvs, eq_of_listOf hvs'] at h
    have hlength : vs.length = vs'.length := by simpa [Op.isUnary, Operand.sameShape] using h
    cases vs with
    | nil =>
      obtain rfl := List.length_eq_zero_iff.1 hlength.symm
      cases ha
      cases hb
      rfl
    | cons v vs =>
      cases vs' with
      | nil => cases hlength
      | cons v' vs' =>
        obtain ⟨ws, hws, ha⟩ := exists_of_bind ha
        obtain ⟨ws', hws', hb⟩ := exists_of_bind hb
        cases ha
        cases hb
        rw [outline_infixed, outline_infixed, outline_parens, outline_parens, outline_paramList,
          outline_paramList, length_of_mapM hws, length_of_mapM hws', hlength]
  | like | notLike =>
    obtain ⟨pattern, -, ha⟩ := exists_of_bind ha
    obtain ⟨pattern', -, hb⟩ := exists_of_bind hb
    cases ha
    cases hb
    rfl
  | ilike | notIlike | unaccentIlike | notUnaccentIlike =>
    obtain ⟨pattern, -, ha⟩ := exists_of_bind ha
    obtain ⟨pattern', -, hb⟩ := exists_of_bind hb
    cases ha
    cases hb
    simp [outline_caseless]
  | similar | notSimilar =>
    obtain ⟨pattern, -, ha⟩ := exists_of_bind ha
    obtain ⟨pattern', -, hb⟩ := exists_of_bind hb
    simp only at ha hb
    split at ha
    · exact nomatch ha
    split at hb
    · exact nomatch hb
    cases ha
    cases hb
    rw [outline_similarity, outline_similarity]
  | eq | neq | gt | gte | lt | lte =>
    obtain ⟨v, -, ha⟩ := exists_of_bind ha
    obtain ⟨w, -, ha⟩ := exists_of_bind ha
    obtain ⟨v', -, hb⟩ := exists_of_bind hb
    obtain ⟨w', -, hb⟩ := exists_of_bind hb
    cases ha
    cases hb
    rfl

end

/-- Groups of parts with the same outlines have the same outline. -/
theorem outline_joinGroup {c : Combinator} {parts parts' : List Sql}
    (h : parts.map outline = parts'.map outline) :
    (joinGroup c parts).map outline = (joinGroup c parts').map outline := by
  have hlength : parts.length = parts'.length := by simpa using congrArg List.length h
  cases parts with
  | nil =>
    rw [List.length_eq_zero_iff.1 hlength.symm]
  | cons p parts =>
    cases parts' with
    | nil => cases hlength
    | cons p' parts' =>
      simp only [joinGroup, List.isEmpty_cons, Bool.false_eq_true, if_false, Option.map_some,
        outline_parens, outline_join_congr h]

section Tree

variable {s : Schema} {resource : String} {d : Dialect}

mutual

/-- Filters of the same shape have lowered the same outline. -/
theorem outline_lower {f g : Filter} {part part' : Option Sql} (h : sameShape f g = true)
    (hf : lower s resource d f = .ok part) (hg : lower s resource d g = .ok part') :
    part.map outline = part'.map outline := by
  cases f with
  | group c fs =>
    cases g with
    | predicate attr op y => cases h
    | group c' gs =>
      simp only [sameShape, Bool.and_eq_true, beq_iff_eq] at h
      obtain ⟨rfl, h⟩ := h
      obtain ⟨parts, hparts, rfl⟩ := lower_group hf
      obtain ⟨parts', hparts', rfl⟩ := lower_group hg
      exact outline_joinGroup (outline_lowerAll h hparts hparts')
  | predicate attr op x =>
    cases g with
    | group c' gs => cases h
    | predicate attr' op' y =>
      simp only [sameShape, Bool.and_eq_true, Bool.or_eq_true, beq_iff_eq] at h
      obtain ⟨⟨rfl, rfl⟩, h⟩ := h
      obtain ⟨field, sql, hfield, hsql, rfl⟩ := lower_predicate hf
      obtain ⟨field', sql', hfield', hsql', rfl⟩ := lower_predicate hg
      obtain rfl := Option.some.inj (hfield.symm.trans hfield')
      exact congrArg some (outline_lowerPredicate h hsql hsql')

theorem outline_lowerAll {fs gs : List Filter} {parts parts' : List Sql}
    (h : sameShapes fs gs = true) (hf : lowerAll s resource d fs = .ok parts)
    (hg : lowerAll s resource d gs = .ok parts') : parts.map outline = parts'.map outline := by
  cases fs with
  | nil =>
    cases gs with
    | cons g gs => cases h
    | nil =>
      cases hf
      cases hg
      rfl
  | cons f fs =>
    cases gs with
    | nil => cases h
    | cons g gs =>
      simp only [sameShapes, Bool.and_eq_true] at h
      obtain ⟨part, rest, hpart, hrest, rfl⟩ := lowerAll_cons hf
      obtain ⟨part', rest', hpart', hrest', rfl⟩ := lowerAll_cons hg
      rw [List.map_append, List.map_append, ← Option.toList_map, ← Option.toList_map,
        outline_lower h.1 hpart hpart', outline_lowerAll h.2 hrest hrest']

end

/-! ### Names and tokens -/

/-- The token is one of conditions. -/
def isConditional : Token → Bool
  | .AND | .OR | .NOT | .IN | .IS | .NULL | .LIKE | .ILIKE | .SIMILAR | .TO | .TRUE | .FALSE
  | .LPAREN | .RPAREN | .COMMA => true
  | t => t.isComparison

/-- The fragment has no raw text, no names but these, and no tokens but those of conditions. -/
structure Conditional (names : List String) (sql : Sql) : Prop where
  isFrom : IsFrom names sql
  uses : Uses isConditional sql

section

variable {names : List String} {negated : Bool} {left right : Sql}

theorem conditional_param (v : Value) : Conditional names [.param v] := ⟨by simp, by simp⟩

theorem conditional_ident {name : String} (hname : name ∈ names) :
    Conditional names [.ident name] := ⟨by simpa using hname, by simp⟩

theorem conditional_parens (h : Conditional names left) : Conditional names (parens left) :=
  ⟨isFrom_parens.2 h.isFrom, uses_parens rfl rfl h.uses⟩

theorem conditional_call {name : String} (hname : isWordText name = true)
    (h : Conditional names left) : Conditional names (call name left) :=
  ⟨(isFrom_call hname).2 h.isFrom, uses_call rfl rfl name h.uses⟩

/-- A comparison of conditional operands is conditional, denied or not. -/
theorem conditional_infixed {operator : Token} (hl : Conditional names left)
    (hoperator : isConditional operator = true) (hr : Conditional names right) :
    Conditional names (infixed negated left operator right) := by
  have hnot : isConditional .NOT = true := rfl
  cases negated <;>
    exact ⟨by simp [infixed, hl.isFrom, hr.isFrom],
      by simp [infixed, hl.uses, hr.uses, hoperator, hnot]⟩

/-- A comparison that ignores case is conditional in both dialects. -/
theorem conditional_caseless (hl : Conditional names left) (hr : Conditional names right) :
    Conditional names (caseless d negated left right) := by
  have hlower : isWordText "lower" = true := rfl
  cases d with
  | postgresql => exact conditional_infixed hl rfl hr
  | sqlite =>
    exact conditional_infixed (conditional_call hlower hl) rfl (conditional_call hlower hr)

/-- A match against a pattern with wildcards is conditional in both dialects. -/
theorem conditional_similarity {column : String} (hcolumn : column ∈ names) (v : Value) :
    Conditional names (similarity d negated column v) := by
  have hto : isConditional .TO = true := rfl
  have hnot : isConditional .NOT = true := rfl
  have hcomma : isConditional .COMMA = true := rfl
  have hsimilar : isWordText "similar_to" = true := rfl
  cases d with
  | postgresql =>
    exact conditional_infixed (conditional_ident hcolumn) rfl ⟨by simp, by simp [hto]⟩
  | sqlite =>
    have harguments : Conditional names [.ident column, .token .COMMA, .param v] :=
      ⟨by simpa using hcolumn, by simp [hcomma]⟩
    have hcall := conditional_call hsimilar harguments
    cases negated <;> exact ⟨by simp [similarity, hcall.isFrom],
      by simp [similarity, hcall.uses, hnot]⟩

/-- A lowered predicate names its field only. -/
theorem conditional_lowerPredicate {f : Field} {op : Op} {operand : Operand} {sql : Sql}
    (hf : f.name ∈ names) (h : lowerPredicate d f op operand = .ok sql) :
    Conditional names sql := by
  have hcolumn := conditional_ident hf
  have hunaccent : isWordText "unaccent" = true := rfl
  -- Whatever the operator, the values that have been taken become parameters, so only the name of
  -- the field is asked about.
  cases op with
  | isNull | isNotNull =>
    cases h
    exact ⟨by simpa using hf, by simp; decide⟩
  | isIn | notIn =>
    obtain ⟨vs, -, h⟩ := exists_of_bind h
    cases vs with
    | nil =>
      cases h
      exact ⟨by simp, by simp; decide⟩
    | cons v vs =>
      obtain ⟨ws, -, h⟩ := exists_of_bind h
      cases h
      exact conditional_infixed hcolumn rfl
        (conditional_parens ⟨isFrom_paramList ws, uses_paramList rfl ws⟩)
  | like | notLike =>
    obtain ⟨pattern, -, h⟩ := exists_of_bind h
    cases h
    exact conditional_infixed hcolumn rfl (conditional_param _)
  | ilike | notIlike =>
    obtain ⟨pattern, -, h⟩ := exists_of_bind h
    cases h
    exact conditional_caseless hcolumn (conditional_param _)
  | unaccentIlike | notUnaccentIlike =>
    obtain ⟨pattern, -, h⟩ := exists_of_bind h
    cases h
    exact conditional_caseless (conditional_call hunaccent hcolumn)
      (conditional_call hunaccent (conditional_param _))
  | similar | notSimilar =>
    obtain ⟨pattern, -, h⟩ := exists_of_bind h
    simp only at h
    split at h
    · exact nomatch h
    cases h
    exact conditional_similarity hf _
  | eq | neq | gt | gte | lt | lte =>
    obtain ⟨v, -, h⟩ := exists_of_bind h
    obtain ⟨w, -, h⟩ := exists_of_bind h
    cases h
    exact ⟨by simpa using hf, by simp; decide⟩

end

mutual

/-- The names in a lowered filter are those of fields, and its tokens those of conditions. -/
theorem conditional_lower {f : Filter} {sql : Sql} (h : lower s resource d f = .ok (some sql)) :
    Conditional s.columns sql := by
  cases f with
  | group c fs =>
    obtain ⟨parts, hparts, hsql⟩ := lower_group h
    unfold joinGroup at hsql
    split_ifs at hsql
    cases hsql
    have hall := conditional_lowerAll hparts
    have htoken : isConditional c.token = true := by cases c <;> rfl
    exact conditional_parens ⟨isFrom_join fun part hpart => (hall part hpart).isFrom,
      uses_join htoken fun part hpart => (hall part hpart).uses⟩
  | predicate attr op operand =>
    obtain ⟨field, sql', hfield, hsql, heq⟩ := lower_predicate h
    cases heq
    exact conditional_lowerPredicate (List.mem_map_of_mem (List.mem_of_find?_eq_some hfield)) hsql

theorem conditional_lowerAll {fs : List Filter} {parts : List Sql}
    (h : lowerAll s resource d fs = .ok parts) : ∀ sql ∈ parts, Conditional s.columns sql := by
  cases fs with
  | nil =>
    cases h
    exact List.forall_mem_nil _
  | cons f fs =>
    obtain ⟨part, rest, hpart, hrest, rfl⟩ := lowerAll_cons h
    rw [List.forall_mem_append]
    refine ⟨fun sql hsql => ?_, conditional_lowerAll hrest⟩
    rw [Option.mem_toList] at hsql
    subst hsql
    exact conditional_lower hpart

end

end Tree

end ResourceEngine.Filter
