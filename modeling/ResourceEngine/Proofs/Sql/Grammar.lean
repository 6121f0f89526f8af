import Mathlib.Data.List.Forall2
import ResourceEngine.Proofs.Sql.Condition
import ResourceEngine.Sql.Text

/-!
# The grammar of conditions

How a sequence of chunks is read as a condition. `OR` binds weakest, then `AND`, then the `NOT`
before a condition; a test of a term, a call of a function, a constant and a condition in
parentheses bind tightest. `Condition.ofSql?` reads a whole fragment. Its values are placeholders to
the reader, numbered from the left, so they are bound in the order of `Sql.params`.
-/

namespace ResourceEngine.Sql

/-- A chunk as a reader sees it. A value is a placeholder, known by its number. -/
inductive Lexeme where
  | token (t : Token)
  | ident (name : String)
  | func (name : String)
  | placeholder (n : Nat)
  | other

/-- The lexeme of a chunk that has `n` values before it. -/
def Chunk.lexeme (n : Nat) : Chunk → Lexeme
  | .token t => .token t
  | .ident name => .ident name
  | .func name => .func name
  | .param _ => .placeholder n
  | .raw _ | .number _ => .other

/-- The lexemes of a fragment that has `n` values before it. -/
def lexemes : Nat → Sql → List Lexeme
  | _, [] => []
  | n, c :: cs => c.lexeme n :: lexemes (c.paramsAfter n) cs

/-! ### Terms -/

mutual

/-- Reads a term, and gives what is left. The first argument bounds the depth of the reading. -/
def readTerm : Nat → List Lexeme → Option (Term × List Lexeme)
  | 0, _ => none
  | _ + 1, .ident name :: ts => some (.column name, ts)
  | _ + 1, .placeholder n :: ts => some (.placeholder n, ts)
  | m + 1, .func f :: .token .LPAREN :: ts =>
    match readTerms m ts with
    | some (us, .token .RPAREN :: ts) => some (.call f us, ts)
    | _ => none
  | _ + 1, _ => none

/-- Reads terms with commas between them. -/
def readTerms : Nat → List Lexeme → Option (List Term × List Lexeme)
  | 0, _ => none
  | m + 1, ts =>
    match readTerm m ts with
    | some (u, .token .COMMA :: ts) => (readTerms m ts).map fun (us, ts) => (u :: us, ts)
    | some (u, ts) => some ([u], ts)
    | none => none

end

/-! ### Tests -/

/-- The word of a test that `NOT` can stand before. -/
def Token.isInfix : Token → Bool
  | .IN | .LIKE | .ILIKE | .SIMILAR => true
  | _ => false

/-- Reads what a term is tested with, after one of these words. -/
def readInfix (m : Nat) (t : Term) : List Lexeme → Option (Condition × List Lexeme)
  | .token .IN :: .token .LPAREN :: ts =>
    match readTerms m ts with
    | some (us, .token .RPAREN :: ts) => some (.isIn t us, ts)
    | _ => none
  | .token .LIKE :: ts => (readTerm m ts).map fun (u, ts) => (.isLike .like t u, ts)
  | .token .ILIKE :: ts => (readTerm m ts).map fun (u, ts) => (.isLike .ilike t u, ts)
  | .token .SIMILAR :: .token .TO :: ts =>
    (readTerm m ts).map fun (u, ts) => (.isLike .similar t u, ts)
  | _ => none

/-- A term as a condition. -/
def Term.condition? : Term → Option Condition
  | .call f us => some (.ask (.call f us))
  | _ => none

/-- Reads the test of a term. A call stands for itself where no test follows. -/
def readTest (m : Nat) (t : Term) : List Lexeme → Option (Condition × List Lexeme)
  | .token .IS :: .token .NULL :: ts => some (.isNull t, ts)
  | .token .IS :: .token .NOT :: .token .NULL :: ts => some (.not (.isNull t), ts)
  | .token .NOT :: ts => (readInfix m t ts).map fun (c, ts) => (.not c, ts)
  | .token c :: ts =>
    if c.isComparison then (readTerm m ts).map fun (u, ts) => (.compare c t u, ts)
    else if c.isInfix then readInfix m t (.token c :: ts)
    else t.condition?.map fun e => (e, .token c :: ts)
  | ts => t.condition?.map fun e => (e, ts)

/-! ### Conditions -/

mutual

/-- Reads conditions with `OR` between them. -/
def readOr : Nat → List Lexeme → Option (Condition × List Lexeme)
  | 0, _ => none
  | m + 1, ts =>
    match readAnd m ts with
    | some (c, .token .OR :: ts) => (readOr m ts).map fun (e, ts) => (.or c e, ts)
    | r => r

/-- Reads conditions with `AND` between them. -/
def readAnd : Nat → List Lexeme → Option (Condition × List Lexeme)
  | 0, _ => none
  | m + 1, ts =>
    match readNot m ts with
    | some (c, .token .AND :: ts) => (readAnd m ts).map fun (e, ts) => (.and c e, ts)
    | r => r

/-- Reads a condition that may be denied. -/
def readNot : Nat → List Lexeme → Option (Condition × List Lexeme)
  | 0, _ => none
  | m + 1, .token .NOT :: ts => (readNot m ts).map fun (c, ts) => (.not c, ts)
  | m + 1, ts => readAtom m ts

/-- Reads a condition that nothing around it can part. -/
def readAtom : Nat → List Lexeme → Option (Condition × List Lexeme)
  | 0, _ => none
  | m + 1, .token .LPAREN :: ts =>
    match readOr m ts with
    | some (c, .token .RPAREN :: ts) => some (c, ts)
    | _ => none
  | _ + 1, .token .TRUE :: ts => some (.constant true, ts)
  | _ + 1, .token .FALSE :: ts => some (.constant false, ts)
  | m + 1, ts =>
    match readTerm m ts with
    | some (t, ts) => readTest m t ts
    | none => none

end

/-- The condition that a whole fragment is read as. -/
def Condition.ofSql? (s : Sql) : Option Condition :=
  match readOr (4 * s.length + 4) (lexemes 0 s) with
  | some (c, []) => some c
  | _ => none

/-! ### What fragments are read as -/

theorem lexemes_append (n : Nat) (s t : Sql) :
    lexemes n (s ++ t) = lexemes n s ++ lexemes (n + (params s).length) t := by
  induction s generalizing n with
  | nil => rfl
  | cons c s ih =>
    rw [List.cons_append, lexemes, ih, lexemes, List.cons_append]
    cases c with
    | param v => simp only [params_param, List.length_cons, Chunk.paramsAfter]; congr 3; omega
    | _ => rfl

/-- A condition can end where these lexemes follow. -/
def Closes : List Lexeme → Prop
  | [] | .token .AND :: _ | .token .OR :: _ | .token .RPAREN :: _ => True
  | _ => False

section Denoting

variable (D : Database) (row : String → Value)

/-- Wherever it stands, the fragment is read as a term with this value. -/
def TermDenotes (s : Sql) (v : Value) : Prop :=
  ∀ n, ∃ t,
    (∀ m rest, 2 * s.length ≤ m → readTerm m (lexemes n s ++ rest) = some (t, rest)) ∧
    ∀ before after, before.length = n → t.value D row (before ++ (params s ++ after)) = v

/-- Before a closing parenthesis, the fragment is read as terms with these values. -/
def TermsDenote (s : Sql) (vs : List Value) : Prop :=
  ∀ n, ∃ us,
    (∀ m rest, 2 * s.length + 1 ≤ m →
      readTerms m (lexemes n s ++ .token .RPAREN :: rest) = some (us, .token .RPAREN :: rest)) ∧
    ∀ before after, before.length = n →
      Term.values D row (before ++ (params s ++ after)) us = vs

/-- After a term with a value, the fragment is read as a test of it with this outcome. -/
def TestDenotes (read : Nat → Term → List Lexeme → Option (Condition × List Lexeme)) (v : Value)
    (s : Sql) (b : Truth) : Prop :=
  ∀ n, ∃ test : Term → Condition,
    (∀ m t rest, 2 * s.length ≤ m → read m t (lexemes n s ++ rest) = some (test t, rest)) ∧
    ∀ t before after, before.length = n → t.value D row (before ++ (params s ++ after)) = v →
      (test t).truth D row (before ++ (params s ++ after)) = b

/-- Wherever a condition can end after it, the fragment is read as one that `NOT` may stand before,
with this truth. -/
def Denotes (s : Sql) (b : Truth) : Prop :=
  ∀ n, ∃ c : Condition,
    (∀ m rest, Closes rest → 4 * s.length ≤ m →
      readNot m (lexemes n s ++ rest) = some (c, rest)) ∧
    ∀ before after, before.length = n → c.truth D row (before ++ (params s ++ after)) = b

variable {D row}

theorem termDenotes_column (name : String) : TermDenotes D row [.ident name] (row name) := by
  intro n
  refine ⟨.column name, ?_, fun before after _ => rfl⟩
  intro m rest hm
  obtain ⟨m, rfl⟩ : ∃ k, m = k + 1 := ⟨m - 1, by simp at hm; omega⟩
  rfl

theorem termDenotes_param (v : Value) : TermDenotes D row [.param v] v := by
  intro n
  refine ⟨.placeholder n, ?_, ?_⟩
  · intro m rest hm
    obtain ⟨m, rfl⟩ : ∃ k, m = k + 1 := ⟨m - 1, by simp at hm; omega⟩
    rfl
  · intro before after hn
    simp [Term.value, ← hn]

theorem termsDenote_single {s : Sql} {v : Value} (h : TermDenotes D row s v) :
    TermsDenote D row s [v] := by
  intro n
  obtain ⟨t, ht, hv⟩ := h n
  refine ⟨[t], ?_, ?_⟩
  · intro m rest hm
    obtain ⟨m, rfl⟩ : ∃ k, m = k + 1 := ⟨m - 1, by omega⟩
    rw [readTerms, ht m _ (by omega)]
  · intro before after hn
    rw [Term.values, Term.values, hv before after hn]

theorem termsDenote_cons {s t : Sql} {v : Value} {vs : List Value} (h : TermDenotes D row s v)
    (hs : TermsDenote D row t vs) : TermsDenote D row (s ++ .token .COMMA :: t) (v :: vs) := by
  intro n
  obtain ⟨u, hu, hv⟩ := h n
  obtain ⟨us, hus, hvs⟩ := hs (n + (params s).length)
  refine ⟨u :: us, ?_, ?_⟩
  · intro m rest hm
    rw [List.length_append, List.length_cons] at hm
    obtain ⟨m, rfl⟩ : ∃ k, m = k + 1 := ⟨m - 1, by omega⟩
    rw [lexemes_append, List.append_assoc, readTerms, hu m _ (by omega)]
    simp only [lexemes, Chunk.lexeme, Chunk.paramsAfter, List.cons_append]
    rw [hus m rest (by omega)]
    rfl
  · intro before after hn
    simp only [params_append, params_token, Term.values, List.append_assoc]
    rw [hv before _ hn, ← List.append_assoc, hvs (before ++ params s) after (by simp [hn])]

theorem termsDenote_paramList {vs : List Value} (h : vs ≠ []) :
    TermsDenote D row (paramList vs) vs := by
  induction vs with
  | nil => exact absurd rfl h
  | cons v vs ih =>
    cases vs with
    | nil => exact termsDenote_single (termDenotes_param v)
    | cons w vs => exact termsDenote_cons (termDenotes_param v) (ih (by simp))

/-- What follows the name of a function is read as its arguments. -/
theorem readTerm_call {s : Sql} {n : Nat} {us : List Term} (f : String)
    (h : ∀ m rest, 2 * s.length + 1 ≤ m →
      readTerms m (lexemes n s ++ .token .RPAREN :: rest) = some (us, .token .RPAREN :: rest))
    {m : Nat} (hm : 2 * (call f s).length ≤ m) (rest : List Lexeme) :
    readTerm m (lexemes n (call f s) ++ rest) = some (.call f us, rest) := by
  simp only [call, parens, List.length_cons, List.length_append, List.length_nil] at hm
  obtain ⟨m, rfl⟩ : ∃ k, m = k + 1 := ⟨m - 1, by omega⟩
  simp only [call, parens, lexemes, Chunk.lexeme, Chunk.paramsAfter, lexemes_append,
    List.cons_append, List.append_assoc, List.nil_append, readTerm]
  rw [h m rest (by omega)]

theorem termDenotes_call {s : Sql} {vs : List Value} (f : String) (h : TermsDenote D row s vs) :
    TermDenotes D row (call f s) (D.call f vs) := by
  intro n
  obtain ⟨us, hus, hvs⟩ := h n
  refine ⟨.call f us, fun m rest hm => readTerm_call f hus hm rest, ?_⟩
  intro before after hn
  rw [params_call, Term.value, hvs before after hn]

/-! ### Tests of terms -/

/-- What begins with a term is read as a test of it. -/
theorem readNot_eq_readTest {m : Nat} {ts rest : List Lexeme} {t : Term}
    (h : readTerm m ts = some (t, rest)) : readNot (m + 2) ts = readTest m t rest := by
  -- No term begins with a word or with what is neither a name nor a placeholder.
  match ts with
  | [] => cases m <;> simp [readTerm] at h
  | .token _ :: _ => cases m <;> simp [readTerm] at h
  | .other :: _ => cases m <;> simp [readTerm] at h
  | .ident _ :: _ | .func _ :: _ | .placeholder _ :: _ =>
    rw [readNot, readAtom, h]
    all_goals simp

theorem readTest_eq_readInfix {m : Nat} {t : Term} {w : Token} (hw : w.isInfix = true)
    (ts : List Lexeme) : readTest m t (.token w :: ts) = readInfix m t (.token w :: ts) := by
  cases w <;> simp_all [readTest, Token.isInfix, Token.isComparison]

/-- Nothing that may follow a condition begins a test. -/
theorem readTest_of_closes {rest : List Lexeme} (hrest : Closes rest) (m : Nat) (t : Term) :
    readTest m t rest = t.condition?.map fun e => (e, rest) := by
  match rest, hrest with
  | [], _ => rfl
  | .token .AND :: _, _ => rfl
  | .token .OR :: _, _ => rfl
  | .token .RPAREN :: _, _ => rfl

theorem lexemes_cons_token (n : Nat) (w : Token) (s : Sql) :
    lexemes n (.token w :: s) = .token w :: lexemes n s := rfl

/-- A term and a test of it are read as one condition. -/
theorem denotes_tested {s t : Sql} {v : Value} {b : Truth} (hs : TermDenotes D row s v)
    (ht : TestDenotes D row readTest v t b) (hne : t ≠ []) : Denotes D row (s ++ t) b := by
  intro n
  obtain ⟨x, hx, hv⟩ := hs n
  obtain ⟨test, hr, hb⟩ := ht (n + (params s).length)
  have hlen : 0 < t.length := List.length_pos_iff.2 hne
  refine ⟨test x, ?_, ?_⟩
  · intro m rest _ hm
    rw [List.length_append] at hm
    obtain ⟨m, rfl⟩ := Nat.exists_eq_add_of_le' (show 2 ≤ m by omega)
    rw [lexemes_append, List.append_assoc, readNot_eq_readTest (hx m _ (by omega))]
    exact hr m x rest (by omega)
  · intro before after hn
    have hvalue := hv before (params t ++ after) hn
    rw [params_append, List.append_assoc]
    rw [← List.append_assoc] at hvalue ⊢
    exact hb x (before ++ params s) after (by simp [hn]) hvalue

theorem testDenotes_compare {t : Sql} {v w : Value} {c : Token} (hc : c.isComparison = true)
    (ht : TermDenotes D row t w) :
    TestDenotes D row readTest v (.token c :: t) (D.compare c.accepts v w) := by
  intro n
  obtain ⟨y, hy, hw⟩ := ht n
  refine ⟨fun x => .compare c x y, ?_, ?_⟩
  · intro m x rest hm
    rw [List.length_cons] at hm
    rw [lexemes_cons_token, List.cons_append]
    cases c <;> simp_all [readTest, Token.isComparison, hy m rest (by omega)]
  · intro x before after hn hv
    rw [params_token] at hv ⊢
    rw [Condition.truth, hv, hw before after hn]

theorem testDenotes_isNull {v : Value} :
    TestDenotes D row readTest v [.token .IS, .token .NULL] (.ofBool v.isNull) := by
  intro n
  refine ⟨.isNull, fun m x rest _ => rfl, ?_⟩
  intro x before after _ hv
  rw [Condition.truth, hv]

theorem testDenotes_isNotNull {v : Value} :
    TestDenotes D row readTest v [.token .IS, .token .NOT, .token .NULL]
      (Truth.ofBool v.isNull).not := by
  intro n
  refine ⟨fun x => .not (.isNull x), fun m x rest _ => rfl, ?_⟩
  intro x before after _ hv
  rw [Condition.truth, Condition.truth, hv]

theorem testDenotes_not {t : Sql} {v : Value} {b : Truth} (ht : TestDenotes D row readInfix v t b) :
    TestDenotes D row readTest v (.token .NOT :: t) b.not := by
  intro n
  obtain ⟨test, hr, hb⟩ := ht n
  refine ⟨fun x => .not (test x), ?_, ?_⟩
  · intro m x rest hm
    rw [List.length_cons] at hm
    rw [lexemes_cons_token, List.cons_append, readTest, hr m x rest (by omega)]
    rfl
  · intro x before after hn hv
    rw [params_token] at hv ⊢
    rw [Condition.truth, hb x before after hn hv]

/-- A term and a test of it, which may be denied in between. -/
theorem denotes_test {s t : Sql} {v : Value} {w : Token} {b : Truth} (hw : w.isInfix = true)
    (hs : TermDenotes D row s v) (ht : TestDenotes D row readInfix v (.token w :: t) b)
    (negated : Bool) :
    Denotes D row (s ++ (if negated then [.token .NOT] else []) ++ .token w :: t)
      (if negated then b.not else b) := by
  cases negated with
  | false =>
    have hread : TestDenotes D row readTest v (.token w :: t) b := by
      intro n
      obtain ⟨test, hr, hb⟩ := ht n
      exact ⟨test, fun m x rest hm => (readTest_eq_readInfix hw _).trans (hr m x rest hm), hb⟩
    simpa using denotes_tested hs hread (by simp)
  | true => simpa using denotes_tested hs (testDenotes_not ht) (by simp)

/-- The word of a match with a pattern. -/
def Matcher.words : Matcher → List Token
  | .like => [.LIKE]
  | .ilike => [.ILIKE]
  | .similar => [.SIMILAR, .TO]

theorem testDenotes_match {t : Sql} {v w : Value} (k : Matcher) (ht : TermDenotes D row t w) :
    TestDenotes D row readInfix v (k.words.map Chunk.token ++ t) (D.matched k v w) := by
  intro n
  obtain ⟨y, hy, hw⟩ := ht n
  refine ⟨fun x => .isLike k x y, ?_, ?_⟩
  · intro m x rest hm
    rw [List.length_append] at hm
    cases k <;>
      simp only [Matcher.words, List.map_cons, List.map_nil, List.cons_append, List.nil_append,
        lexemes, Chunk.lexeme, Chunk.paramsAfter, readInfix] <;>
      rw [hy m rest (by omega)] <;> rfl
  · intro x before after hn hv
    have hp : params (k.words.map Chunk.token ++ t) = params t := by
      cases k <;> simp [Matcher.words]
    rw [hp] at hv ⊢
    rw [Condition.truth, hv, hw before after hn]

theorem testDenotes_isIn {v : Value} {ws : List Value} (h : ws ≠ []) :
    TestDenotes D row readInfix v (.token .IN :: parens (paramList ws))
      (.any (ws.map (D.compare Token.EQ.accepts v))) := by
  intro n
  have hread : TermsDenote D row (paramList ws) ws := termsDenote_paramList h
  obtain ⟨us, hus, hws⟩ := hread n
  refine ⟨fun x => .isIn x us, ?_, ?_⟩
  · intro m x rest hm
    simp only [parens, List.length_cons, List.length_append, List.length_nil] at hm
    simp only [parens, List.cons_append, List.append_assoc, List.nil_append, lexemes_append,
      lexemes, Chunk.lexeme, Chunk.paramsAfter, readInfix]
    rw [hus m rest (by omega)]
  · intro x before after hn hv
    simp only [params_token, params_parens] at hv ⊢
    have hmap : us.map (Term.value D row (before ++ (params (paramList ws) ++ after))) = ws := by
      rw [← Term.values_eq_map, hws before after hn]
    rw [Condition.truth, hv, ← hmap, List.map_map, hmap]
    rfl

/-! ### Conditions -/

theorem denotes_constant (b : Bool) :
    Denotes D row [.token (if b then .TRUE else .FALSE)] (.ofBool b) := by
  intro n
  refine ⟨.constant b, ?_, fun before after _ => rfl⟩
  intro m rest _ hm
  obtain ⟨m, rfl⟩ := Nat.exists_eq_add_of_le' (show 2 ≤ m by simp at hm; omega)
  cases b <;> rfl

/-- A call stands for itself as a condition. -/
theorem denotes_call {s : Sql} {vs : List Value} (f : String) (h : TermsDenote D row s vs) :
    Denotes D row (call f s) (D.call f vs).truth := by
  intro n
  obtain ⟨us, hus, hvs⟩ := h n
  refine ⟨.ask (.call f us), ?_, ?_⟩
  · intro m rest hrest hm
    have hlen : 2 ≤ m := by
      simp only [call, List.length_cons] at hm
      omega
    obtain ⟨m, rfl⟩ := Nat.exists_eq_add_of_le' hlen
    rw [readNot_eq_readTest (readTerm_call f hus (by omega) rest)]
    exact readTest_of_closes hrest m (.call f us)
  · intro before after hn
    rw [params_call, Condition.truth, Term.value, hvs before after hn]

theorem denotes_not {s : Sql} {b : Truth} (h : Denotes D row s b) :
    Denotes D row (.token .NOT :: s) b.not := by
  intro n
  obtain ⟨c, hc, hb⟩ := h n
  refine ⟨.not c, ?_, ?_⟩
  · intro m rest hrest hm
    rw [List.length_cons] at hm
    obtain ⟨m, rfl⟩ := Nat.exists_eq_add_of_le' (show 1 ≤ m by omega)
    simp only [lexemes, Chunk.lexeme, Chunk.paramsAfter, List.cons_append, readNot]
    rw [hc m rest hrest (by omega)]
    rfl
  · intro before after hn
    rw [params_token, Condition.truth, hb before after hn]

/-! ### Groups -/

theorem join_cons_cons (w : Token) (s t : Sql) (parts : List Sql) :
    join w (s :: t :: parts) = s ++ .token w :: join w (t :: parts) := rfl

/-- A reader of conditions with a word between them. It takes them from the reader of conditions
that may be denied, some levels below. -/
structure Joining where
  word : Token
  read : Nat → List Lexeme → Option (Condition × List Lexeme)
  level : Nat
  join : Condition → Condition → Condition
  connect : Truth → Truth → Truth
  unit : Truth
  closes : ∀ rest, Closes (.token word :: rest)
  last : ∀ {m ts c rest}, readNot m ts = some (c, .token .RPAREN :: rest) →
    read (m + (level + 1)) ts = some (c, .token .RPAREN :: rest)
  more : ∀ {m ts c rest}, readNot m ts = some (c, .token word :: rest) →
    read (m + (level + 1)) ts = (read (m + level) rest).map fun (e, ts) => (join c e, ts)
  truth_join : ∀ D row bound c e, (join c e).truth D row bound =
    connect (c.truth D row bound) (e.truth D row bound)
  connect_unit : ∀ b, connect b unit = b

/-- How conditions with `AND` between them are read. -/
def Joining.all : Joining where
  word := .AND
  read := readAnd
  level := 0
  join := .and
  connect := .and
  unit := .holds
  closes _ := trivial
  last h := by rw [readAnd, h]
  more h := by rw [readAnd, h]; rfl
  truth_join _ _ _ _ _ := rfl
  connect_unit := Truth.and_holds

/-- How conditions with `OR` between them are read. -/
def Joining.any : Joining where
  word := .OR
  read := readOr
  level := 1
  join := .or
  connect := .or
  unit := .fails
  closes _ := trivial
  last h := by rw [readOr, readAnd, h]
  more h := by rw [readOr, readAnd, h]
  truth_join _ _ _ _ _ := rfl
  connect_unit := Truth.or_fails

/-- Conditions with a word between them are read one after another, up to a closing parenthesis. -/
theorem Joining.read_join (j : Joining) {parts : List Sql} {bs : List Truth} (hparts : parts ≠ [])
    (h : List.Forall₂ (Denotes D row) parts bs) (n : Nat) :
    ∃ c : Condition,
      (∀ m rest, 4 * (Sql.join j.word parts).length + j.level + 1 ≤ m →
        j.read m (lexemes n (Sql.join j.word parts) ++ .token .RPAREN :: rest) =
          some (c, .token .RPAREN :: rest)) ∧
      ∀ before after, before.length = n →
        c.truth D row (before ++ (params (Sql.join j.word parts) ++ after)) =
          bs.foldr j.connect j.unit := by
  induction h generalizing n with
  | nil => exact absurd rfl hparts
  | @cons s b parts bs hs hrest ih =>
    obtain ⟨c, hc, hb⟩ := hs n
    cases hrest with
    | nil =>
      refine ⟨c, ?_, ?_⟩
      · intro m rest hm
        rw [Sql.join] at hm ⊢
        obtain ⟨m, rfl⟩ := Nat.exists_eq_add_of_le' (show j.level + 1 ≤ m by omega)
        exact j.last (hc m _ trivial (by omega))
      · intro before after hn
        rw [Sql.join, hb before after hn]
        exact (j.connect_unit b).symm
    | @cons t _ parts _ _ _ =>
      -- The values of the first condition come before those of the others.
      obtain ⟨e, he, hbs⟩ := ih (List.cons_ne_nil _ _) (n + (params s).length)
      refine ⟨j.join c e, ?_, ?_⟩
      · intro m rest hm
        rw [join_cons_cons, List.length_append, List.length_cons] at hm
        obtain ⟨m, rfl⟩ := Nat.exists_eq_add_of_le' (show j.level + 1 ≤ m by omega)
        rw [join_cons_cons, lexemes_append, List.append_assoc, lexemes_cons_token,
          List.cons_append, j.more (hc m _ (j.closes _) (by omega)),
          he (m + j.level) rest (by omega)]
        rfl
      · intro before after hn
        rw [join_cons_cons, params_append, params_token, List.append_assoc, j.truth_join,
          hb before _ hn, ← List.append_assoc, hbs (before ++ params s) after (by simp [hn])]
        rfl

/-- What is read between parentheses stands as one condition. -/
theorem denotes_parens {s : Sql} {b : Truth}
    (h : ∀ n, ∃ c : Condition,
      (∀ m rest, 4 * s.length + 2 ≤ m →
        readOr m (lexemes n s ++ .token .RPAREN :: rest) = some (c, .token .RPAREN :: rest)) ∧
      ∀ before after, before.length = n → c.truth D row (before ++ (params s ++ after)) = b) :
    Denotes D row (parens s) b := by
  intro n
  obtain ⟨c, hc, hb⟩ := h n
  refine ⟨c, ?_, ?_⟩
  · intro m rest _ hm
    simp only [parens, List.length_cons, List.length_append, List.length_nil] at hm
    obtain ⟨m, rfl⟩ := Nat.exists_eq_add_of_le' (show 2 ≤ m by omega)
    simp only [parens, List.cons_append, List.append_assoc, List.nil_append, lexemes_append,
      lexemes, Chunk.lexeme, Chunk.paramsAfter]
    rw [readNot, readAtom, hc m rest (by omega)]
    simp
  · intro before after hn
    rw [params_parens, hb before after hn]

theorem denotes_all {parts : List Sql} {bs : List Truth} (hparts : parts ≠ [])
    (h : List.Forall₂ (Denotes D row) parts bs) :
    Denotes D row (parens (join .AND parts)) (.all bs) := by
  refine denotes_parens fun n => ?_
  obtain ⟨c, hc, hb⟩ := Joining.all.read_join hparts h n
  refine ⟨c, ?_, hb⟩
  intro m rest hm
  obtain ⟨m, rfl⟩ := Nat.exists_eq_add_of_le' (show 1 ≤ m by omega)
  have hread := hc m rest (by simp only [Joining.all]; omega)
  simp only [Joining.all] at hread
  rw [readOr, hread]

theorem denotes_any {parts : List Sql} {bs : List Truth} (hparts : parts ≠ [])
    (h : List.Forall₂ (Denotes D row) parts bs) :
    Denotes D row (parens (join .OR parts)) (.any bs) :=
  denotes_parens fun n => Joining.any.read_join hparts h n

/-- A fragment that denotes a truth is read to its end, and is true so with its own values. -/
theorem Denotes.ofSql? {s : Sql} {b : Truth} (h : Denotes D row s b) :
    ∃ c, Condition.ofSql? s = some c ∧ c.truth D row (params s) = b := by
  obtain ⟨c, hc, hb⟩ := h 0
  refine ⟨c, ?_, by simpa using hb [] [] rfl⟩
  have hread := hc (4 * s.length + 2) [] trivial (by omega)
  rw [List.append_nil] at hread
  rw [Condition.ofSql?, readOr, readAnd, hread]

end Denoting
end ResourceEngine.Sql
