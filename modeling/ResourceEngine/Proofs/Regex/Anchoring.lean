import ResourceEngine.Proofs.Regex.Grouping
import ResourceEngine.Proofs.Regex.Reach
import ResourceEngine.SimilarTo

/-!
# Anchored patterns

The expression of a pattern has to match a whole text only if the group between its anchors is
closed by the last bracket. In a pattern without bracketed classes this is so exactly if its own
brackets are balanced.
-/

namespace ResourceEngine.SimilarTo

open Regex

/-- The modes of an expression between its anchors. -/
def modes : Flags := { Flags.initial with dotAll := true }

/-- What stands before the group between the anchors. -/
def outside : Frame :=
  ⟨[], [Part.assertion .textStart, Part.empty], modes, none⟩

/-- The reader where the group between the anchors begins. -/
def inside : Reader := ⟨[], [], [], modes, 0, []⟩

/-- What stands in the expression of a pattern after the bracket that closes the group between the
anchors. Three pieces stand before the group. -/
def afterGroup? (pattern : List Char) : Option (List Char) :=
  (inside.toClosing? ((expression pattern).length - 3) (body false pattern ++ ")$".toList)).map
    (·.2)

/-- How many groups a pattern leaves open, given how many are open before it; `none` if it closes
more of them. A character after a backslash is no bracket. -/
def openGroups? : Nat → List Char → Option Nat
  | d, [] => some d
  | d, '\\' :: _ :: cs => openGroups? d cs
  | d, '(' :: cs => openGroups? (d + 1) cs
  | 0, ')' :: _ => none
  | d + 1, ')' :: cs => openGroups? d cs
  | d, _ :: cs => openGroups? d cs

/-! ### The brackets of a pattern -/

theorem openGroups?_cons_of_inert {c : Char} (hc : isInert c) (d : Nat) (cs : List Char) :
    openGroups? d (c :: cs) = openGroups? d cs := by
  unfold isInert at hc
  rw [openGroups?] <;> simp_all

theorem passes_escape (c : Char) (cs : List Char) : Passes (escape c ++ cs) cs := by
  unfold escape
  split
  next => exact .escaped c (.refl cs)
  next hc =>
    exact .cons (isInert_of (fun c => !isMeta c) (by simpa using hc) (by decide)) (.refl cs)

theorem body_cons {c : Char} (h₁ : c ≠ '%') (h₂ : c ≠ '_') (h₃ : c ≠ '\\') (h₄ : c ≠ '[')
    (cs : List Char) :
    body false (c :: cs) =
      if isOperator c then c :: body false cs else escape c ++ body false cs := by
  rw [body] <;> simp_all

/-- A character of a pattern that is no bracket gives none. -/
theorem passes_body_cons {c : Char} (hc : isInert c) (cs tail : List Char) :
    Passes (body false (c :: cs) ++ tail) (body false cs ++ tail) := by
  by_cases h₁ : c = '%'
  · subst h₁
    exact .cons rfl (.cons rfl (.refl _))
  by_cases h₂ : c = '_'
  · subst h₂
    exact .cons rfl (.refl _)
  have hne : c ≠ '\\' ∧ c ≠ '[' := by
    constructor <;> rintro rfl <;> exact absurd hc (by decide)
  rw [body_cons h₁ h₂ hne.1 hne.2]
  split
  · exact .cons hc (.refl _)
  · rw [List.append_assoc]
    exact passes_escape c _

theorem head?_escape (c : Char) (cs : List Char) : (escape c ++ cs).head? ≠ some '?' := by
  unfold escape
  split
  next => simp
  next hc =>
    rintro hhead
    obtain rfl : c = '?' := by simpa using hhead
    exact hc (by decide)

theorem head?_body {cs : List Char} (h : cs.head? ≠ some '?') :
    (body false cs ++ ")$".toList).head? ≠ some '?' := by
  rcases cs with _ | ⟨c, cs⟩
  · simp [body]
  unfold body
  split
  · simp
  · simp_all
  · simp
  · simp
  · rw [List.append_assoc]
    exact head?_escape _ _
  · simp
  · simp
  · split
    · simp_all
    · rw [List.append_assoc]
      exact head?_escape _ _

theorem isPlain_body {pattern : List Char} (h : isPlain pattern) :
    isPlain (body false pattern ++ ")$".toList) := by
  induction pattern using isPlain.induct with
  | case1 => rfl
  | case2 c cs ih =>
    rw [isPlain] at h
    rw [body, List.append_assoc, (passes_escape c _).isPlain]
    exact ih h
  | case3 => simp [isPlain] at h
  | case4 => simp [isPlain] at h
  | case5 c cs h₁ h₂ h₃ ih =>
    by_cases hopen : c = '('
    · subst hopen
      obtain ⟨hhead, hrest⟩ := (isPlain_cons_paren cs).1 h
      exact (isPlain_cons_paren _).2 ⟨head?_body hhead, ih hrest⟩
    by_cases hclose : c = ')'
    · subst hclose
      exact ih h
    by_cases hslash : c = '\\'
    · subst hslash
      cases cs with
      | nil => rfl
      | cons e cs => exact absurd rfl (h₁ e cs rfl)
    have hinert : isInert c := by simp_all [isInert]
    rw [(passes_body_cons hinert cs _).isPlain]
    exact ih (isPlain_cons_of_inert hinert cs ▸ h)

/-- The brackets of a pattern are those of the group between the anchors. -/
theorem afterClosing?_body {pattern : List Char} (h : isPlain pattern) (d : Nat) :
    match openGroups? d pattern with
    | some e => afterClosing? d (body false pattern ++ ")$".toList) = afterClosing? e ")$".toList
    | none => ∃ before, afterClosing? d (body false pattern ++ ")$".toList) =
        some (before ++ ")$".toList) := by
  induction d, pattern using openGroups?.induct with
  | case1 d => rfl
  | case2 d c cs ih =>
    rw [isPlain] at h
    rw [openGroups?, body, List.append_assoc, (passes_escape c _).afterClosing?]
    exact ih h
  | case3 d cs ih => exact ih ((isPlain_cons_paren cs).1 h).2
  | case4 cs => exact ⟨body false cs, rfl⟩
  | case5 d cs ih => exact ih h
  | case6 d c cs h₁ h₂ h₃ h₄ ih =>
    by_cases hslash : c = '\\'
    · subst hslash
      cases cs with
      | nil => rfl
      | cons e cs => exact absurd rfl (h₁ e cs rfl)
    have hclose : c ≠ ')' := by
      rintro rfl
      cases d with
      | zero => exact h₃ rfl rfl
      | succ d => exact h₄ d rfl rfl
    have hclass : c ≠ '[' := by
      rintro rfl
      simp [isPlain] at h
    -- The character is none of those above: it stands for itself, and opens and closes nothing.
    have hinert : isInert c := by simp_all [isInert]
    rw [openGroups?_cons_of_inert hinert, (passes_body_cons hinert cs _).afterClosing?]
    exact ih (isPlain_cons_of_inert hinert cs ▸ h)

/-- An expression is read up to the group between its anchors. -/
theorem run?_expression (n : Nat) (cs : List Char) :
    Reader.start.run? (n + 3) ("(?s)^(?:".toList ++ cs) = (inside.under [outside]).run? n cs := rfl

/-- Only the anchor is left to be read after the closed group. -/
theorem regex_of_run? {closed m : Reader} {k : Nat}
    (hrun : Reader.run? k (closed.leave outside) ['$'] = some m) :
    m.content.regex = anchored closed.content.regex := by
  cases k with
  | zero => exact nomatch hrun
  | succ k =>
    obtain rfl : (closed.leave outside).push (Part.assertion .textEnd) = m := by
      cases k <;> exact Option.some.inj hrun
    rfl

/-- The expression of a pattern is a group that is closed, and the anchors around it if it is closed
by the last bracket. -/
theorem exists_closed {pattern : String} {r : Regex} (hr : compile? pattern = some r) :
    ∃ closed rest, inside.toClosing? ((expression pattern.toList).length - 3)
        (body false pattern.toList ++ ")$".toList) = some (closed, rest) ∧
      (rest = ['$'] → r = anchored closed.content.regex) := by
  unfold compile? ofText? at hr
  simp only [Option.bind_eq_bind, Option.bind_eq_some_iff] at hr
  obtain ⟨m, hrun, hr⟩ := hr
  have hexpression : expression pattern.toList =
      "(?s)^(?:".toList ++ (body false pattern.toList ++ ")$".toList) := List.append_assoc ..
  obtain ⟨n, hn⟩ : ∃ n, (expression pattern.toList).length = n + 3 :=
    Nat.exists_eq_add_of_le' (by simp [hexpression])
  rw [hn, hexpression, run?_expression] at hrun
  rw [hn, Nat.add_sub_cancel]
  split at hr
  next hframes =>
    obtain ⟨closed, rest, k, hclosed, hrun⟩ :=
      Reader.exists_toClosing? hrun (List.isEmpty_iff.1 hframes)
    refine ⟨closed, rest, hclosed, ?_⟩
    rintro rfl
    split at hr <;> cases hr
    exact regex_of_run? hrun
  next => exact nomatch hr

/-- Where a pattern has to match the whole text. In the expression of a pattern that is taken, some
bracket closes the group between the anchors. If that is the last bracket, every match goes from the
start of the text to its end. In a pattern without bracketed classes and extensions of groups, it is
the last one exactly if the brackets of the pattern are balanced; and no group is left open in such
a pattern. -/
theorem matches_whole {pattern : String} {r : Regex} (hr : compile? pattern = some r) :
    (∃ rest, afterGroup? pattern.toList = some rest) ∧
    (afterGroup? pattern.toList = some ['$'] → ∀ text,
      (∀ i j, Matches r text i j → i = 0 ∧ j = text.length) ∧
      (r.isMatch text ↔ Matches r text 0 text.length)) ∧
    (isPlain pattern.toList →
      (afterGroup? pattern.toList = some ['$'] ↔ openGroups? 0 pattern.toList = some 0) ∧
      ∀ d, openGroups? 0 pattern.toList ≠ some (d + 1)) := by
  obtain ⟨closed, rest, hclosed, hlast⟩ := exists_closed hr
  have hafter : afterGroup? pattern.toList = some rest := by rw [afterGroup?, hclosed]; rfl
  refine ⟨⟨rest, hafter⟩, ?_, ?_⟩
  · intro hend text
    rw [hlast (Option.some.inj (hafter.symm.trans hend))]
    exact ⟨fun i j => matches_anchored, isMatch_anchored⟩
  · intro hplain
    -- A plain pattern has no class, so it does not matter that brackets in classes are no groups.
    have hrest : afterClosing? 0 (body false pattern.toList ++ ")$".toList) = some rest :=
      Reader.afterClosing?_of_toClosing? ⟨rfl, List.forall_mem_nil _⟩ (isPlain_body hplain) hclosed
    have hbody := afterClosing?_body hplain 0
    rw [hrest] at hbody
    rw [hafter]
    cases hopen : openGroups? 0 pattern.toList with
    | none =>
      simp only [hopen, Option.some.injEq] at hbody
      obtain ⟨before, rfl⟩ := hbody
      cases before <;> simp
    | some e =>
      simp only [hopen] at hbody
      cases e with
      | zero => exact ⟨iff_of_true hbody rfl, by simp⟩
      | succ e => exact nomatch hbody

/-- An alternation in a group of its own is matched by whole texts only. -/
theorem matches_whole_alternation :
    ∃ r, compile? "(b|d)+" = some r ∧ openGroups? 0 "(b|d)+".toList = some 0 ∧
      r.isMatch "bdb".toList = true ∧ ∀ text i j, Matches r text i j → i = 0 ∧ j = text.length := by
  have hr : compile? "(b|d)+" = some
      (.seq (.assertion .textStart) (.seq
        (.times (.capture 1 (.set false [⟨'b', 'b'⟩, ⟨'d', 'd'⟩])) 1 none true)
        (.assertion .textEnd))) := by decide +kernel
  obtain ⟨-, hlast, hplain⟩ := matches_whole hr
  have hclosed := (hplain (by decide +kernel)).1.2 (by decide +kernel)
  exact ⟨_, hr, by decide +kernel, by decide +kernel, fun text => (hlast hclosed text).1⟩

/-- A pattern that closes the group between the anchors is taken, and finds a part of a text. -/
theorem matches_part :
    ∃ r, compile? "a)|(b" = some r ∧ openGroups? 0 "a)|(b".toList = none ∧
      afterGroup? "a)|(b".toList = some "|(b)$".toList ∧ Matches r "ax".toList 0 1 ∧
      r.isMatch "ax".toList = true :=
  ⟨.alt (.seq (.assertion .textStart) (.literal ['a']))
    (.seq (.capture 1 (.literal ['b'])) (.assertion .textEnd)), by decide +kernel⟩

end ResourceEngine.SimilarTo
