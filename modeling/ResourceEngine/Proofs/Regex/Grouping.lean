import ResourceEngine.SimilarTo

/-!
# Where a group is closed

Reading goes on inside of a group as it does without the groups around it, up to the bracket that
closes the group: `Reader.toClosing?` reads so far. Where a text has no bracketed classes and no
extensions of groups, that is the bracket at which counting the brackets alone ends.
-/

namespace ResourceEngine.Regex

namespace Reader

/-- The reader inside of more groups. -/
def under (m : Reader) (fs : List Frame) : Reader := { m with frames := m.frames ++ fs }

/-- The reader after the group is closed that had the frame around it. -/
def leave (m : Reader) (f : Frame) : Reader :=
  { m with
    frames := []
    choices := f.choices
    branch := Part.group f.number m.content :: f.branch
    flags := f.flags }

/-- Reads pieces up to the bracket that closes the group in which reading begins, and gives what
stands after it. -/
def toClosing? : Nat → Reader → List Char → Option (Reader × List Char)
  | n, m, cs =>
    match m.flags.skip cs with
    | [] => none
    | c :: cs =>
      if c = ')' ∧ m.frames = [] then some (m, cs)
      else
        match n with
        | 0 => none
        | n + 1 =>
          match m.step? c cs with
          | some (m, rest) => toClosing? n m rest
          | none => none

section

variable {m m' : Reader} {f : Frame} {fs : List Frame} {c : Char} {cs rest : List Char}

@[simp] theorem flags_under (m : Reader) (fs : List Frame) : (m.under fs).flags = m.flags := rfl

theorem closeGroup?_under (hm : m.frames ≠ []) (fs : List Frame) :
    (m.under fs).closeGroup? = m.closeGroup?.map (·.under fs) := by
  cases h : m.frames with
  | nil => exact absurd h hm
  | cons g gs => simp [closeGroup?, under, h, content]

theorem repeatLast?_under (m : Reader) (fs : List Frame) (least : Nat) (most : Option Nat)
    (cs : List Char) :
    (m.under fs).repeatLast? least most cs =
      (m.repeatLast? least most cs).map fun (m, rest) => (m.under fs, rest) := by
  rcases m with ⟨frames, choices, _ | ⟨p, ps⟩, flags, numbered, names⟩
  · rfl
  · unfold repeatLast?
    simp only [under]
    split <;> rfl

theorem openNamed?_under (m : Reader) (fs : List Frame) (cs : List Char) :
    (m.under fs).openNamed? cs = (m.openNamed? cs).map fun (m, rest) => (m.under fs, rest) := by
  unfold openNamed?
  cases groupName? cs with
  | none => rfl
  | some named =>
    by_cases hname : named.1 ∈ m.names
    · simp [under, hname]
    · simp [under, hname, openGroup]

theorem parenthesis?_under (m : Reader) (fs : List Frame) (cs : List Char) :
    (m.under fs).parenthesis? cs = (m.parenthesis? cs).map fun (m, rest) => (m.under fs, rest) := by
  unfold parenthesis?
  rw [flags_under]
  split
  · rfl
  · rfl
  · rfl
  · rfl
  · exact openNamed?_under ..
  · exact openNamed?_under ..
  · split
    · split <;> rfl
    · rfl
    · rfl
  · rfl

/-- But for the bracket that closes the group, a piece is read inside of more groups as without
them. -/
theorem step?_under (hc : ¬(c = ')' ∧ m.frames = [])) (fs : List Frame) (cs : List Char) :
    (m.under fs).step? c cs = (m.step? c cs).map fun (m, rest) => (m.under fs, rest) := by
  unfold step?
  simp only [flags_under]
  split
  · exact parenthesis?_under ..
  · rw [closeGroup?_under fun h => hc ⟨rfl, h⟩]
    cases m.closeGroup? <;> rfl
  · rfl
  · cases charClass? m.flags cs <;> rfl
  · exact repeatLast?_under ..
  · exact repeatLast?_under ..
  · exact repeatLast?_under ..
  · cases counts? m.flags cs with
    | none => rfl
    | some counted => exact repeatLast?_under ..
  · split
    · split <;> rfl
    · rfl
  · cases Part.dot? m.flags <;> rfl
  · rfl
  · rfl
  · rfl

/-- The bracket that closes the group in which reading has begun. -/
theorem step?_leave (hm : m.frames = []) (f : Frame) (cs : List Char) :
    (m.under [f]).step? ')' cs = some (m.leave f, cs) := by
  simp [step?, closeGroup?, under, leave, hm, content]

/-- An expression that is read to the end with all of its groups closed has been read up to the
bracket that closes the outermost one, and then on from there. -/
theorem exists_toClosing? {n : Nat} (hrun : run? n (m.under [f]) cs = some m')
    (hend : m'.frames = []) :
    ∃ inside rest k, toClosing? n m cs = some (inside, rest) ∧
      run? k (inside.leave f) rest = some m' := by
  fun_induction toClosing? n m cs with
  | case1 n m cs hskip =>
    unfold run? at hrun
    rw [flags_under, hskip] at hrun
    cases hrun
    simp [under] at hend
  | case2 n m cs c cs' hskip hc =>
    obtain ⟨rfl, hm⟩ := hc
    unfold run? at hrun
    simp only [flags_under, hskip, step?_leave hm] at hrun
    cases n with
    | zero => exact nomatch hrun
    | succ n => exact ⟨m, cs', n, rfl, hrun⟩
  | case3 m cs c cs' hskip =>
    -- Reading has run out of steps on both sides.
    unfold run? at hrun
    rw [flags_under, hskip] at hrun
    exact nomatch hrun
  | case4 m cs c cs' hskip hc n m₁ rest hstep ih =>
    unfold run? at hrun
    simp only [flags_under, hskip, step?_under hc, hstep, Option.map_some] at hrun
    exact ih hrun
  | case5 m cs c cs' hskip hc n hstep =>
    unfold run? at hrun
    simp only [flags_under, hskip, step?_under hc, hstep, Option.map_none] at hrun
    exact nomatch hrun

end

end Reader

/-! ### Brackets without extensions -/

/-- The character means nothing for where groups are open. -/
def isInert (c : Char) : Bool := c != '\\' && c != '(' && c != ')' && c != '['

/-- A character of a kind to which no character with a meaning belongs. -/
theorem isInert_of (p : Char → Bool) {c : Char} (hc : p c = true)
    (hp : p '\\' = false ∧ p '(' = false ∧ p ')' = false ∧ p '[' = false) : isInert c := by
  obtain ⟨h₁, h₂, h₃, h₄⟩ := hp
  simp only [isInert, Bool.and_eq_true, bne_iff_ne]
  refine ⟨⟨⟨?_, ?_⟩, ?_⟩, ?_⟩ <;> rintro rfl <;> simp_all

/-- The text has no bracketed class and no group with an extension. -/
def isPlain : List Char → Bool
  | [] => true
  | '\\' :: _ :: cs => isPlain cs
  | '[' :: _ => false
  | '(' :: '?' :: _ => false
  | _ :: cs => isPlain cs

/-- What stands after the bracket that closes a group, given how many groups are open inside of it.
A character after a backslash is no bracket. -/
def afterClosing? : Nat → List Char → Option (List Char)
  | _, [] => none
  | d, '\\' :: _ :: cs => afterClosing? d cs
  | d, '(' :: cs => afterClosing? (d + 1) cs
  | 0, ')' :: cs => some cs
  | d + 1, ')' :: cs => afterClosing? d cs
  | d, _ :: cs => afterClosing? d cs

section

variable {c : Char} {cs rest : List Char}

theorem isPlain_cons_of_inert (hc : isInert c) (cs : List Char) : isPlain (c :: cs) = isPlain cs := by
  unfold isInert at hc
  rw [isPlain] <;> simp_all

theorem isPlain_cons_paren (cs : List Char) :
    isPlain ('(' :: cs) ↔ cs.head? ≠ some '?' ∧ isPlain cs := by
  cases cs with
  | nil => simp [isPlain]
  | cons c cs =>
    by_cases hc : c = '?'
    · simp [hc, isPlain]
    · rw [isPlain] <;> simp [hc]

theorem afterClosing?_cons_of_inert (hc : isInert c) (d : Nat) (cs : List Char) :
    afterClosing? d (c :: cs) = afterClosing? d cs := by
  unfold isInert at hc
  rw [afterClosing?] <;> simp_all

end

/-- Nothing that stands before the rest matters for where groups are open. -/
inductive Passes : List Char → List Char → Prop where
  | refl (cs : List Char) : Passes cs cs
  | cons {c : Char} {cs rest : List Char} (hc : isInert c) (h : Passes cs rest) :
    Passes (c :: cs) rest
  | escaped (c : Char) {cs rest : List Char} (h : Passes cs rest) : Passes ('\\' :: c :: cs) rest

namespace Passes

variable {cs rest rest' : List Char}

theorem trans (h : Passes cs rest) (h' : Passes rest rest') : Passes cs rest' := by
  induction h with
  | refl => exact h'
  | cons hc _ ih => exact .cons hc (ih h')
  | escaped c _ ih => exact .escaped c (ih h')

theorem dropWhile {p : Char → Bool} (hp : ∀ c, p c → isInert c) (cs : List Char) :
    Passes cs (cs.dropWhile p) := by
  induction cs with
  | nil => exact .refl []
  | cons c cs ih =>
    rw [List.dropWhile_cons]
    split
    next hc => exact .cons (hp c hc) ih
    next => exact .refl _

theorem isPlain (h : Passes cs rest) : Regex.isPlain cs = Regex.isPlain rest := by
  induction h with
  | refl => rfl
  | cons hc _ ih => rw [isPlain_cons_of_inert hc, ih]
  | escaped c _ ih => rw [Regex.isPlain, ih]

theorem afterClosing? (h : Passes cs rest) (d : Nat) :
    Regex.afterClosing? d cs = Regex.afterClosing? d rest := by
  induction h with
  | refl => rfl
  | cons hc _ ih => rw [afterClosing?_cons_of_inert hc, ih]
  | escaped c _ ih => rw [Regex.afterClosing?, ih]

end Passes

section

variable {f : Flags} (hf : f.ignoreBlanks = false) {cs rest : List Char}

include hf

theorem skip_eq (cs : List Char) : f.skip cs = cs := by simp [Flags.skip, hf]

theorem passes_countDigits (n : Nat) (cs : List Char) : Passes cs (countDigits f n cs).2 := by
  induction n generalizing cs with
  | zero => exact .refl cs
  | succ n ih =>
    cases cs with
    | nil => exact .refl []
    | cons c cs =>
      rw [countDigits]
      split
      next hc =>
        rw [skip_eq hf]
        exact .cons (isInert_of Char.isDigit hc (by decide)) (ih cs)
      next => exact .refl _

theorem passes_count? {n : Option Nat} (h : count? f cs = some (n, rest)) : Passes cs rest := by
  have hblank (cs : List Char) : Passes cs (cs.dropWhile Text.isBlank) :=
    .dropWhile (fun _ hc => isInert_of Text.isBlank hc (by decide)) cs
  have hrest := ((hblank cs).trans (passes_countDigits hf (cs.dropWhile Text.isBlank).length _)).trans
    (hblank _)
  unfold count? at h
  simp only [skip_eq hf] at h
  split at h
  next =>
    cases h
    exact hrest
  next =>
    split at h
    next =>
      cases h
      exact hrest
    next => exact nomatch h

theorem passes_counts? {least : Nat} {most : Option Nat}
    (h : counts? f cs = some (least, most, rest)) : Passes cs rest := by
  unfold counts? at h
  simp only [skip_eq hf, Option.bind_eq_bind, Option.bind_eq_some_iff] at h
  obtain ⟨⟨n, r⟩, hn, h⟩ := h
  have hfirst := passes_count? hf hn
  split at h
  next hr =>
    obtain rfl : r = _ := hr
    cases h
    exact hfirst.trans (.cons rfl (.refl _))
  next r' _ hr =>
    obtain rfl : r = ',' :: r' := hr
    refine hfirst.trans (.cons rfl ?_)
    split at h
    next =>
      cases h
      exact .cons rfl (.refl _)
    next =>
      obtain ⟨⟨m, r''⟩, hm, h⟩ := Option.bind_eq_some_iff.1 h
      refine (passes_count? hf hm).trans ?_
      split at h
      next hr =>
        obtain rfl : r'' = _ := hr
        split at h <;> cases h
        exact .cons rfl (.refl _)
      next => exact nomatch h
  next => exact nomatch h

end

namespace Reader

variable {m m' : Reader} {c : Char} {cs rest : List Char}

/-- Blanks are looked at in the innermost group and in those around it. -/
structure SeesBlanks (m : Reader) : Prop where
  inside : m.flags.ignoreBlanks = false
  around : ∀ f ∈ m.frames, f.flags.ignoreBlanks = false

/-- The same groups are open, in the same modes. -/
structure Beside (m m' : Reader) : Prop where
  frames : m'.frames = m.frames
  flags : m'.flags = m.flags

theorem passes_repeatLast? {least : Nat} {most : Option Nat}
    (h : m.repeatLast? least most cs = some (m', rest)) : m.Beside m' ∧ Passes cs rest := by
  unfold repeatLast? at h
  split at h
  next lazily left hlazy =>
    have hleft : Passes cs left := by
      split at hlazy <;> cases hlazy
      · exact .cons rfl (.refl _)
      · exact .refl _
    split at h
    next =>
      split at h <;> cases h
      exact ⟨⟨rfl, rfl⟩, hleft⟩
    next => cases h

theorem parenthesis?_plain (hf : m.flags.ignoreBlanks = false) (hhead : cs.head? ≠ some '?') :
    m.parenthesis? cs = some (m.openGroup true m.flags, cs) := by
  unfold parenthesis?
  rw [skip_eq hf]
  split <;> simp_all

/-- Where the piece begins and where it ends, the same is left of the open groups. -/
theorem afterClosing?_step? (hm : m.SeesBlanks) (hplain : isPlain (c :: cs))
    (hc : ¬(c = ')' ∧ m.frames = [])) (h : m.step? c cs = some (m', rest)) :
    m'.SeesBlanks ∧ isPlain rest ∧
      afterClosing? m.frames.length (c :: cs) = afterClosing? m'.frames.length rest := by
  have hpasses (hbeside : m.Beside m') (hrest : Passes (c :: cs) rest) : m'.SeesBlanks ∧
      isPlain rest ∧ afterClosing? m.frames.length (c :: cs) =
        afterClosing? m'.frames.length rest := by
    refine ⟨⟨hbeside.flags ▸ hm.inside, hbeside.frames ▸ hm.around⟩, hrest.isPlain ▸ hplain, ?_⟩
    rw [hrest.afterClosing?, hbeside.frames]
  have hrepeats {least : Nat} {most : Option Nat} (hinert : isInert c)
      (h : m.repeatLast? least most cs = some (m', rest)) :=
    hpasses (passes_repeatLast? h).1 (.cons hinert (passes_repeatLast? h).2)
  unfold step? at h
  split at h
  · -- One more group is open, in the modes of the one around it.
    obtain ⟨hhead, hrest⟩ := (isPlain_cons_paren cs).1 hplain
    rw [parenthesis?_plain hm.inside hhead] at h
    cases h
    exact ⟨⟨hm.inside, List.forall_mem_cons.2 ⟨hm.inside, hm.around⟩⟩, hrest, rfl⟩
  · -- One group less is open, in the modes of its frame.
    cases hframes : m.frames with
    | nil => exact absurd ⟨rfl, hframes⟩ hc
    | cons f fs =>
      simp only [closeGroup?, hframes, Option.map_some] at h
      cases h
      have haround := List.forall_mem_cons.1 (hframes ▸ hm.around)
      exact ⟨⟨haround.1, haround.2⟩, by simpa [isPlain] using hplain, rfl⟩
  · cases h
    exact hpasses ⟨rfl, rfl⟩ (.cons rfl (.refl _))
  · simp [isPlain] at hplain
  · exact hrepeats rfl h
  · exact hrepeats rfl h
  · exact hrepeats rfl h
  · -- Between the braces of a repetition there are digits and blanks only.
    split at h
    next hcounts =>
      rw [skip_eq hm.inside] at h
      obtain ⟨hbeside, hrest⟩ := passes_repeatLast? h
      exact hpasses hbeside (.cons rfl ((passes_counts? hm.inside hcounts).trans hrest))
    next => exact nomatch h
  · split at h
    next e rest' =>
      split at h <;> cases h
      exact hpasses ⟨rfl, rfl⟩ (.escaped e (.refl _))
    next => exact nomatch h
  · cases hdot : Part.dot? m.flags <;> rw [hdot] at h <;> cases h
    exact hpasses ⟨rfl, rfl⟩ (.cons rfl (.refl _))
  · cases h
    exact hpasses ⟨rfl, rfl⟩ (.cons rfl (.refl _))
  · cases h
    exact hpasses ⟨rfl, rfl⟩ (.cons rfl (.refl _))
  · cases h
    exact hpasses ⟨rfl, rfl⟩ (.cons (by simp_all [isInert]) (.refl _))

theorem afterClosing?_closing (hc : c = ')' ∧ m.frames = []) :
    afterClosing? m.frames.length (c :: cs) = some cs := by
  obtain ⟨rfl, hframes⟩ := hc
  rw [hframes]
  rfl

/-- In a plain text the group is closed where its brackets say. -/
theorem afterClosing?_of_toClosing? {n : Nat} (hm : m.SeesBlanks) (hplain : isPlain cs)
    (h : toClosing? n m cs = some (m', rest)) :
    afterClosing? m.frames.length cs = some rest := by
  fun_induction toClosing? n m cs with
  | case1 => exact nomatch h
  | case2 n m cs c cs' hskip hc =>
    rw [skip_eq hm.inside] at hskip
    cases h
    rw [hskip]
    exact afterClosing?_closing hc
  | case3 => exact nomatch h
  | case4 m cs c cs' hskip hc n m₁ rest' hstep ih =>
    rw [skip_eq hm.inside] at hskip
    subst hskip
    obtain ⟨hm₁, hrest, hsame⟩ := afterClosing?_step? hm hplain hc hstep
    rw [hsame]
    exact ih hm₁ hrest h
  | case5 => exact nomatch h

end Reader

end ResourceEngine.Regex
