import Mathlib.Data.List.Forall2
import ResourceEngine.Proofs.Regex.Anchoring
import ResourceEngine.Proofs.Regex.AutomatonSize

/-!
# Wildcard patterns

A pattern without alternation, repetition, groups and bracketed classes is a sequence of pieces: any
text, any character, or one given character. Its expression matches exactly the texts that can be
split so that each piece takes its share.
-/

namespace ResourceEngine.SimilarTo

open Regex

/-- What a wildcard pattern is made of. -/
inductive Piece where
  | anyText
  | anyChar
  | char (c : Char)

/-- The share of a text that a piece takes. -/
def Piece.Takes : Piece → List Char → Prop
  | .anyText, _ => True
  | .anyChar, share => share.length = 1
  | .char c, share => share = [c]

/-- The text can be split into shares that the pieces take in order. -/
def Takes (pieces : List Piece) (text : List Char) : Prop :=
  ∃ shares, List.Forall₂ Piece.Takes pieces shares ∧ shares.flatten = text

/-- The pieces of a wildcard pattern. A backslash at the end adds none. -/
def pieces : List Char → List Piece
  | [] => []
  | '%' :: cs => .anyText :: pieces cs
  | '_' :: cs => .anyChar :: pieces cs
  | '\\' :: c :: cs => .char c :: pieces cs
  | ['\\'] => []
  | c :: cs => .char c :: pieces cs

/-- The pattern has no character that alternates, repeats, groups or begins a bracketed class. A
character after a backslash does none of this. -/
def isWildcards : List Char → Bool
  | [] => true
  | '\\' :: _ :: cs => isWildcards cs
  | c :: cs => c != '[' && !isOperator c && isWildcards cs

/-- The expression of a piece. -/
def Piece.regex : Piece → Regex
  | .anyText => .times (.set false CharSet.all) 0 none true
  | .anyChar => .set false CharSet.all
  | .char c => .literal [c]

/-- What is read of a piece. -/
def Piece.part : Piece → Part
  | .anyText => ⟨Piece.anyText.regex, 1, true⟩
  | p => ⟨p.regex, 0, true⟩

@[simp] theorem Piece.regex_part (p : Piece) : p.part.regex = p.regex := by cases p <;> rfl

theorem Piece.depth_part_le (p : Piece) : p.part.depth ≤ 1 := by cases p <;> simp [part]

/-! ### Splitting a text -/

section

variable {text share rest : List Char} {p : Piece} {ps : List Piece} {i j n : Nat}

@[simp] theorem takes_nil : Takes [] text ↔ text = [] := by
  simp [Takes, eq_comm]

theorem takes_cons :
    Takes (p :: ps) text ↔ ∃ share rest, share ++ rest = text ∧ p.Takes share ∧ Takes ps rest := by
  constructor
  · rintro ⟨shares, hshares, rfl⟩
    obtain ⟨share, shares, hp, hps, rfl⟩ := List.forall₂_cons_left_iff.1 hshares
    exact ⟨share, shares.flatten, rfl, hp, shares, hps, rfl⟩
  · rintro ⟨share, _, rfl, hp, shares, hps, rfl⟩
    exact ⟨share :: shares, .cons hp hps, rfl⟩

/-- The part of a text from a position, of a length. -/
def slice (text : List Char) (i n : Nat) : List Char := (text.drop i).take n

@[simp] theorem slice_zero (text : List Char) (i : Nat) : slice text i 0 = [] := List.take_zero

theorem slice_add (text : List Char) (i m n : Nat) :
    slice text i (m + n) = slice text i m ++ slice text (i + m) n := by
  simp only [slice, List.take_add, List.drop_drop]

theorem slice_one (text : List Char) (i : Nat) : slice text i 1 = text[i]?.toList := by
  rw [slice, List.take_one, List.head?_drop]

theorem length_slice (h : i + n ≤ text.length) : (slice text i n).length = n := by
  rw [slice, List.length_take, List.length_drop]
  omega

/-- A part of a text is split at a position of the text. -/
theorem slice_eq_append (hn : i + n ≤ text.length) (h : share ++ rest = slice text i n) :
    ∃ m k, n = m + k ∧ slice text i m = share ∧ slice text (i + m) k = rest := by
  have hlength : share.length + rest.length = n := by
    rw [← List.length_append, h, length_slice hn]
  rw [← hlength, slice_add] at h
  obtain ⟨hshare, hrest⟩ := List.append_inj h (length_slice (by omega)).symm
  exact ⟨share.length, rest.length, hlength.symm, hshare.symm, hrest.symm⟩

/-! ### What the expression of a pattern reaches -/

theorem contains_all (c : Char) : CharSet.all.contains c = true := by
  have hlast : c.toNat ≤ lastChar.toNat := by
    have hvalid : c.toNat < 0xD800 ∨ 0xDFFF < c.toNat ∧ c.toNat < 0x110000 := c.valid
    show c.toNat ≤ 0x10FFFF
    omega
  simp only [CharSet.all, CharSet.contains, List.any_cons, List.any_nil, Bool.or_false,
    CharRange.contains, decide_eq_true_eq]
  exact ⟨Nat.zero_le _, hlast⟩

theorem any_contains_all : text[i]?.any CharSet.all.contains = true ↔ i < text.length := by
  simp [Option.any_eq_true, contains_all, ← Option.isSome_iff_exists]

/-- A piece goes from a position to all those up to which it takes the text. -/
theorem testBit_reach_piece (p : Piece) {start : Positions} (hj : j ≤ text.length) :
    (reach text p.regex start).testBit j = true ↔
      ∃ i n, j = i + n ∧ start.testBit i = true ∧ p.Takes (slice text i n) := by
  cases p with
  | anyText =>
    rw [Piece.regex, testBit_reach_times_set hj]
    constructor
    · rintro ⟨i, hij, hi, -⟩
      exact ⟨i, j - i, by omega, hi, trivial⟩
    · rintro ⟨i, n, rfl, hi, -⟩
      exact ⟨i, Nat.le_add_right .., hi, fun k _ hk => any_contains_all.2 (by omega)⟩
  | anyChar =>
    rw [Piece.regex, testBit_reach_set]
    constructor
    · rintro ⟨i, rfl, hi, -⟩
      exact ⟨i, 1, rfl, hi, length_slice hj⟩
    · rintro ⟨i, n, rfl, hi, hn⟩
      obtain rfl : n = 1 := (length_slice hj).symm.trans hn
      exact ⟨i, rfl, hi, any_contains_all.2 hj⟩
  | char c =>
    rw [Piece.regex, testBit_reach_literal]
    constructor
    · rintro ⟨i, rfl, hi, hc⟩
      exact ⟨i, 1, rfl, hi, by rw [slice_one, hc]; rfl⟩
    · rintro ⟨i, n, rfl, hi, hc⟩
      obtain rfl : n = 1 := (length_slice hj).symm.trans (congrArg List.length hc)
      rw [Piece.Takes, slice_one, Option.toList_eq_singleton_iff] at hc
      exact ⟨i, rfl, hi, hc⟩

/-- Pieces go together where the text can be split between them. -/
theorem testBit_reachAll_pieces (ps : List Piece) {start : Positions} (hj : j ≤ text.length) :
    (reachAll text (ps.map Piece.regex) start).testBit j = true ↔
      ∃ i n, j = i + n ∧ start.testBit i = true ∧ Takes ps (slice text i n) := by
  induction ps generalizing start with
  | nil =>
    constructor
    · intro h
      exact ⟨j, 0, rfl, h, by simp⟩
    · rintro ⟨i, n, rfl, hi, hn⟩
      obtain rfl : n = 0 := (length_slice hj).symm.trans (congrArg List.length (takes_nil.1 hn))
      exact hi
  | cons p ps ih =>
    rw [List.map_cons, reachAll_cons, ih]
    constructor
    · rintro ⟨_, n, rfl, hmid, hrest⟩
      obtain ⟨i, m, rfl, hi, hp⟩ := (testBit_reach_piece p (by omega)).1 hmid
      refine ⟨i, m + n, by omega, hi, takes_cons.2 ⟨_, _, ?_, hp, hrest⟩⟩
      rw [slice_add]
    · rintro ⟨i, _, rfl, hi, htakes⟩
      obtain ⟨share, rest, hsplit, hp, hrest⟩ := takes_cons.1 htakes
      obtain ⟨m, n, rfl, rfl, rfl⟩ := slice_eq_append hj hsplit
      exact ⟨i + m, n, by omega, (testBit_reach_piece p (by omega)).2 ⟨i, m, rfl, hi, hp⟩, hrest⟩

end

/-! ### Reading the expression of a pattern -/

section

variable {m m' : Reader} {cs tail : List Char} {n : Nat}

/-- Reading goes on behind what one step reads. -/
theorem run?_of_step? {c : Char} (hf : m.flags = modes)
    (hstep : m.step? c cs = some (m', tail)) : m.run? (n + 1) (c :: cs) = m'.run? n tail := by
  have hskip : m.flags.skip (c :: cs) = c :: cs := by rw [hf]; rfl
  rw [Reader.run?, hskip]
  simp only [hstep]

theorem run?_anyChar (hf : m.flags = modes) (cs : List Char) :
    m.run? (n + 1) ('.' :: cs) = (m.push Piece.anyChar.part).run? n cs := by
  refine run?_of_step? hf ?_
  rw [Reader.step?, hf]
  rfl

/-- Any text is read in two steps, as a greedy repetition: no question mark follows the star. -/
theorem run?_anyText (hf : m.flags = modes) (hhead : cs.head? ≠ some '?') :
    m.run? (n + 2) ('.' :: '*' :: cs) = (m.push Piece.anyText.part).run? n cs := by
  have hstar : (m.push Piece.anyChar.part).step? '*' cs =
      some (m.push Piece.anyText.part, cs) := by
    rw [Reader.step?, Reader.repeatLast?]
    · simp only [Reader.push, hf]
      rfl
    · rintro rest rfl
      exact hhead rfl
  rw [run?_anyChar hf]
  exact run?_of_step? hf hstar

theorem literal_modes (c : Char) : Part.literal modes c = (Piece.char c).part := by
  simp [Part.literal, modes, Flags.initial, Piece.part, Piece.regex]

/-- A character that stands for itself is read in one step. -/
theorem run?_escape (hf : m.flags = modes) (c : Char) (cs : List Char) :
    m.run? (n + 1) (escape c ++ cs) = (m.push (Piece.char c).part).run? n cs := by
  unfold escape
  split
  next hc =>
    refine run?_of_step? hf ?_
    simp [Reader.step?, hc, hf, literal_modes]
  next hc =>
    refine run?_of_step? hf ?_
    rw [Reader.step?.eq_def]
    split
    all_goals first
      | exact absurd (by decide) hc
      | rw [hf, literal_modes]; rfl

theorem isWildcards_cons {c : Char} (hc : c ≠ '\\') (cs : List Char) :
    isWildcards (c :: cs) = (c != '[' && !isOperator c && isWildcards cs) := by
  rw [isWildcards]
  rintro d ds rfl
  exact absurd rfl hc

theorem head?_of_isWildcards (h : isWildcards cs) : cs.head? ≠ some '?' := by
  intro hhead
  cases cs with
  | nil => exact nomatch hhead
  | cons c cs =>
    obtain rfl : c = '?' := by simpa using hhead
    exact nomatch (isWildcards_cons (by decide) cs).symm.trans h

/-- The reader after some pieces. -/
def after (m : Reader) (ps : List Piece) : Reader :=
  { m with branch := (ps.map Piece.part).reverse ++ m.branch }

theorem after_cons (m : Reader) (p : Piece) (ps : List Piece) :
    after m (p :: ps) = after (m.push p.part) ps := by
  simp [after, Reader.push]

/-- One step is left over from a character that stands for itself. -/
theorem exists_of_escape_le {c : Char} (hn : (escape c ++ cs).length + 2 ≤ n) :
    ∃ k, n = k + 1 ∧ cs.length + 2 ≤ k := by
  have hpos : 0 < (escape c).length := by
    unfold escape
    split <;> simp
  rw [List.length_append] at hn
  exact ⟨n - 1, by omega, by omega⟩

/-- The pieces of a wildcard pattern are read one by one, up to the end of the group between the
anchors. -/
theorem exists_run?_body (hcs : isWildcards cs) (hf : m.flags = modes)
    (hn : (body false cs).length + 2 ≤ n) :
    ∃ k, m.run? n (body false cs ++ ")$".toList) =
      (after m (pieces cs)).run? (k + 2) ")$".toList := by
  -- By the pieces. A star takes a step of its own; the two steps that are left are for the bracket
  -- and the anchor.
  induction cs using pieces.induct generalizing m n with
  | case1 =>
    obtain ⟨k, rfl⟩ := Nat.exists_eq_add_of_le' (Nat.le_of_add_left_le hn)
    exact ⟨k, rfl⟩
  | case2 cs ih =>
    have hcs : isWildcards cs := hcs
    obtain ⟨n, rfl⟩ := Nat.exists_eq_add_of_le' (Nat.le_of_add_left_le hn)
    rw [body, List.length_cons, List.length_cons] at hn
    obtain ⟨k, hk⟩ := ih hcs (m := m.push Piece.anyText.part) (n := n) hf (by omega)
    refine ⟨k, ?_⟩
    rw [pieces, after_cons, ← hk]
    exact run?_anyText hf (head?_body (head?_of_isWildcards hcs))
  | case3 cs ih =>
    obtain ⟨n, rfl⟩ := Nat.exists_eq_add_of_le' (Nat.le_of_add_left_le hn)
    rw [body, List.length_cons] at hn
    obtain ⟨k, hk⟩ := ih hcs (m := m.push Piece.anyChar.part) (n := n + 1) hf (by omega)
    refine ⟨k, ?_⟩
    rw [pieces, after_cons, ← hk]
    exact run?_anyChar hf _
  | case4 c cs ih =>
    rw [body] at hn
    obtain ⟨n, rfl, hleft⟩ := exists_of_escape_le hn
    obtain ⟨k, hk⟩ := ih hcs (m := m.push (Piece.char c).part) hf hleft
    refine ⟨k, ?_⟩
    rw [body, List.append_assoc, pieces, after_cons, ← hk]
    exact run?_escape hf c _
  | case5 =>
    -- a backslash at the end stands for nothing
    obtain ⟨k, rfl⟩ := Nat.exists_eq_add_of_le' (Nat.le_of_add_left_le hn)
    exact ⟨k, rfl⟩
  | case6 c cs h₁ h₂ h₃ h₄ ih =>
    have hslash : c ≠ '\\' := by
      rintro rfl
      cases cs with
      | nil => exact h₄ rfl rfl
      | cons d ds => exact h₃ d ds rfl rfl
    rw [isWildcards_cons hslash, Bool.and_eq_true, Bool.and_eq_true, bne_iff_ne,
      Bool.not_eq_true'] at hcs
    obtain ⟨⟨hclass, hoperator⟩, hcs⟩ := hcs
    have hpieces : pieces (c :: cs) = .char c :: pieces cs := by rw [pieces] <;> assumption
    rw [body_cons h₁ h₂ hslash hclass, hoperator, if_neg Bool.false_ne_true] at hn ⊢
    obtain ⟨n, rfl, hleft⟩ := exists_of_escape_le hn
    obtain ⟨k, hk⟩ := ih hcs (m := m.push (Piece.char c).part) hf hleft
    refine ⟨k, ?_⟩
    rw [hpieces, List.append_assoc, after_cons, ← hk]
    exact run?_escape hf c _

/-- What is read of some pieces in sequence. -/
def partOf (ps : List Piece) : Part := Part.sequence (ps.map Piece.part).reverse

theorem reach_sequence (text : List Char) (ps : List Part) (start : Positions) :
    reach text (Part.sequence ps).regex start = reachAll text (ps.reverse.map Part.regex) start := by
  match ps with
  | [] => rfl
  | [p] => rfl
  | p :: q :: rest => exact reach_concat ..

theorem reach_partOf (text : List Char) (ps : List Piece) (start : Positions) :
    reach text (partOf ps).regex start = reachAll text (ps.map Piece.regex) start := by
  rw [partOf, reach_sequence, List.reverse_reverse, List.map_map]
  congr 1
  exact List.map_congr_left fun p _ => p.regex_part

theorem depth_sequence_le {n : Nat} {ps : List Part} (h : ∀ p ∈ ps, p.depth ≤ n) :
    (Part.sequence ps).depth ≤ n + 1 := by
  have hmax (depths : List Nat) (first : Nat) (hfirst : first ≤ n) (h : ∀ d ∈ depths, d ≤ n) :
      depths.foldl max first ≤ n := by
    induction depths generalizing first with
    | nil => exact hfirst
    | cons d rest ih =>
      obtain ⟨hd, hrest⟩ := List.forall_mem_cons.1 h
      exact ih _ (Nat.max_le.2 ⟨hfirst, hd⟩) hrest
  match ps, h with
  | [], _ => exact Nat.zero_le _
  | [p], h => exact Nat.le_succ_of_le (h p (List.mem_singleton_self p))
  | p :: q :: rest, h =>
    refine Nat.succ_le_succ (hmax _ 0 (Nat.zero_le n) ?_)
    simpa using h

/-- The closing bracket and the anchor are read behind the pieces. -/
theorem run?_after (ps : List Piece) (k : Nat) :
    (after (inside.under [outside]) ps).run? (k + 2) ")$".toList =
      some ⟨[], [], [Part.assertion .textEnd, Part.group none (partOf ps),
        Part.assertion .textStart, Part.empty], modes, 0, []⟩ := by
  have hafter : after (inside.under [outside]) ps =
      { inside.under [outside] with branch := (ps.map Piece.part).reverse } := by
    simp [after, inside, Reader.under]
  rw [hafter]
  cases k <;> rfl

/-- The expression of a wildcard pattern is its pieces between the anchors, unless it is too large.
-/
theorem compile?_eq {pattern : String} (hp : isWildcards pattern.toList) :
    compile? pattern =
      if (anchored (partOf (pieces pattern.toList)).regex).isSmall
      then some (anchored (partOf (pieces pattern.toList)).regex) else none := by
  have hexpression : expression pattern.toList =
      "(?s)^(?:".toList ++ (body false pattern.toList ++ ")$".toList) := List.append_assoc ..
  have hlength : (expression pattern.toList).length =
      ((body false pattern.toList).length + 7) + 3 := by
    simp [hexpression]
  obtain ⟨k, hk⟩ := exists_run?_body (m := inside.under [outside]) hp rfl
    (n := (body false pattern.toList).length + 7) (by omega)
  have hdepth : (partOf (pieces pattern.toList)).depth ≤ 2 := by
    refine depth_sequence_le fun part hpart => ?_
    obtain ⟨p, -, rfl⟩ := List.mem_map.1 (List.mem_reverse.1 hpart)
    exact p.depth_part_le
  have hnested : (Part.sequence [Part.assertion .textEnd,
      Part.group none (partOf (pieces pattern.toList)), Part.assertion .textStart,
      Part.empty]).depth ≤ nestLimit := by
    refine Nat.le_trans (depth_sequence_le (n := 3) ?_) (by decide)
    simp [Part.assertion, Part.group, Part.empty]
    omega
  rw [compile?, ofText?, hlength, hexpression, run?_expression, hk, run?_after]
  simp only [Option.bind_eq_bind, Option.bind_some, List.isEmpty_nil, if_true, Reader.content,
    hnested, true_and]
  rfl

end

/-! ### The size of the expression of a pattern -/

/-- The octets that a piece adds at most to an automaton. -/
def pieceSize : Nat := 1300

theorem Piece.parts_regex (p : Piece) : p.regex.parts = [p.regex] := by cases p <;> rfl

theorem Piece.adds_regex (forward : Bool) (p : Piece) :
    p.regex.Adds forward (weight pieceSize p.regex) := by
  have hall : (Regex.set false .all).Adds forward 1180 := adds_set (by decide)
  cases p with
  | anyText => exact hall.anyTimes.mono (by decide)
  | anyChar => exact hall.mono (by decide)
  | char c => exact adds_literal [c]

theorem Piece.weight_regex_le (p : Piece) : weight pieceSize p.regex ≤ pieceSize := by
  cases p with
  | char c =>
    have hsize := c.utf8Size_le_four
    simp only [regex, weight, pieceSize, stateSize, List.map_cons, List.map_nil, List.sum_cons,
      List.sum_nil]
    omega
  | _ => exact le_rfl

theorem sum_weight_le (ps : List Piece) :
    ((ps.map Piece.regex).map (weight pieceSize)).sum ≤ pieceSize * ps.length := by
  induction ps with
  | nil => exact Nat.le_refl 0
  | cons p ps ih =>
    have hp := p.weight_regex_le
    simp only [List.map_cons, List.sum_cons, List.length_cons, Nat.mul_succ]
    omega

theorem joinLiterals_singleton (r : Regex) : joinLiterals [r] = [r] := by cases r <;> rfl

theorem parts_sequence {ps : List Part} (h : ∀ p ∈ ps, p.regex.parts = [p.regex]) :
    (Part.sequence ps).regex.parts = joinLiterals (ps.reverse.map Part.regex) := by
  match ps, h with
  | [], _ => rfl
  | [p], h => exact (h p (List.mem_singleton_self p)).trans (joinLiterals_singleton _).symm
  | p :: q :: rest, h =>
    refine parts_concat fun r hr => ?_
    obtain ⟨part, hpart, rfl⟩ := List.mem_map.1 hr
    exact h part (List.mem_reverse.1 hpart)

theorem parts_partOf (ps : List Piece) :
    (partOf ps).regex.parts = joinLiterals (ps.map Piece.regex) := by
  rw [partOf, parts_sequence, List.reverse_reverse, List.map_map]
  · exact congrArg joinLiterals (List.map_congr_left fun p _ => p.regex_part)
  · intro part hpart
    obtain ⟨p, -, rfl⟩ := List.mem_map.1 (List.mem_reverse.1 hpart)
    rw [p.regex_part, p.parts_regex]

/-- A wildcard pattern of up to 8000 pieces is not too large. -/
theorem isSmall_anchored {ps : List Piece} (h : ps.length ≤ 8000) :
    (anchored (partOf ps).regex).isSmall = true := by
  have hparts : [.empty, .assertion .textStart, (partOf ps).regex,
      .assertion .textEnd].flatMap parts = .assertion .textStart ::
        (joinLiterals (ps.map Piece.regex) ++ [.assertion .textEnd]) := by
    simp [parts, parts_partOf]
  have hsum := sum_weight_le ps
  -- The anchors count as a piece each.
  have hanchor (forward : Bool) (a : Assertion) :
      (Regex.assertion a).Adds forward (weight pieceSize (.assertion a)) :=
    (adds_assertion a).mono (by decide : stateSize ≤ pieceSize)
  have hadds (forward : Bool) : ∀ r ∈ [.empty, .assertion .textStart, (partOf ps).regex,
      .assertion .textEnd].flatMap parts, r.Adds forward (weight pieceSize r) := by
    rw [hparts, List.forall_mem_cons, List.forall_mem_append, List.forall_mem_singleton]
    refine ⟨hanchor forward _, forall_mem_joinLiterals adds_literal ?_, hanchor forward _⟩
    simpa using fun p _ => p.adds_regex forward
  refine isSmall_of_adds (fun forward => adds_concat (hadds forward)) ?_
  have hweight (a : Assertion) : weight pieceSize (.assertion a) = pieceSize := rfl
  rw [hparts, List.map_cons, List.map_append, List.sum_cons, List.sum_append,
    sum_weight_joinLiterals, List.map_singleton, List.sum_singleton, hweight, hweight]
  simp only [pieceSize, stateSize, sizeLimit] at hsum ⊢
  omega

/-- Every wildcard pattern of up to 8000 pieces is taken. -/
theorem exists_compile? {pattern : String} (hp : isWildcards pattern.toList)
    (h : (pieces pattern.toList).length ≤ 8000) : ∃ r, compile? pattern = some r := by
  rw [compile?_eq hp, if_pos (isSmall_anchored h)]
  exact ⟨_, rfl⟩

/-- A wildcard pattern matches the texts that can be split so that each of its pieces takes its
share: any text, any character, or the given one. -/
theorem isMatch_iff_takes {pattern : String} {r : Regex} (hp : isWildcards pattern.toList)
    (hr : compile? pattern = some r) (text : List Char) :
    r.isMatch text = true ↔ Takes (pieces pattern.toList) text := by
  obtain rfl : anchored (partOf (pieces pattern.toList)).regex = r := by
    rw [compile?_eq hp] at hr
    split at hr
    · exact Option.some.inj hr
    · exact nomatch hr
  have hstart (i : Nat) : (1 <<< 0 &&& 1 : Nat).testBit i = true ↔ i = 0 := by
    cases i <;> simp [Nat.testBit_succ]
  have hend : (1 <<< text.length).testBit text.length = true := by
    rw [Nat.one_shiftLeft, Nat.testBit_two_pow_self]
  have hwhole : slice text 0 text.length = text := List.take_length
  rw [isMatch_anchored, Matches, reach_anchored, reach_partOf, Nat.testBit_and, Bool.and_eq_true,
    testBit_reachAll_pieces _ le_rfl]
  constructor
  · rintro ⟨⟨i, n, hn, hi, htakes⟩, -⟩
    obtain rfl := (hstart i).1 hi
    rw [Nat.zero_add] at hn
    rwa [← hn, hwhole] at htakes
  · intro htakes
    exact ⟨⟨0, text.length, (Nat.zero_add _).symm, (hstart 0).2 rfl, hwhole.symm ▸ htakes⟩, hend⟩

/-- Wildcards take ends of lines, and a dot stands for itself. -/
theorem isMatch_iff_takes_lines :
    ∃ r, compile? "a.%\\_$_" = some r ∧ isWildcards "a.%\\_$_".toList = true ∧
      r.isMatch "a.\n\n_$\n".toList = true ∧ r.isMatch "ab\n\n_$\n".toList = false := by
  have hp : isWildcards "a.%\\_$_".toList = true := by decide
  have hpieces : pieces "a.%\\_$_".toList =
      [.char 'a', .char '.', .anyText, .char '_', .char '$', .anyChar] := rfl
  obtain ⟨r, hr⟩ := exists_compile? hp (by decide)
  have hmatches := isMatch_iff_takes hp hr
  rw [hpieces] at hmatches
  refine ⟨r, hr, hp, (hmatches _).2 ?_, Bool.eq_false_iff.2 fun hmatch => ?_⟩
  · exact ⟨[['a'], ['.'], ['\n', '\n'], ['_'], ['$'], ['\n']],
      .cons rfl (.cons rfl (.cons trivial (.cons rfl (.cons rfl (.cons rfl .nil))))), rfl⟩
  · obtain ⟨_, _, htext, rfl, htakes⟩ := takes_cons.1 ((hmatches _).1 hmatch)
    obtain ⟨_, _, rfl, rfl, -⟩ := takes_cons.1 htakes
    simp at htext

end ResourceEngine.SimilarTo
