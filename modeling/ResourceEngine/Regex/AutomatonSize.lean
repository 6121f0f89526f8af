import ResourceEngine.Regex.OctetRange
import ResourceEngine.Regex.Reduced
import Std.Data.HashMap

/-!
# The size of the automaton of an expression

An expression is refused if the automaton over octets that finds its matches would be too large, and
so is one whose automaton in the other direction would be. No automaton is built here, only its
states are counted: a part of an expression adds its states to a `Draft`, and so many times as it is
repeated.

A state takes `stateSize` octets. Beyond that a state that tells octets apart takes `arcSize` octets
for every range of them, and a state that goes on without an octet takes `linkSize` octets for every
state it goes to. States that are alike are made once within a set of characters as long as they are
remembered; the memory has a fixed number of places, chosen by a hash, and a later state drives out
an earlier one in the same place. So the size of a set depends on the number of its first state, and
copies of a set are counted one by one.
-/

namespace ResourceEngine.Regex

/-- The octets of a state without its lists. -/
def stateSize : Nat := 32

/-- The octets of a range in a state that tells octets apart. -/
def arcSize : Nat := 8

/-- The octets of a way on in a state that takes no octet. -/
def linkSize : Nat := 4

/-- The most octets of an automaton. -/
def sizeLimit : Nat := 10 * 1024 * 1024

/-- What has been counted of an automaton: its states, and the octets of their lists. States are
numbered from zero in the order in which they are added. -/
structure Draft where
  states : Nat
  listed : Nat

namespace Draft

/-- The octets of the states so far. -/
def size (d : Draft) : Nat := stateSize * d.states + d.listed

/-- The draft with `n` more states. -/
def add (d : Draft) (n : Nat) : Draft := { d with states := d.states + n }

/-- The draft with a state that tells `n` ranges of octets apart. -/
def addArcs (d : Draft) (n : Nat) : Draft := ⟨d.states + 1, d.listed + arcSize * n⟩

/-- The draft with `n` more ways on without an octet. -/
def link (d : Draft) (n : Nat) : Draft := { d with listed := d.listed + linkSize * n }

end Draft

/-- The states of a part, and whether its last state lists the states after it: going on from there
is one way more. -/
structure Counted where
  draft : Draft
  lists : Bool

namespace Counted

/-- Goes on from the last state to another one. -/
def goOn (c : Counted) : Draft := if c.lists then c.draft.link 1 else c.draft

end Counted

/-- What a part adds to an automaton; `none` if it grows over the limit. -/
abbrev Fragment := Draft → Option Counted

namespace Fragment

/-- States one after another. -/
def states (n : Nat) : Fragment := fun d => some ⟨d.add n, false⟩

/-- One part and then another. -/
def andThen (p q : Fragment) : Fragment := fun d =>
  match p d with
  | some c => q c.goOn
  | none => none

/-- Goes on with a step `n` times, within the limit. -/
def times (step : Draft → Option Counted) : Nat → Counted → Option Counted
  | 0, c => some c
  | n + 1, c =>
    if sizeLimit < c.draft.size then none
    else
      match step c.goOn with
      | some c => times step n c
      | none => none

/-- A part `n` times. -/
def copies (p : Fragment) (n : Nat) : Fragment := fun d =>
  match n with
  | 0 => states 1 d
  | n + 1 =>
    match p d with
    | some c => times p n c
    | none => none

/-- A part at least once: a state after it goes back to its beginning. -/
def onceOrMore (p : Fragment) : Fragment := fun d =>
  (p d).map fun c => ⟨(c.goOn.add 1).link 1, true⟩

/-- A part any number of times. If it can match the empty text, the way back is a state of its own,
and so is the way past it. -/
def anyTimes (p : Fragment) (takesSomething : Bool) : Fragment := fun d =>
  if takesSomething then (p (d.add 1)).map fun c => ⟨c.goOn.link 1, true⟩
  else (p d).map fun c => ⟨(c.goOn.add 3).link 4, false⟩

/-- A part at least `n` times. -/
def atLeast (p : Fragment) (takesSomething : Bool) : Nat → Fragment
  | 0 => p.anyTimes takesSomething
  | 1 => p.onceOrMore
  | n + 2 => (p.copies (n + 1)).andThen p.onceOrMore

/-- A part or nothing, beginning with a state that chooses. -/
def choosing (p : Fragment) : Fragment := fun d => p ((d.add 1).link 2)

/-- A part at most once. -/
def optional (p : Fragment) : Fragment := fun d =>
  (p.choosing d).map fun c => ⟨c.goOn.add 1, false⟩

/-- A part at least `n` times, and up to `extra` times more. -/
def between (p : Fragment) (n extra : Nat) : Fragment := fun d =>
  match p.copies n d with
  | some c =>
    (times p.choosing extra { c with draft := c.draft.add 1 }).map fun c => ⟨c.goOn, false⟩
  | none => none

/-- A part a number of times. -/
def repeated (p : Fragment) (takesSomething : Bool) (least : Nat) : Option Nat → Fragment
  | none => p.atLeast takesSomething least
  | some most =>
    if least = 0 ∧ most = 1 then p.optional
    else if least = most then p.copies least
    else p.between least (most - least)

/-- Parts one of which matches: a state before them, which comes after the first two in number, and
one after them. -/
def oneOf : List Fragment → Fragment
  | [] => states 2
  | [p] => p
  | p :: q :: ps => fun d => do
    let first ← p d
    let second ← q first.goOn
    let c ← ps.foldlM (fun (d : Draft) p => (p d).map Counted.goOn) (second.goOn.add 2)
    return ⟨c.link (ps.length + 2), false⟩

end Fragment

/-! ## Sets of characters -/

/-- Mixes a number into an FNV-1a hash of 64 bits, taking the number for one octet. -/
def mixHash (h : UInt64) (n : Nat) : UInt64 := (h ^^^ n.toUInt64) * 1099511628211

/-- The place of some numbers among `places`, by their FNV-1a hash. -/
def placeOf (places : Nat) (ns : List Nat) : Nat :=
  (ns.foldl mixHash 14695981039346656037).toNat % places

/-- The places for the states of a set that read forward. -/
def forwardPlaces : Nat := 10000

/-- The places for the states of a set that read backward. -/
def backwardPlaces : Nat := 1000

/-- What is remembered of the states of a set: at each place the numbers that describe a state, and
the number of the state. -/
abbrev StateMemory := Std.HashMap Nat (List Nat × Nat)

/-- The number of the state that is described so, remembered or added. -/
def remember (places : Nat) (key : List Nat) (grow : Draft → Draft) :
    Draft × StateMemory → Nat × Draft × StateMemory := fun (d, memory) =>
  let place := placeOf places key
  match memory[place]?.filter (·.1 == key) with
  | some (_, state) => (state, d, memory)
  | none => (d.states, grow d, memory.insert place (key, d.states))

/-- Sequences by their first range, those in a row together. -/
def groupHeads : List (List OctetRange) → List (OctetRange × List (List OctetRange))
  | [] => []
  | [] :: rest => groupHeads rest
  | (r :: tail) :: rest =>
    match groupHeads rest with
    | (r', tails) :: groups =>
      if r = r' then (r, tail :: tails) :: groups else (r, [tail]) :: (r', tails) :: groups
    | [] => [(r, [tail])]

/-- The state that reads sequences of at most `n` ranges on to the state `target`. Its own state
comes after the states of what follows its ranges. -/
def treeState (target : Nat) :
    Nat → List (List OctetRange) → Draft × StateMemory → Nat × Draft × StateMemory
  | 0, _, counted => (target, counted)
  | n + 1, sequences, counted =>
    let groups := groupHeads sequences
    if groups.isEmpty then (target, counted)
    else
      let (key, counted) := groups.foldl
        (fun (key, counted) (r, tails) =>
          let (next, counted) := treeState target n tails counted
          (key ++ [r.lo.toNat, r.hi.toNat, next], counted))
        (([] : List Nat), counted)
      remember forwardPlaces key (·.addArcs groups.length) counted

/-- The state that reads a sequence backwards on to the state `target`: a state for each range, the
first range next to the target. -/
def chainState (target : Nat) (sequence : List OctetRange) (counted : Draft × StateMemory) :
    Nat × Draft × StateMemory :=
  sequence.foldl
    (fun (state, counted) r =>
      remember backwardPlaces [state, r.lo.toNat, r.hi.toNat] (·.add 1) counted)
    (target, counted)

namespace Fragment

/-- A character of a set. ASCII characters are told apart by one state. Of others, the states read
the octets in order and share what sequences end with; backwards they share what sequences begin
with, after a state that chooses between the sequences. -/
def oneCharacter (forward : Bool) (s : CharSet) : Fragment :=
  if s.isAscii then fun d => some ⟨(d.add 1).addArcs s.length, false⟩
  else
    let sequences := s.octetSequences
    if forward then fun d =>
      let (_, d, _) := treeState d.states 4 sequences (d.add 1, ∅)
      some ⟨d, false⟩
    else fun d =>
      let last := d.states + 1
      let (d, _) := sequences.foldl
        (fun counted sequence => (chainState last sequence counted).2) (d.add 2, (∅ : StateMemory))
      some ⟨d.link sequences.length, false⟩

end Fragment

/-! ## Alternations of literals -/

/-- What follows the octet in those sequences that begin with it. -/
def stripOctet (b : UInt8) (words : List (List UInt8)) : List (List UInt8) :=
  words.filterMap fun
    | c :: rest => if c = b then some rest else none
    | [] => none

/-- Cuts a list at its empty members. -/
def splitAtEmpty : List (List UInt8) → List (List (List UInt8))
  | [] => [[]]
  | [] :: rest => [] :: splitAtEmpty rest
  | word :: rest =>
    match splitAtEmpty rest with
    | chunk :: chunks => (word :: chunk) :: chunks
    | [] => [[word]]

/-- The states that tell words of at most `n` octets apart, all of them going on to the same state.
Words that come before an end of a word and words that come after it are told apart by different
states, which a state before them lists, with the way on for every end. -/
def wordStates : Nat → List (List UInt8) → Draft → Draft
  | 0, _, d => d
  | n + 1, words, d =>
    let words := if words.head? = some [] then [] :: words.dropWhile List.isEmpty else words
    if words.all List.isEmpty then d
    else
      let chunks := splitAtEmpty words
      let full := chunks.filter (!·.isEmpty)
      let d := full.foldl
        (fun d chunk =>
          let heads := (chunk.filterMap List.head?).eraseDups
          let d := heads.foldl (fun d b => wordStates n (stripOctet b chunk) d) d
          if heads.length = 1 then d.add 1 else d.addArcs heads.length)
        d
      (d.add 1).link (full.length + (chunks.length - 1))

/-- The octets of a literal. -/
def octets? : Regex → Option (List UInt8)
  | .literal cs => some (cs.flatMap String.utf8EncodeChar)
  | _ => none

namespace Fragment

/-- One of several words. -/
def oneWord (words : List (List UInt8)) : Fragment := fun d =>
  let longest := (words.map List.length).foldl max 0
  some ⟨wordStates (longest + 1) words (d.add 1), false⟩

/-- An alternation, given its branches and what they add. Literals are told apart together. -/
def alternation (forward : Bool) (rs : List Regex) (ps : List Fragment) : Fragment :=
  match ps with
  | [p] => p
  | ps =>
    match rs.mapM octets? with
    | some words => oneWord (if forward then words else words.map List.reverse)
    | none => oneOf ps

end Fragment

/-- What the branches of an expression add to an automaton that reads forward or backward. Reading
forward, a group marks its two ends. -/
def fragments (forward : Bool) : Regex → List Fragment
  | .empty | .assertion _ => [.states 1]
  | .literal cs => [.states (cs.foldl (fun n c => n + c.utf8Size) 0)]
  | .set _ s => [.oneCharacter forward s]
  | .capture _ r =>
    let p := Fragment.alternation forward r.branches (fragments forward r)
    [if forward then ((Fragment.states 1).andThen p).andThen (.states 1) else p]
  | .seq r s =>
    let p := Fragment.alternation forward r.branches (fragments forward r)
    let q := Fragment.alternation forward s.branches (fragments forward s)
    [if forward then p.andThen q else q.andThen p]
  | .alt r s =>
    Fragment.alternation forward r.branches (fragments forward r) :: fragments forward s
  | .times r least most _ =>
    let p := Fragment.alternation forward r.branches (fragments forward r)
    [p.repeated r.takesSomething least most]

/-- The size of the automaton that finds the matches of an expression, reading forward or backward.
Unless each match begins where the reading begins, a state goes over what comes before it. -/
def automatonSize? (forward : Bool) (r : Regex) : Option Nat :=
  let anchored := if forward then r.beginsAtStart else r.endsAtEnd
  let start : Draft := if anchored then ⟨1, 0⟩ else ((⟨2, 0⟩ : Draft).addArcs 1).link 2
  let whole := Regex.capture 0 r
  let p := Fragment.alternation forward whole.branches (fragments forward whole)
  (p.andThen (.states 1) start).map (·.draft.size)

/-- The automata of an expression in both directions keep to the limit. -/
def isSmall (r : Regex) : Bool :=
  [true, false].all fun forward => (automatonSize? forward r).any (· ≤ sizeLimit)

end ResourceEngine.Regex
