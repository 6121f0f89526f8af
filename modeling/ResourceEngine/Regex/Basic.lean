import ResourceEngine.Regex.CharSet

/-!
# Regular expressions

An expression is matched against a text as a whole. A set of positions of the text is a number whose
bits are the positions. On one text, an expression is a `Route`: a set of characters stands for the
positions where one of them is, and taking it moves these positions by one shift; a repetition runs
until it adds no position. `reach` sends a set of positions to those that a match beginning at one
of them can end at. `isMatch` says that some part of the text matches.
-/

namespace ResourceEngine

/-- A condition on a position that takes no character. -/
inductive Regex.Assertion where
  | textStart
  | textEnd
  /-- The start of a line; with `crlf`, a carriage return ends a line too. -/
  | lineStart (crlf : Bool)
  /-- The end of a line; with `crlf`, a carriage return ends a line too. -/
  | lineEnd (crlf : Bool)
  deriving DecidableEq

/-- A regular expression over characters. -/
inductive Regex where
  | empty
  | literal (cs : List Char)
  /-- One character of a set, which was written as a set of octets or of characters. -/
  | set (octets : Bool) (s : Regex.CharSet)
  | assertion (a : Regex.Assertion)
  /-- A group that keeps what it matches, by its number. -/
  | capture (index : Nat) (r : Regex)
  | seq (r s : Regex)
  | alt (r s : Regex)
  /-- At least `least` times, and at most `most` times if it is given, as many as can be if it is
  greedy. -/
  | times (r : Regex) (least : Nat) (most : Option Nat) (greedy : Bool)
  deriving DecidableEq

namespace Regex

/-- A set of positions, one bit for each. -/
abbrev Positions := Nat

namespace Positions

/-- The positions of the characters that a predicate accepts. -/
def accepted (p : Char → Bool) : List Char → Positions
  | [] => 0
  | c :: cs => 2 * accepted p cs + (if p c then 1 else 0)

/-- Every position of a text, the end included. -/
def all (text : List Char) : Positions := (2 <<< text.length) - 1

/-- The positions at which a condition on the character before and the one after holds. -/
def between (p : Option Char → Option Char → Bool) : Option Char → List Char → Positions
  | before, [] => if p before none then 1 else 0
  | before, c :: cs => 2 * between p (some c) cs + (if p before (some c) then 1 else 0)

end Positions

namespace Assertion

/-- The assertion holds between these two characters; `none` stands for an end of the text. -/
def holds : Assertion → Option Char → Option Char → Bool
  | .textStart, before, _ => before.isNone
  | .textEnd, _, after => after.isNone
  | .lineStart false, before, _ => before.isNone || before == some '\n'
  | .lineStart true, before, after =>
    before.isNone || before == some '\n' || (before == some '\r' && after != some '\n')
  | .lineEnd false, _, after => after.isNone || after == some '\n'
  | .lineEnd true, before, after =>
    after.isNone || after == some '\r' || (after == some '\n' && before != some '\r')

end Assertion

/-- Applies a step `n` times, or until it changes nothing. -/
def iterate (step : Positions → Positions) : Nat → Positions → Positions
  | 0, ps => ps
  | n + 1, ps =>
    let next := step ps
    if next = ps then ps else iterate step n next

/-- The positions reached by at most `n` steps, given those reached so far and the newest of them.
-/
def closure (step : Positions → Positions) : Nat → Positions → Positions → Positions
  | 0, reached, _ => reached
  | n + 1, reached, newest =>
    let next := step newest
    let fresh := next ^^^ (next &&& reached)
    if fresh = 0 then reached else closure step n (reached ||| next) fresh

/-- What an expression is on one text. -/
inductive Route where
  | stay
  /-- Takes one character, at one of the given positions. -/
  | step (places : Positions)
  /-- Takes no character, at one of the given positions. -/
  | stand (places : Positions)
  | seq (r s : Route)
  | alt (r s : Route)
  | times (r : Route) (least : Nat) (most : Option Nat)

/-- The expression on a text. -/
def route (text : List Char) : Regex → Route
  | .empty => .stay
  | .literal cs => cs.foldr (fun c r => .seq (.step (Positions.accepted (· == c) text)) r) .stay
  | .set _ s => .step (Positions.accepted s.contains text)
  | .assertion a => .stand (Positions.between a.holds none text)
  | .capture _ r => route text r
  | .seq r s => .seq (route text r) (route text s)
  | .alt r s => .alt (route text r) (route text s)
  | .times r least most _ => .times (route text r) least most

/-- The positions at which a match that begins at one of the given positions can end. The length of
the text bounds the number of times that a repetition adds a position. -/
def Route.reach (length : Nat) : Route → Positions → Positions
  | .stay, ps => ps
  | .step places, ps => (ps &&& places) <<< 1
  | .stand places, ps => ps &&& places
  | .seq r s, ps => s.reach length (r.reach length ps)
  | .alt r s, ps => r.reach length ps ||| s.reach length ps
  | .times r least most, ps =>
    let first := iterate (r.reach length) least ps
    let more := match most with
      | some n => min (n - least) (length + 1)
      | none => length + 1
    closure (r.reach length) more first first

/-- The positions at which a match that begins at one of the given positions can end. -/
def reach (text : List Char) (r : Regex) (ps : Positions) : Positions :=
  (route text r).reach text.length ps

/-- Some part of the text matches. -/
def isMatch (r : Regex) (text : List Char) : Bool := reach text r (Positions.all text) != 0

end Regex

end ResourceEngine
