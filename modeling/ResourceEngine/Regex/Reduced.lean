import ResourceEngine.Regex.Basic

/-!
# Reduced expressions

Expressions are put together in a reduced form: a sequence holds no sequence, no empty expression
and no two literals in a row, an alternation holds no alternation, an alternation of characters is a
set, a set of one character is a literal, a prefix that all branches share stands before them, and
what matches the empty text only is repeated at most once. `concat`, `choice`, `ofSet` and
`repeated` keep this form. A sequence and an alternation nest to the right, and `parts` and
`branches` list them.
-/

namespace ResourceEngine.Regex

/-- The expression that matches nothing. -/
def fail : Regex := .set true []

/-- The set as an expression: a literal if it has one character. -/
def ofSet (octets : Bool) (s : CharSet) : Regex :=
  match s with
  | [] => fail
  | [r] => if r.lo = r.hi then .literal [r.lo] else .set octets s
  | _ => .set octets s

/-- The expressions in sequence. -/
def parts : Regex → List Regex
  | .empty => []
  | .seq r s => r :: parts s
  | r => [r]

/-- The expressions one of which matches. -/
def branches : Regex → List Regex
  | .alt r s => r :: branches s
  | r => [r]

/-- A sequence of the given parts. -/
def ofParts : List Regex → Regex
  | [] => .empty
  | [r] => r
  | r :: rs => .seq r (ofParts rs)

/-- An alternation of the given branches. -/
def ofBranches : List Regex → Regex
  | [] => fail
  | [r] => r
  | r :: rs => .alt r (ofBranches rs)

/-- Makes one literal of literals in a row. -/
def joinLiterals : List Regex → List Regex
  | [] => []
  | .literal cs :: rest =>
    match joinLiterals rest with
    | .literal ds :: rest => .literal (cs ++ ds) :: rest
    | rest => .literal cs :: rest
  | r :: rest => r :: joinLiterals rest

/-- The expressions in sequence, reduced. -/
def concat (rs : List Regex) : Regex := ofParts (joinLiterals (rs.flatMap parts))

/-- The character of a literal of one character. -/
def char? : Regex → Option Char
  | .literal [c] => some c
  | _ => none

/-- The set of characters of an expression that is one. -/
def set? : Regex → Option CharSet
  | .set _ s => some s
  | _ => none

/-- An alternation of branches that are none themselves: a set if all are characters or all are
sets. -/
def characterChoice? (rs : List Regex) : Option Regex :=
  match rs.mapM char? with
  | some cs => some (ofSet false (.ofChars cs))
  | none => (rs.mapM set?).map fun sets => ofSet false (sets.foldl CharSet.union [])

/-- The branches of an alternation in one expression. -/
def merge (rs : List Regex) : Regex :=
  match rs with
  | [r] => r
  | rs => (characterChoice? rs).getD (ofBranches rs)

/-- What two lists begin with alike. -/
def sharedPrefix : List Regex → List Regex → List Regex
  | x :: xs, y :: ys => if x = y then x :: sharedPrefix xs ys else []
  | _, _ => []

def isSequence : Regex → Bool
  | .seq _ _ => true
  | _ => false

/-- The parts that all of some sequences begin with; none if one of them is no sequence. -/
def commonPrefix (rs : List Regex) : List Regex :=
  match rs with
  | r :: rest =>
    if (r :: rest).all isSequence then
      rest.foldl (fun shared s => sharedPrefix shared s.parts) r.parts
    else []
  | [] => []

/-- The expressions one of which matches, reduced. What is left of the branches behind a common
prefix has no common prefix, so one step is enough. -/
def choice (rs : List Regex) : Regex :=
  match rs.flatMap branches with
  | [r] => r
  | bs =>
    match commonPrefix bs with
    | [] => merge bs
    | shared =>
      let rests := bs.map fun b => ofParts (b.parts.drop shared.length)
      concat (shared ++ [merge (rests.flatMap branches)])

/-- The expression matches no text but the empty one, by its form. -/
def takesNothing : Regex → Bool
  | .empty | .assertion _ => true
  | .literal cs => cs.isEmpty
  | .set _ _ => false
  | .capture _ r => takesNothing r
  | .seq r s | .alt r s => takesNothing r && takesNothing s
  | .times r _ _ _ => takesNothing r

/-- The fewest characters of a match, by the form of the expression; `none` for one with a part that
matches nothing. -/
def leastLength? : Regex → Option Nat
  | .empty | .assertion _ => some 0
  | .literal cs => some cs.length
  | .set _ s => if s.isEmpty then none else some 1
  | .capture _ r => leastLength? r
  | .seq r s => do return (← leastLength? r) + (← leastLength? s)
  | .alt r s => do return min (← leastLength? r) (← leastLength? s)
  | .times r least _ _ => (leastLength? r).map (least * ·)

/-- Every match takes a character, by the form of the expression. -/
def takesSomething (r : Regex) : Bool := (leastLength? r).any (0 < ·)

/-- A match begins at the start of the text, by the form of the expression. -/
def beginsAtStart : Regex → Bool
  | .assertion a => a = .textStart
  | .capture _ r => beginsAtStart r
  | .seq r s => beginsAtStart r || (takesNothing r && beginsAtStart s)
  | .alt r s => beginsAtStart r && beginsAtStart s
  | .times r least _ _ => 0 < least && beginsAtStart r
  | _ => false

/-- A match ends at the end of the text, by the form of the expression. -/
def endsAtEnd : Regex → Bool
  | .assertion a => a = .textEnd
  | .capture _ r => endsAtEnd r
  | .seq r s => endsAtEnd s || (takesNothing s && endsAtEnd r)
  | .alt r s => endsAtEnd r && endsAtEnd s
  | .times r least _ _ => 0 < least && endsAtEnd r
  | _ => false

/-- A repetition, reduced: of what takes nothing, a second time adds nothing. -/
def repeated (least : Nat) (most : Option Nat) (greedy : Bool) (r : Regex) : Regex :=
  let (least, most) :=
    if takesNothing r then (min least 1, some (min (most.getD 1) 1)) else (least, most)
  if most = some 0 then .empty
  else if least = 1 ∧ most = some 1 then r
  else .times r least most greedy

end ResourceEngine.Regex
