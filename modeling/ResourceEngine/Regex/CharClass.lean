import ResourceEngine.Regex.CharSet
import ResourceEngine.Text.Blank

/-!
# Bracketed classes of characters

A class is written between brackets: single characters, ranges, classes of ASCII characters by name
and nested classes, joined by union, and further by intersection, difference and symmetric
difference, which all bind alike and to the left. A leading `^` takes the complement. Where case is
ignored, the operands of an operation and the whole class are closed under case variants. A class of
octets holds ASCII characters only and has no complement.
-/

namespace ResourceEngine.Regex

/-- The modes that an expression can turn on and off. -/
structure Flags where
  ignoreCase : Bool
  multiLine : Bool
  dotAll : Bool
  swapGreed : Bool
  crlf : Bool
  ignoreBlanks : Bool
  unicode : Bool

namespace Flags

/-- The modes at the beginning of an expression. -/
def initial : Flags := ⟨false, false, false, false, false, false, true⟩

end Flags

/-- Drops white space, and comments from a number sign to the end of the line. The flag says that a
comment is open. -/
def dropBlanks : Bool → List Char → List Char
  | _, [] => []
  | true, c :: cs => dropBlanks (c != '\n') cs
  | false, c :: cs =>
    if Text.isBlank c then dropBlanks false cs
    else if c = '#' then dropBlanks true cs
    else c :: cs

/-- The first character that is not white space, and not the first number sign either. -/
def firstVisible? (seenSign : Bool) : List Char → Option Char
  | [] => none
  | c :: cs =>
    if Text.isBlank c then firstVisible? seenSign cs
    else if c = '#' ∧ !seenSign then firstVisible? true cs
    else some c

namespace Flags

/-- The rest of an expression after what is not looked at where blanks are ignored. -/
def skip (f : Flags) (cs : List Char) : List Char :=
  if f.ignoreBlanks then dropBlanks false cs else cs

/-- The character that is looked at ahead: the next one, and where blanks are ignored the first
visible one. A comment is not passed over here but for its sign. -/
def peek? (f : Flags) (cs : List Char) : Option Char :=
  if f.ignoreBlanks then firstVisible? false cs <|> cs.head? else cs.head?

/-- The set with what it has to have besides where case is ignored. -/
def close (f : Flags) (s : CharSet) : CharSet :=
  if f.ignoreCase then (if f.unicode then s.withVariants else s.withAsciiVariants) else s

end Flags

/-- The characters that stand for themselves after a backslash. -/
def isMeta (c : Char) : Bool := "\\.+*?()|[]\x7b\x7d^$#&-~".toList.contains c

/-- How two classes are combined. -/
inductive ClassOp where
  | intersection
  | difference
  | symmetricDifference

def ClassOp.apply : ClassOp → CharSet → CharSet → CharSet
  | .intersection => CharSet.intersection
  | .difference => CharSet.difference
  | .symmetricDifference => CharSet.symmetricDifference

/-- A class being read: the left operand of an open operation and its nesting, the union of the
items so far, how many they are, and the deepest nesting among them. -/
structure ClassDraft where
  left : Option (ClassOp × CharSet × Nat)
  items : CharSet
  count : Nat
  depth : Nat

namespace ClassDraft

def start : ClassDraft := ⟨none, [], 0, 0⟩

def add (d : ClassDraft) (s : CharSet) (depth : Nat) : ClassDraft :=
  { d with items := d.items.union s, count := d.count + 1, depth := max d.depth depth }

/-- Adds a character. -/
def addChar (d : ClassDraft) (c : Char) : ClassDraft := d.add [.single c] 0

/-- The class read so far. -/
def value (d : ClassDraft) (f : Flags) : CharSet :=
  match d.left with
  | some (op, s, _) => op.apply s (f.close d.items)
  | none => f.close d.items

/-- The nesting of the class read so far. Several items, and an operation, are a level each. -/
def levels (d : ClassDraft) : Nat :=
  let right := d.depth + (if 2 ≤ d.count then 1 else 0)
  match d.left with
  | some (_, _, left) => max left right + 1
  | none => right

/-- Opens an operation with the class read so far on its left. -/
def operate (d : ClassDraft) (f : Flags) (op : ClassOp) : ClassDraft :=
  ⟨some (op, d.value f, d.levels), [], 0, 0⟩

end ClassDraft

/-- A class of which the complement is taken if its sign says so. Octets have none. -/
def Flags.signed? (f : Flags) (negated : Bool) (s : CharSet) : Option CharSet :=
  if negated then (if f.unicode then some s.complement else none) else some s

/-- A named class of ASCII characters. -/
def asciiClass? (name : String) : Option (List (Char × Char)) :=
  match name with
  | "alnum" => some [('0', '9'), ('A', 'Z'), ('a', 'z')]
  | "alpha" => some [('A', 'Z'), ('a', 'z')]
  | "ascii" => some [('\x00', '\x7f')]
  | "blank" => some [('\t', '\t'), (' ', ' ')]
  | "cntrl" => some [('\x00', '\x1f'), ('\x7f', '\x7f')]
  | "digit" => some [('0', '9')]
  | "graph" => some [('!', '~')]
  | "lower" => some [('a', 'z')]
  | "print" => some [(' ', '~')]
  | "punct" => some [('!', '/'), (':', '@'), ('[', '\x60'), ('\x7b', '~')]
  | "space" => some [('\t', '\r'), (' ', ' ')]
  | "upper" => some [('A', 'Z')]
  | "word" => some [('0', '9'), ('A', 'Z'), ('_', '_'), ('a', 'z')]
  | "xdigit" => some [('0', '9'), ('A', 'F'), ('a', 'f')]
  | _ => none

/-- Reads a named class after its opening bracket: a colon, possibly `^`, the name, and `:]`. The
class itself is `none` if it is a complement of octets. -/
def namedClass? (f : Flags) : List Char → Option (Option CharSet × List Char)
  | ':' :: cs =>
    let (negated, cs) :=
      match cs with
      | '^' :: r => (true, r)
      | r => (false, r)
    let name := String.ofList (cs.takeWhile (· != ':'))
    match cs.dropWhile (· != ':') with
    | ':' :: ']' :: rest =>
      (asciiClass? name).map fun ranges =>
        let s := CharSet.ofRanges (ranges.map fun (lo, hi) => ⟨lo, hi⟩)
        (f.signed? negated (f.close s), rest)
    | _ => none
  | _ => none

/-- Reads one character of a class, escaped or not. -/
def classChar? (f : Flags) (cs : List Char) : Option (Char × List Char) :=
  let read : Option (Char × List Char) :=
    match cs with
    | '\\' :: c :: cs => if isMeta c then some (c, cs) else none
    | '\\' :: [] => none
    | c :: cs => some (c, cs)
    | [] => none
  read.filter fun (c, _) => f.unicode || decide (c.toNat < 0x80)

/-- Reads a character or a range of a class. A hyphen before the closing bracket, and one before
another hyphen, does not make a range. -/
def classRange? (f : Flags) (cs : List Char) : Option (CharRange × List Char) := do
  let (lo, afterLo) ← classChar? f cs
  match f.skip afterLo with
  | [] => none
  | '-' :: r =>
    match f.peek? r with
    | some ']' | some '-' => some (.single lo, '-' :: r)
    | _ =>
      let (hi, afterHi) ← classChar? f (f.skip r)
      if lo ≤ hi then some (⟨lo, hi⟩, afterHi) else none
  | r => some (.single lo, r)

/-- Leading hyphens of a class stand for themselves; at most as many as the bound says are read. -/
def leadingHyphens (f : Flags) : Nat → ClassDraft → List Char → ClassDraft × List Char
  | 0, d, cs => (d, cs)
  | n + 1, d, '-' :: cs => leadingHyphens f n (d.addChar '-') (f.skip cs)
  | _ + 1, d, cs => (d, cs)

/-- Reads what stands at the front of a class, after its opening bracket: the complement sign,
hyphens, at most as many as the bound says, and a closing bracket that comes first, which stands for
itself. -/
def classFront (f : Flags) (n : Nat) (cs : List Char) : Bool × ClassDraft × List Char :=
  let cs := f.skip cs
  let (negated, cs) :=
    match cs with
    | '^' :: r => (true, f.skip r)
    | r => (false, r)
  let (d, cs) := leadingHyphens f n ClassDraft.start cs
  match cs with
  | ']' :: r => if d.count = 0 then (negated, d.addChar ']', f.skip r) else (negated, d, ']' :: r)
  | r => (negated, d, r)

/-- Reads a class to its closing bracket: the set, its nesting, and the rest. Each step takes at
least one character, so a bound above their number is bound enough. -/
def classItems? (f : Flags) :
    Nat → Bool → ClassDraft → List Char → Option (CharSet × Nat × List Char)
  | 0, _, _, _ => none
  | n + 1, negated, d, cs =>
    match f.skip cs with
    | [] => none
    | ']' :: r => (f.signed? negated (d.value f)).map (·, d.levels + 1, r)
    | '[' :: r =>
      match namedClass? f r with
      | some (some s, r) => classItems? f n negated (d.add s 0) r
      | some (none, _) => none
      | none =>
        let (negated', d', r) := classFront f n r
        match classItems? f n negated' d' r with
        | some (s, depth, r) => classItems? f n negated (d.add s depth) r
        | none => none
    | '&' :: '&' :: r => classItems? f n negated (d.operate f .intersection) r
    | '-' :: '-' :: r => classItems? f n negated (d.operate f .difference) r
    | '~' :: '~' :: r => classItems? f n negated (d.operate f .symmetricDifference) r
    | r =>
      match classRange? f r with
      | some (range, r) => classItems? f n negated (d.add [range] 0) r
      | none => none

/-- Reads a class after its opening bracket: the set, its nesting, and the rest. -/
def charClass? (f : Flags) (cs : List Char) : Option (CharSet × Nat × List Char) :=
  let (negated, d, r) := classFront f cs.length cs
  classItems? f (cs.length + 1) negated d r

end ResourceEngine.Regex
