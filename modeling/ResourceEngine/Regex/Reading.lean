import ResourceEngine.Regex.AutomatonSize
import ResourceEngine.Regex.CharClass
import ResourceEngine.Text.Alphabetic
import ResourceEngine.Text.Numeral

/-!
# Reading regular expressions

An expression is read from left to right with the groups still open on a stack. `ofText?` refuses a
text that is no expression, one nested deeper than `nestLimit`, and one whose automata are not
small.
-/

namespace ResourceEngine.Regex

/-- The deepest nesting of an expression. -/
def nestLimit : Nat := 250

/-- A part of an expression, with its nesting as it is written, and whether a repetition may follow
it. -/
structure Part where
  regex : Regex
  depth : Nat
  repeatable : Bool

namespace Part

/-- The part that matches the empty text, and cannot be repeated; a change of modes is one too. -/
def empty : Part := ⟨.empty, 0, false⟩

/-- A character, in either case where the modes ignore case. -/
def literal (f : Flags) (c : Char) : Part :=
  let variants :=
    if f.unicode then Text.caseVariants c
    else if c.isAlpha then [c.toLower, c.toUpper]
    else [c]
  let r :=
    if f.ignoreCase ∧ variants.any (· != c) then ofSet (!f.unicode) (.ofChars variants)
    else .literal [c]
  ⟨r, 0, true⟩

/-- A condition on a position. -/
def assertion (a : Assertion) : Part := ⟨.assertion a, 0, true⟩

/-- Any character, or any but the end of a line. A character is more than an octet, so there is none
among octets. -/
def dot? (f : Flags) : Option Part :=
  let lineEnds := if f.dotAll then [] else if f.crlf then ['\n', '\r'] else ['\n']
  if f.unicode then some ⟨.set false (CharSet.ofChars lineEnds).complement, 0, true⟩ else none

/-- Parts in sequence, the last first. -/
def sequence : List Part → Part
  | [] => empty
  | [p] => p
  | ps => ⟨concat (ps.reverse.map regex), (ps.map depth).foldl max 0 + 1, true⟩

/-- Parts of which one matches, the last first. -/
def choice : List Part → Part
  | [] => empty
  | [p] => p
  | ps => ⟨Regex.choice (ps.reverse.map regex), (ps.map depth).foldl max 0 + 1, true⟩

/-- A part in a group, numbered if it keeps what it matches. -/
def group (number : Option Nat) (p : Part) : Part :=
  ⟨match number with | some n => .capture n p.regex | none => p.regex, p.depth + 1, true⟩

/-- A repeated part. -/
def repetition (least : Nat) (most : Option Nat) (greedy : Bool) (p : Part) : Part :=
  ⟨repeated least most greedy p.regex, p.depth + 1, true⟩

end Part

/-- An open group: what stands before it, the modes outside it, and its number if it has one. -/
structure Frame where
  choices : List Part
  branch : List Part
  flags : Flags
  number : Option Nat

/-- The state of reading: the open groups from the innermost, the finished branches and the parts of
the open branch of the innermost group, last first, the modes, how many groups are numbered so far,
and the names of groups. -/
structure Reader where
  frames : List Frame
  choices : List Part
  branch : List Part
  flags : Flags
  numbered : Nat
  names : List String

namespace Reader

def start : Reader := ⟨[], [], [], .initial, 0, []⟩

/-- Adds a part to the open branch. -/
def push (m : Reader) (p : Part) : Reader := { m with branch := p :: m.branch }

/-- What has been read of the innermost group. -/
def content (m : Reader) : Part :=
  match m.choices with
  | [] => Part.sequence m.branch
  | cs => Part.choice (Part.sequence m.branch :: cs)

/-- Ends the branch at a bar. -/
def bar (m : Reader) : Reader :=
  { m with choices := Part.sequence m.branch :: m.choices, branch := [] }

/-- Opens a group in which the given modes hold. -/
def openGroup (m : Reader) (capturing : Bool) (inside : Flags) : Reader :=
  let numbered := if capturing then m.numbered + 1 else m.numbered
  let number := if capturing then some numbered else none
  { m with
    frames := ⟨m.choices, m.branch, m.flags, number⟩ :: m.frames
    choices := []
    branch := []
    flags := inside
    numbered := numbered }

/-- Closes the innermost group, if one is open. -/
def closeGroup? (m : Reader) : Option Reader :=
  match m.frames with
  | [] => none
  | f :: fs =>
    some
      { m with
        frames := fs
        choices := f.choices
        branch := Part.group f.number m.content :: f.branch
        flags := f.flags }

/-- Repeats the last part, if there is one that can be repeated. A question mark that follows the
count, and the mode that swaps greed, each turn a greedy repetition into a lazy one and back. -/
def repeatLast? (m : Reader) (least : Nat) (most : Option Nat) (cs : List Char) :
    Option (Reader × List Char) :=
  let (lazily, rest) :=
    match cs with
    | '?' :: r => (true, r)
    | r => (false, r)
  match m.branch with
  | p :: ps =>
    if p.repeatable then
      let p := Part.repetition least most (lazily == m.flags.swapGreed) p
      some ({ m with branch := p :: ps }, rest)
    else none
  | [] => none

end Reader

/-- A mode by its letter, turned on or off. -/
def Flags.set? (f : Flags) (on : Bool) : Char → Option Flags
  | 'i' => some { f with ignoreCase := on }
  | 'm' => some { f with multiLine := on }
  | 's' => some { f with dotAll := on }
  | 'U' => some { f with swapGreed := on }
  | 'u' => some { f with unicode := on }
  | 'R' => some { f with crlf := on }
  | 'x' => some { f with ignoreBlanks := on }
  | _ => none

/-- Reads modes up to the colon or parenthesis that ends them. A letter stands at most once, a
hyphen turns the modes after it off, and something follows the hyphen. -/
def readModes? (seen : List Char) (f : Flags) : List Char → Option (List Char × Flags × List Char)
  | [] => none
  | c :: cs =>
    if c = ':' ∨ c = ')' then
      if seen.head? = some '-' then none else some (seen, f, c :: cs)
    else if seen.contains c then none
    else if c = '-' then readModes? (c :: seen) f cs
    else
      match f.set? (!seen.contains '-') c with
      | some f => readModes? (c :: seen) f cs
      | none => none

/-- The character may stand in the name of a group. -/
def isNameChar (first : Bool) (c : Char) : Bool :=
  if first then c == '_' || Text.isAlphabetic c
  else c == '_' || c == '.' || c == '[' || c == ']' || Text.isAlphabetic c || Text.isNumeric c

/-- Reads the name of a group up to its closing angle. -/
def groupName? (cs : List Char) : Option (String × List Char) :=
  let name := cs.takeWhile (· != '>')
  match name, cs.dropWhile (· != '>') with
  | c :: r, '>' :: rest =>
    if isNameChar true c && r.all (isNameChar false) then some (String.ofList name, rest) else none
  | _, _ => none

namespace Reader

/-- Opens a group with a name that no other group has. -/
def openNamed? (m : Reader) (cs : List Char) : Option (Reader × List Char) :=
  match groupName? cs with
  | some (name, rest) =>
    if m.names.contains name then none
    else some ({ m with names := name :: m.names }.openGroup true m.flags, rest)
  | none => none

/-- Reads what follows an opening parenthesis: a name, modes, or nothing of its own. -/
def parenthesis? (m : Reader) (cs : List Char) : Option (Reader × List Char) :=
  match m.flags.skip cs with
  | '?' :: '=' :: _ | '?' :: '!' :: _ | '?' :: '<' :: '=' :: _ | '?' :: '<' :: '!' :: _ => none
  | '?' :: 'P' :: '<' :: r => m.openNamed? r
  | '?' :: '<' :: r => m.openNamed? r
  | '?' :: r =>
    match readModes? [] m.flags r with
    | some (seen, f, ')' :: rest) =>
      if seen.isEmpty then none else some ({ m with flags := f }.push Part.empty, rest)
    | some (_, f, _ :: rest) => some (m.openGroup false f, rest)
    | _ => none
  | r => some (m.openGroup true m.flags, r)

end Reader

/-- Reads decimal digits as far as they go, at most `n` of them, passing over what the modes skip.
-/
def countDigits (f : Flags) : Nat → List Char → List Char × List Char
  | n + 1, c :: cs =>
    if c.isDigit then
      let (ds, rest) := countDigits f n (f.skip cs)
      (c :: ds, rest)
    else ([], c :: cs)
  | _, cs => ([], cs)

/-- Reads a count: decimal digits with white space around them, that fit 32 bits. `none` for a
number stands for no digits. -/
def count? (f : Flags) (cs : List Char) : Option (Option Nat × List Char) :=
  let cs := cs.dropWhile Text.isBlank
  let (ds, rest) := countDigits f cs.length cs
  let rest := f.skip (rest.dropWhile Text.isBlank)
  if ds.isEmpty then some (none, rest)
  else
    let n := Text.digitsValue ds
    if n < UInt32.size then some (some n, rest) else none

/-- Reads the counts of a repetition after its opening brace: one, a least one, or two in order. -/
def counts? (f : Flags) (cs : List Char) : Option (Nat × Option Nat × List Char) := do
  let (least, r) ← count? f (f.skip cs)
  match least, r with
  | some n, '}' :: rest => some (n, some n, rest)
  | some n, ',' :: r =>
    match f.skip r with
    | '}' :: rest => some (n, none, rest)
    | r =>
      let (most, r) ← count? f r
      match most, r with
      | some m, '}' :: rest => if n ≤ m then some (n, some m, rest) else none
      | _, _ => none
  | _, _ => none

namespace Reader

/-- Reads one piece that begins with the given character. -/
def step? (m : Reader) (c : Char) (cs : List Char) : Option (Reader × List Char) :=
  match c with
  | '(' => m.parenthesis? cs
  | ')' => m.closeGroup?.map (·, cs)
  | '|' => some (m.bar, cs)
  | '[' =>
    (charClass? m.flags cs).map fun (s, depth, rest) =>
      (m.push ⟨ofSet (!m.flags.unicode) s, depth, true⟩, rest)
  | '?' => m.repeatLast? 0 (some 1) cs
  | '*' => m.repeatLast? 0 none cs
  | '+' => m.repeatLast? 1 none cs
  | '{' =>
    match counts? m.flags cs with
    | some (least, most, rest) => m.repeatLast? least most (m.flags.skip rest)
    | none => none
  | '\\' =>
    match cs with
    | e :: rest => if isMeta e then some (m.push (Part.literal m.flags e), rest) else none
    | [] => none
  | '.' => (Part.dot? m.flags).map fun p => (m.push p, cs)
  | '^' =>
    let a := if m.flags.multiLine then Assertion.lineStart m.flags.crlf else .textStart
    some (m.push (Part.assertion a), cs)
  | '$' =>
    let a := if m.flags.multiLine then Assertion.lineEnd m.flags.crlf else .textEnd
    some (m.push (Part.assertion a), cs)
  | c => some (m.push (Part.literal m.flags c), cs)

/-- Reads pieces to the end of the text; every piece takes at least one character, so the length of
the text is bound enough. -/
def run? : Nat → Reader → List Char → Option Reader
  | n, m, cs =>
    match m.flags.skip cs with
    | [] => some m
    | c :: cs =>
      match n with
      | 0 => none
      | n + 1 =>
        match m.step? c cs with
        | some (m, rest) => run? n m rest
        | none => none

end Reader

/-- The expression a text stands for. -/
def ofText? (cs : List Char) : Option Regex := do
  let m ← Reader.start.run? cs.length cs
  if m.frames.isEmpty then
    let p := m.content
    if p.depth ≤ nestLimit ∧ p.regex.isSmall then some p.regex else none
  else
    none

end ResourceEngine.Regex
