import ResourceEngine.Config.Basic
import ResourceEngine.Config.Scalar
import ResourceEngine.Text.Utf8

/-!
# Settings files

A settings file is a TOML text of `key = value` lines. A setting that is not given has its default.
A key that is no setting, or a value that its setting cannot have, makes the whole text malformed;
so do tables and all other kinds of values, since no setting has them.
-/

namespace ResourceEngine.Config

/-- Why there is no configuration. -/
inductive Refusal where
  | missing (path : String)
  /-- The file is not UTF-8. -/
  | unreadable
  | malformed
  | invalid (fault : Fault)
  deriving DecidableEq

/-- The wording of a refusal. -/
def Refusal.message : Refusal → String
  | .missing path => "config not found: " ++ path
  | .unreadable => "config is not UTF-8"
  | .malformed => "config is malformed"
  | .invalid fault => "invalid configuration: " ++ fault.message

/-- The configuration, if nothing is wrong with it. -/
def checked (c : Config) : Except Refusal Config :=
  match c.fault? with
  | none => .ok c
  | some fault => .error (.invalid fault)

/-- A number of 64 bits without a sign. -/
def limit? (i : Int) : Option UInt64 :=
  if 0 ≤ i ∧ i < UInt64.size then some (UInt64.ofNat i.toNat) else none

/-- The configuration with one setting replaced, if there is such a setting and it can have the
value. -/
def set? (c : Config) (key : String) (v : Scalar) : Option Config :=
  match key, v with
  | "defaultLimit", .integer i => (limit? i).map ({ c with defaultLimit := · })
  | "maxLimit", .integer i => (limit? i).map ({ c with maxLimit := · })
  | "defaultContentType", .text s => some { c with defaultContentType := s }
  | "defaultAccept", .text s => some { c with defaultAccept := s }
  | "defaultNamespace", .text s => some { c with defaultNamespace := some s }
  | _, _ => none

/-- Sets settings one after another; each may be given once. -/
def setAll? (given : List String) (c : Config) : List (String × Scalar) → Option Config
  | [] => some c
  | (key, v) :: rest =>
    if given.contains key then none
    else (c.set? key v).bind fun c => setAll? (key :: given) c rest

/-- Reads a key: a word, or a text on one line. -/
def key? (cs : List Char) : Option (List Char × List Char) :=
  match Scalar.lineText? cs with
  | some r => some r
  | none =>
    if (cs.takeWhile Scalar.isWordChar).isEmpty then none
    else some (cs.takeWhile Scalar.isWordChar, cs.dropWhile Scalar.isWordChar)

/-- What follows the end of a line: gaps, possibly a comment, and a line end or the end of the text.
-/
def lineEnd? (cs : List Char) : Option (List Char) :=
  let rest := cs.dropWhile Scalar.isGap
  match (match rest with
    | '#' :: comment => comment.dropWhile Scalar.isInline
    | rest => rest) with
  | [] => some []
  | '\n' :: rest => some rest
  | '\r' :: '\n' :: rest => some rest
  | _ => none

/-- Reads `key = value` up to the end of its line. -/
def setting? (cs : List Char) : Option ((String × Scalar) × List Char) := do
  let (key, rest) ← key? cs
  match rest.dropWhile Scalar.isGap with
  | '=' :: rest =>
    let (v, rest) ← Scalar.ofChars? (rest.dropWhile Scalar.isGap)
    return ((String.ofList key, v), ← lineEnd? rest)
  | _ => none

/-- The settings of a text, after those read so far, last first. -/
def settings? (read : List (String × Scalar)) (cs : List Char) : Option (List (String × Scalar)) :=
  if cs.isEmpty then some read.reverse
  else
    let line := cs.dropWhile Scalar.isGap
    match lineEnd? line, setting? line with
    | some rest, _ => if rest.length < cs.length then settings? read rest else none
    | none, some (s, rest) => if rest.length < cs.length then settings? (s :: read) rest else none
    | none, none => none
termination_by cs.length

/-- Drops a byte order mark at the front. -/
def dropMark : List Char → List Char
  | '\uFEFF' :: cs => cs
  | cs => cs

/-- The configuration that a text gives. -/
def ofText (s : String) : Except Refusal Config :=
  match (settings? [] (dropMark s.toList)).bind (setAll? [] Config.default) with
  | some c => c.checked
  | none => .error .malformed

/-- The configuration in a file, given its octets if it exists. -/
def ofFile (path : String) (content : Option (List UInt8)) : Except Refusal Config :=
  match content with
  | none => .error (.missing path)
  | some octets =>
    match Text.ofUtf8? octets with
    | some cs => ofText (String.ofList cs)
    | none => .error .unreadable

end ResourceEngine.Config
