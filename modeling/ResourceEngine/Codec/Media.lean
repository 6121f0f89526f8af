import ResourceEngine.Problem
import ResourceEngine.Text.CaseFold

/-!
# Media types

The format of a body is found by looking for its name in the media type, case ignored, after a
slash, a plus or a hyphen, and before a plus, a hyphen, a semicolon or the end.
-/

namespace ResourceEngine

/-- The format of a body or of an answer. -/
inductive MediaFormat where
  | json
  | form
  | cbor
  deriving DecidableEq

namespace MediaFormat

/-- The name of the format in a media type. -/
def label : MediaFormat → List Char
  | .json => ['j', 's', 'o', 'n']
  | .form => ['f', 'o', 'r', 'm']
  | .cbor => ['c', 'b', 'o', 'r']

/-- The characters are equal but for case. -/
def sameCase (c d : Char) : Bool := (Text.caseVariants c).contains d

/-- The name stands at the front of the text, and nothing after it goes on with the word. -/
def endsWord : List Char → List Char → Bool
  | [], [] => true
  | [], d :: _ => d == '+' || d == '-' || d == ';'
  | _ :: _, [] => false
  | c :: cs, d :: ds => sameCase c d && endsWord cs ds

/-- The name of the format stands in the media type as a word of its own. -/
def occursIn (f : MediaFormat) : List Char → Bool
  | [] => false
  | c :: cs => ((c == '+' || c == '-' || c == '/') && endsWord f.label cs) || occursIn f cs

/-- The format of a media type: the first that occurs in it, in the order JSON, form, CBOR. -/
def detect (mediaType : String) : Except Problem MediaFormat :=
  match [json, form, cbor].find? (·.occursIn mediaType.toList) with
  | some f => .ok f
  | none => .error (.unsupportedContentType mediaType)

/-- The format of an answer. Forms are for bodies only. -/
def ofAccept (accept : String) : Except Problem MediaFormat :=
  match detect accept with
  | .ok .json => .ok .json
  | .ok .cbor => .ok .cbor
  | _ => .error (.unsupportedAcceptType accept)

end MediaFormat

end ResourceEngine
