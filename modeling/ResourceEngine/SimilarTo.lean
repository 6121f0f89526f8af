import ResourceEngine.Regex.Reading

/-!
# SIMILAR TO patterns

A pattern is written as a regular expression between anchors. `%` stands for any text and `_` for
any character; alternation, repetition, groups and bracketed classes keep their meaning; a backslash
makes the next character stand for itself, as all others do.
-/

namespace ResourceEngine.SimilarTo

/-- A character that stands for itself in an expression. -/
def escape (c : Char) : List Char := if Regex.isMeta c then ['\\', c] else [c]

/-- The characters that mean in an expression what they mean in a pattern. -/
def isOperator (c : Char) : Bool := "|*+?\x7b\x7d()".toList.contains c

/-- The expression of a pattern without its anchors. The flag says that a bracketed class is open;
it is copied up to the first closing bracket, with backslashes standing for themselves. -/
def body : Bool → List Char → List Char
  | _, [] => []
  | true, c :: cs =>
    if c = '\\' then '\\' :: '\\' :: body true cs else c :: body (c != ']') cs
  | false, '%' :: cs => '.' :: '*' :: body false cs
  | false, '_' :: cs => '.' :: body false cs
  | false, '\\' :: c :: cs => escape c ++ body false cs
  | false, ['\\'] => []
  | false, '[' :: cs => '[' :: body true cs
  | false, c :: cs => if isOperator c then c :: body false cs else escape c ++ body false cs

/-- The expression of a pattern: it has to match a text from the start to the end. -/
def expression (pattern : List Char) : List Char :=
  "(?s)^(?:".toList ++ body false pattern ++ ")$".toList

/-- The regular expression of a pattern, if the pattern makes one. -/
def compile? (pattern : String) : Option Regex := Regex.ofText? (expression pattern.toList)

end ResourceEngine.SimilarTo
