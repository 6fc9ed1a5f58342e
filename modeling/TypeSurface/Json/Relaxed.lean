import TypeSurface.Text.Slice

/-!
# JSON with comments

A text may hold comments, and a comma behind the last element of an array or object.  Both are taken
out before the text is read; neither is looked for inside quotes.
-/

namespace TypeSurface
namespace Json

mutual

/-- The text without its comments.  Line breaks stay, and a comment that is not closed ends with the
text. -/
def stripComments : List Char → List Char
  | [] => []
  | '"' :: cs => '"' :: stripQuoted cs
  | '/' :: '/' :: cs => stripLine cs
  | '/' :: '*' :: cs => stripBlock cs
  | c :: cs => c :: stripComments cs

def stripLine : List Char → List Char
  | [] => []
  | '\n' :: cs => '\n' :: stripComments cs
  | _ :: cs => stripLine cs

def stripBlock : List Char → List Char
  | [] => []
  | '*' :: '/' :: cs => stripComments cs
  | '\n' :: cs => '\n' :: stripBlock cs
  | _ :: cs => stripBlock cs

def stripQuoted : List Char → List Char
  | [] => []
  | '"' :: cs => '"' :: stripComments cs
  | '\\' :: c :: cs => '\\' :: c :: stripQuoted cs
  | c :: cs => c :: stripQuoted cs

end

/-- Whether the next character that is no white space closes an array or object. -/
def closesNext (cs : List Char) : Bool :=
  match cs.find? (!CharClass.isWhiteSpace ·) with
  | some c => c == '\x7d' || c == ']'
  | none => false

mutual

/-- The text without the commas before a closing bracket or brace. -/
def dropTrailingCommas : List Char → List Char
  | [] => []
  | '"' :: cs => '"' :: dropTrailingQuoted cs
  | ',' :: cs => if closesNext cs then dropTrailingCommas cs else ',' :: dropTrailingCommas cs
  | c :: cs => c :: dropTrailingCommas cs

def dropTrailingQuoted : List Char → List Char
  | [] => []
  | '"' :: cs => '"' :: dropTrailingCommas cs
  | '\\' :: c :: cs => '\\' :: c :: dropTrailingQuoted cs
  | c :: cs => c :: dropTrailingQuoted cs

end

/-- The strict text that a relaxed one stands for. -/
def strictText (cs : List Char) : List Char :=
  dropTrailingCommas (stripComments cs)

end Json
end TypeSurface
