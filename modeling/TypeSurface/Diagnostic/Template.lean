import TypeSurface.Text.Slice

/-!
# Message templates

A template is filled one argument after the other: the mark of argument `i` is replaced throughout
the text that the arguments before it have produced.
-/

namespace TypeSurface
namespace Template

/-- The mark of argument `i`: its number in braces. -/
def mark (i : Nat) : List Char :=
  '\x7b' :: (Nat.toDigits 10 i ++ ['\x7d'])

def fillFrom (i : Nat) (text : List Char) : List String → List Char
  | [] => text
  | arg :: args => fillFrom (i + 1) (Text.replaceAll (mark i) arg.toList text) args

def fill (template : String) (args : List String) : String :=
  String.ofList (fillFrom 0 template.toList args)

end Template
end TypeSurface
