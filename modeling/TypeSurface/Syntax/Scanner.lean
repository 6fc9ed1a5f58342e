import TypeSurface.Diagnostic.Basic
import TypeSurface.Syntax.Lexeme
import TypeSurface.Syntax.Trivia

/-!
# Scanner

A scanner stands at a token of a source text and holds the text ahead.  It moves on one token at a
time and gathers the defects it meets.  A mark remembers a place; going back to it drops the defects
met since then.
-/

namespace TypeSurface

structure Scanner where
  file : String
  ahead : List Char
  token : Token
  problems : List Diagnostic
deriving DecidableEq, Repr

namespace Scanner

def ofSource (file source : String) : Scanner :=
  ⟨file, source.toList, .start, []⟩

/-- A comment without an end is reported at its two opening characters. -/
def triviaProblems (file : String) (stop : Nat) (trivia : List Trivia) : List Diagnostic :=
  match trivia.getLast? with
  | some (.openComment body) =>
    [.ofRule .unterminatedComment [] file
      (stop - Text.byteLength (Trivia.openComment body).text) 2]
  | _ => []

def lexemeProblems (file : String) (start : Nat) (lexeme : Lexeme) : List Diagnostic :=
  match lexeme.problem with
  | some rule => [.ofRule rule [] file start (Text.byteLength lexeme.text)]
  | none => []

/-- The scanner at the next token. -/
def scan (s : Scanner) : Scanner :=
  let (trivia, cs) := Trivia.readAll s.ahead
  let lexeme := Lexeme.read cs
  let start := s.token.span.stop + Text.byteLength (trivia.flatMap Trivia.text)
  let stop := start + Text.byteLength lexeme.text
  { s with
    ahead := lexeme.rest
    token := ⟨lexeme.kind, ⟨start, stop⟩, String.ofList lexeme.value,
      trivia.any Trivia.hasLineBreak⟩
    problems := s.problems ++
      (triviaProblems s.file start trivia ++ lexemeProblems s.file start lexeme) }

/-- A place to go back to. -/
structure Mark where
  ahead : List Char
  token : Token
  problemCount : Nat
deriving DecidableEq, Repr

def mark (s : Scanner) : Mark := ⟨s.ahead, s.token, s.problems.length⟩

def rewind (s : Scanner) (m : Mark) : Scanner :=
  { s with ahead := m.ahead, token := m.token, problems := s.problems.take m.problemCount }

/-- The scanner without its defects. -/
def clearProblems (s : Scanner) : Scanner := { s with problems := [] }

/-- How much there is to read: the characters ahead, and one for a token that is not the end. -/
def remaining (s : Scanner) : Nat :=
  s.ahead.length + if s.token.kind = .endOfFile then 0 else 1

/-- The scanner at the first token that `p` holds of, starting with the next one. -/
def scanUntil (p : Token → Bool) (s : Scanner) : Scanner :=
  let next := s.scan
  if p next.token then next
  else if next.remaining < s.remaining then scanUntil p next
  else next
termination_by s.remaining

@[simp] theorem rewind_mark (s : Scanner) : s.rewind s.mark = s := by
  simp [rewind, mark]

end Scanner
end TypeSurface
