import TypeSurface.Syntax.Parser.Types

/-!
# Grammar of files

A file starts with directives; statements follow.  Reading never fails: a statement that cannot be
read is reported and passed over.
-/

namespace TypeSurface
namespace Parser

/-- The type of a statement or of a member of an interface. -/
def outerType : Parser TypeExpr := typeExpr maxTypeNesting

/-- A round of the head of a file: a line of three slashes, which is a comment if it opens no tag. -/
def directiveRound (found : List Directive) : Parser (Step (List Directive) (List Directive)) := do
  let token ← view State.token
  if token.kind = .directive then
    let added ←
      if token.value.toList.head? = some '<' then
        match Directive.ofText? token.value token.span with
        | some d => pure [d]
        | none =>
          report .malformedDirective [token.value] token.span
          pure []
      else pure []
    update fun s ↦ { s.commit with lastEnd := token.span.stop }
    return .again (found ++ added)
  else return .done found

/-- The directives at the head of a file. -/
def directives : Parser (List Directive) := loop directiveRound []

/-- A statement may end with its line or with the file instead of a semicolon. -/
def semicolon : Parser Unit := do
  unless ← accept .semicolon do
    let token ← view State.token
    unless token.kind = .closeBrace || token.kind = .endOfFile || token.afterLineBreak do
      reportExpected ";"

def heritage : Parser (List TypeExpr) := do
  if ← view (·.isWord "extends") then
    advance
    let first ← typeReference outerType
    introduced .comma (typeReference outerType) first
  else return []

def interfaceBody : Parser StatementBody := do
  let typeParams ← typeParams outerType
  let heritage ← heritage
  return .interface typeParams heritage (← memberBlock outerType)

def typeAliasBody : Parser StatementBody := do
  let typeParams ← typeParams outerType
  require .equals
  let type ← outerType
  semicolon
  return .typeAlias typeParams type

def variableBody (kind : VariableKind) : Parser StatementBody := do
  let type ← annotatedType outerType
  semicolon
  return .variable kind type

def functionBody : Parser StatementBody := do
  let signature ← memberSignature outerType
  semicolon
  return .function signature

/-- What follows a word that starts a statement.  Variables and functions are declared only. -/
def bodyOf? (isDeclared : Bool) (word : String) : Option (Parser StatementBody) :=
  if word = "interface" then some interfaceBody
  else if word = "type" then some typeAliasBody
  else if isDeclared then
    if word = "function" then some functionBody
    else (VariableKind.ofText? word).map variableBody
  else none

theorem eq_of_bodyOf? {isDeclared : Bool} {word : String} {body : Parser StatementBody}
    (h : bodyOf? isDeclared word = some body) :
    body = interfaceBody ∨ body = typeAliasBody ∨ body = functionBody ∨
      ∃ kind, body = variableBody kind := by
  unfold bodyOf? at h
  split at h
  · exact Or.inl (Option.some.inj h).symm
  split at h
  · exact Or.inr (Or.inl (Option.some.inj h).symm)
  split at h
  · split at h
    · exact Or.inr (Or.inr (Or.inl (Option.some.inj h).symm))
    · obtain ⟨kind, -, rfl⟩ := Option.map_eq_some_iff.1 h
      exact Or.inr (Or.inr (Or.inr ⟨kind, rfl⟩))
  · cases h

/-- A statement from the word on that says what it declares. -/
def declaration (start : Nat) (isDeclared : Bool) : Parser Statement := do
  match bodyOf? isDeclared (← view State.value) with
  | some body =>
    advance
    let (name, nameSpan) ← identifier
    let body ← body
    return ⟨name, nameSpan, ← view (·.spanFrom start), body⟩
  | none =>
    reportHere .declarationExpected []
    giveUp

def statement : Parser Statement := do
  let first ← view State.token
  if first.kind = .identifier then
    let isDeclared := first.isWord "declare"
    if isDeclared then advance
    declaration first.span.start isDeclared
  else
    reportHere .declarationExpected []
    giveUp

/-- Whether the current word starts a statement on a line of its own. -/
def startsStatement (token : Token) : Bool :=
  token.kind = .identifier && token.afterLineBreak &&
    ["interface", "declare", "type"].contains token.value

/-- A round of passing over the rest of a statement, this many braces deep. -/
def statementRecoveryRound (depth : Nat) : Parser (Step Nat Unit) := do
  let token ← view State.token
  match token.kind with
  | .endOfFile => return .done ()
  | .openBrace => advance; return .again (depth + 1)
  | .closeBrace =>
    advance
    return if depth ≤ 1 then .done () else .again (depth - 1)
  | .semicolon =>
    advance
    return if depth = 0 then .done () else .again depth
  | _ =>
    if depth = 0 && startsStatement token then return .done ()
    else
      advance
      return .again depth

/-- Passes over the rest of a statement that could not be read: behind its semicolon or its block,
or up to the next statement. -/
def recoverToStatement : Parser Unit := loop statementRecoveryRound 0

def isInFile (s : State) : Bool := !(s.kind = .endOfFile) && !s.isAbandoned

/-- A round of a file: a semicolon or a statement. -/
def fileRound : List Statement → Parser (List Statement) :=
  itemRound (· = .semicolon) statement recoverToStatement

def statements : Parser (List Statement) := loopWhile isInFile fileRound []

def file : Parser (List Directive × List Statement) := do
  let directives ← directives
  return (directives, ← statements)

/-- The defects of a file in the order of their places, those of tokens first where two start at
one place, and no more than the limit. -/
def State.allProblems (s : State) : List Diagnostic :=
  ((s.scanner.problems ++ s.problems).mergeSort (·.start ≤ ·.start)).take maxProblems

end Parser

namespace SourceFile

def parse (file source : String) : SourceFile :=
  let (result, s) := Parser.file (.ofSource file source)
  let (directives, statements) := result.getD ([], [])
  ⟨file, directives, statements, s.allProblems⟩

/-- Whether the source holds a member that cannot be read and behind which the reader cannot go
on. -/
def stalls (file source : String) : Bool :=
  (Parser.file (.ofSource file source)).2.stalledAt.isSome

end SourceFile
end TypeSurface
