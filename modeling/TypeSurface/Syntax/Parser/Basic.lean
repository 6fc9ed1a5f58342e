import TypeSurface.Syntax.Scanner

/-!
# Parser

A parser reads tokens from a scanner and reports defects.  It answers a value or gives up; either
way the state goes on, so that whoever called it can resume further on in the file.

All repetition goes through `Parser.loop`, whose rounds must leave less to read than there was
before.  A round that would be repeated at the same place ends the loop, and the place is recorded.
-/

namespace TypeSurface

/-- A parser that has this many defects to report stops reading the file. -/
def maxProblems : Nat := 100

/-- How deep type expressions may be nested. -/
def maxTypeNesting : Nat := 128

structure Parser.State where
  scanner : Scanner
  /-- The defects of the grammar; the scanner keeps those of single tokens. -/
  problems : List Diagnostic
  /-- Where the token before the current one ends. -/
  lastEnd : Nat
  /-- Set when the file has too many defects or its types are nested too deep. -/
  isAbandoned : Bool
  /-- Where a loop would have gone on without reading anything. -/
  stalledAt : Option Scanner
deriving DecidableEq

def Parser (α : Type) : Type := Parser.State → Option α × Parser.State

namespace Parser

instance : Monad Parser where
  pure a s := (some a, s)
  bind p f s :=
    match p s with
    | (some a, s') => f a s'
    | (none, s') => (none, s')

@[simp] theorem pure_run {α : Type} (a : α) (s : State) : (pure a : Parser α) s = (some a, s) := rfl

theorem bind_run {α β : Type} (p : Parser α) (f : α → Parser β) (s : State) :
    (p >>= f) s =
      match p s with
      | (some a, s') => f a s'
      | (none, s') => (none, s') := rfl

/-- No value. -/
def giveUp {α : Type} : Parser α := fun s ↦ (none, s)

/-- Goes on where `p` gave up. -/
def attempt {α : Type} (p : Parser α) : Parser (Option α) := fun s ↦
  let (result, s') := p s
  (some result, s')

def view {α : Type} (f : State → α) : Parser α := fun s ↦ (some (f s), s)

def update (f : State → State) : Parser Unit := fun s ↦ (some (), f s)

namespace State

def ofSource (file source : String) : State :=
  ⟨(Scanner.ofSource file source).scan, [], 0, false, none⟩

def token (s : State) : Token := s.scanner.token

def kind (s : State) : TokenKind := s.token.kind

def value (s : State) : String := s.token.value

def isWord (s : State) (text : String) : Bool := s.token.isWord text

/-- The token behind the current one, which stays current. -/
def next (s : State) : Token := s.scanner.scan.token

def remaining (s : State) : Nat := s.scanner.remaining

/-- The state at the next token.  Directive lines behind the head of the file are passed over. -/
def advance (s : State) : State :=
  { s with
    lastEnd := s.token.span.stop
    scanner := s.scanner.scanUntil (·.kind ≠ .directive) }

/-- The state at the very next token, as seen ahead by `next`. -/
def commit (s : State) : State := { s with scanner := s.scanner.scan }

/-- A defect where the last one was reported is not reported, and none after the file has been
abandoned.  The defect that fills the list up abandons the file. -/
def report (s : State) (rule : Rule) (args : List String) (span : Span) : State :=
  if s.isAbandoned then s
  else if s.problems.getLast?.any (·.start == span.start) then s
  else if maxProblems ≤ s.problems.length + 1 then
    { s with
      problems := s.problems ++ [.atSpan .tooManyErrors [s.scanner.file] s.scanner.file span]
      isAbandoned := true }
  else { s with problems := s.problems ++ [.atSpan rule args s.scanner.file span] }

def abandon (s : State) : State := { s with isAbandoned := true }

def stall (s : State) (place : Scanner) : State :=
  { s with isAbandoned := true, stalledAt := some place }

/-- The span from `start` to the end of the last token read. -/
def spanFrom (s : State) (start : Nat) : Span := ⟨start, max s.lastEnd start⟩

end State

def advance : Parser Unit := update State.advance

def commit : Parser Unit := update State.commit

def report (rule : Rule) (args : List String) (span : Span) : Parser Unit :=
  update (·.report rule args span)

/-- Reports a defect of the current token. -/
def reportHere (rule : Rule) (args : List String) : Parser Unit :=
  update fun s ↦ s.report rule args s.token.span

def reportExpected (text : String) : Parser Unit := reportHere .expectedToken [text]

/-- Passes over a token of the kind, and tells whether there was one. -/
def accept (kind : TokenKind) : Parser Bool := fun s ↦
  if s.kind = kind then (some true, s.advance) else (some false, s)

/-- As `accept`, and a missing token is reported. -/
def expect (kind : TokenKind) : Parser Bool := fun s ↦
  if s.kind = kind then (some true, s.advance)
  else (some false, s.report .expectedToken [kind.text] s.token.span)

/-- As `expect`, and gives up without the token. -/
def require (kind : TokenKind) : Parser Unit := do
  if ← expect kind then pure () else giveUp

/-- What a round of a loop says: another round, or the result. -/
inductive Step (α β : Type) where
  | again (state : α)
  | done (result : β)

def loop {α β : Type} (round : α → Parser (Step α β)) (a : α) (s : State) : Option β × State :=
  match round a s with
  | (none, s') => (none, s')
  | (some (.done b), s') => (some b, s')
  | (some (.again a'), s') =>
    if s'.remaining < s.remaining then loop round a' s' else (none, s'.stall s.scanner)
termination_by s.remaining

/-- A round of a loop with a condition. -/
def whileRound {α : Type} (goOn : State → Bool) (round : α → Parser α) (a : α) :
    Parser (Step α α) := do
  if ← view goOn then
    let a' ← round a
    if ← view goOn then return .again a'
    return .done a'
  return .done a

/-- Rounds for as long as `goOn` holds. -/
def loopWhile {α : Type} (goOn : State → Bool) (round : α → Parser α) : α → Parser α :=
  loop (whileRound goOn round)

/-- A round of a list with commas. -/
def commaRound {α : Type} (closing : TokenKind) (item : Parser α) (items : List α) :
    Parser (Step (List α) (List α)) := do
  if (← view State.kind) = closing then return .done items
  let a ← item
  if ← accept .comma then return .again (items ++ [a])
  return .done (items ++ [a])

/-- Items with commas between them up to `closing`, which is left to read.  A comma may stand behind
the last item. -/
def commaList {α : Type} (closing : TokenKind) (item : Parser α) : Parser (List α) :=
  loop (commaRound closing item) []

/-- A round of a list of which a separator introduces each item. -/
def introducedRound {α : Type} (separator : TokenKind) (item : Parser α) (items : List α) :
    Parser (Step (List α) (List α)) := do
  if ← accept separator then
    let a ← item
    return .again (items ++ [a])
  return .done items

/-- The items that `separator` introduces. -/
def introduced {α : Type} (separator : TokenKind) (item : Parser α) (first : α) :
    Parser (List α) :=
  loop (introducedRound separator item) [first]

/-- A round of items with separators between them.  An item that cannot be read is passed over. -/
def itemRound {α : Type} (isSeparator : TokenKind → Prop) [DecidablePred isSeparator]
    (item : Parser α) (recovery : Parser Unit) (items : List α) : Parser (List α) := do
  if isSeparator (← view State.kind) then
    advance
    return items
  match ← attempt item with
  | some a => return items ++ [a]
  | none =>
    recovery
    return items

/-- A name, which may be any word. -/
def identifier : Parser (String × Span) := do
  let token ← view State.token
  if token.kind = .identifier then
    advance
    return (token.value, token.span)
  reportExpected "identifier"
  giveUp

/-- Names with dots between them, as one text. -/
def dottedName : Parser String := do
  let (first, _) ← identifier
  let segments ← introduced .dot (Prod.fst <$> identifier) first
  return ".".intercalate segments

end Parser
end TypeSurface
