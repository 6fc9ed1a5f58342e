import TypeSurface.Proofs.Syntax.Parser.Accountability
import TypeSurface.Proofs.Syntax.Placement
import TypeSurface.Proofs.Syntax.Rewinding

/-!
# Speculation

The rules look ahead as somebody does who sets a mark, scans on and goes back.  The main statement says
that this leaves no trace: the scanner stands where plain scanning leads, and the defects of tokens that
a file is read with are those of one scan to its end.
-/

namespace TypeSurface

namespace Scanner

/-- A question about what is ahead: an answer, or a question that the next token leads to. -/
inductive Look where
  | answer (b : Bool)
  | next (behind : Token → Look)

namespace Look

/-- The answer, and the scanner at the last token that was needed for it. -/
def run : Look → Scanner → Bool × Scanner
  | answer b, s => (b, s)
  | next behind, s => (behind s.scan.token).run s.scan

/-- The answer, and the scanner after it has gone back. -/
def ask (l : Look) (s : Scanner) : Bool × Scanner :=
  ((l.run s).1, (l.run s).2.rewind s.mark)

theorem exists_run (l : Look) (s : Scanner) : ∃ n, (l.run s).2 = scan^[n] s := by
  induction l generalizing s with
  | answer b => exact ⟨0, rfl⟩
  | next behind ih =>
    obtain ⟨n, hn⟩ := ih s.scan.token s.scan
    exact ⟨n + 1, hn⟩

theorem ask_eq (l : Look) (s : Scanner) : l.ask s = ((l.run s).1, s) := by
  obtain ⟨n, hn⟩ := l.exists_run s
  unfold ask
  rw [hn]
  exact congrArg (Prod.mk _) (rewind_iterate (Nat.zero_le n) s)

/-- Whether the next token is of one of the kinds. -/
def isNextIn (kinds : List TokenKind) : Look := next fun t ↦ answer (kinds.contains t.kind)

/-- Whether a parenthesis starts the parameters of a function type. -/
def isFunctionStart : Look := next fun first ↦
  match first.kind with
  | .closeParen | .ellipsis => answer true
  | .identifier => next fun second ↦
    match second.kind with
    | .colon | .comma | .question | .equals => answer true
    | .closeParen => next fun third ↦ answer (third.kind = .arrow)
    | _ => answer false
  | _ => answer false

/-- Whether a bracket starts an index signature. -/
def isIndexStart : Look := next fun first ↦
  if first.kind = .identifier then next fun second ↦ answer (second.kind = .colon)
  else answer false

/-- Whether a word is the name of a tuple element. -/
def isElementName : Look := next fun first ↦
  match first.kind with
  | .colon => answer true
  | .question => next fun second ↦ answer (second.kind = .colon)
  | _ => answer false

end Look
end Scanner

namespace Parser

open Scanner (Look)

/-! ### Rules that go back -/

/-- The answer to a question at a state where a condition holds.  The scanner goes on and back. -/
def ask (condition : State → Bool) (l : Look) : Parser Bool := fun s ↦
  if condition s then
    let (b, scanner) := l.ask s.scanner
    (some b, { s with scanner })
  else (some false, s)

theorem ask_eq (condition : State → Bool) (l : Look) :
    ask condition l = view fun s ↦ condition s && (l.run s.scanner).1 := by
  funext s
  unfold ask view
  rw [Look.ask_eq]
  cases h : condition s <;> simp [h]

/-- The result of a signature.  The reader sets a mark at a word, and if no predicate stands there it
goes back. -/
def markedResult (type : Parser TypeExpr) : Parser TypeExpr := fun s ↦
  if s.kind = .identifier then
    let ahead := s.commit
    if ahead.isWord "is" && !ahead.token.afterLineBreak then
      (do
        advance
        return TypeExpr.predicate s.value (← type)) ahead
    else type { ahead with scanner := ahead.scanner.rewind s.scanner.mark }
  else type s

/-- The rules look ahead by questions after which the scanner goes back, but for a predicate, from
whose second word they go on. -/
structure LooksAhead : Prop where
  next : ∀ kind, (view fun s ↦ decide (s.next.kind = kind)) =
    ask (fun _ ↦ true) (.isNextIn [kind])
  construct : view State.isConstruct =
    ask (·.isWord "new") (.isNextIn [.openParen, .lessThan])
  modifier : view State.isReadonlyModifier = ask (·.isWord "readonly")
    (.isNextIn [.identifier, .stringLiteral, .numericLiteral, .openBracket])
  operator : view State.operator? = (do
    if ← ask (·.isWord "keyof") (.isNextIn [.identifier, .openParen, .openBrace, .openBracket]) then
      return some .keyOf
    else if ← ask (·.isWord "readonly") (.isNextIn [.identifier, .openBracket, .openParen]) then
      return some .readonly
    else return none)
  function : view State.isFunctionStart = ask (·.kind = .openParen) .isFunctionStart
  index : view State.isIndexStart = ask (·.kind = .openBracket) .isIndexStart
  element : view State.isElementName = ask (·.kind = .identifier) .isElementName
  result : ∀ type, resultType type = markedResult type

theorem isFunctionStart_eq (s : State) :
    s.isFunctionStart = (decide (s.kind = .openParen) && (Look.isFunctionStart.run s.scanner).1) := by
  unfold State.isFunctionStart Look.isFunctionStart
  congr 1
  simp only [Look.run]
  cases s.scanner.scan.token.kind with
  | identifier =>
    simp only [Look.run]
    cases s.scanner.scan.scan.token.kind <;> rfl
  | _ => rfl

theorem isIndexStart_eq (s : State) :
    s.isIndexStart = (decide (s.kind = .openBracket) && (Look.isIndexStart.run s.scanner).1) := by
  unfold State.isIndexStart Look.isIndexStart
  congr 1
  simp only [Look.run]
  by_cases h : s.scanner.scan.token.kind = .identifier <;> simp [h, Look.run]

theorem isElementName_eq (s : State) :
    s.isElementName = (decide (s.kind = .identifier) && (Look.isElementName.run s.scanner).1) := by
  unfold State.isElementName Look.isElementName
  congr 1
  simp only [Look.run]
  cases s.scanner.scan.token.kind <;> rfl

theorem resultType_eq_markedResult (type : Parser TypeExpr) : resultType type = markedResult type := by
  funext s
  have hback : (Scanner.scan^[1] s.scanner).rewind s.scanner.mark = s.scanner :=
    Scanner.rewind_iterate (Nat.zero_le 1) s.scanner
  have hstate : { s.commit with scanner := s.commit.scanner.rewind s.scanner.mark } = s :=
    congrArg (fun scanner ↦ { s with scanner }) hback
  unfold resultType markedResult
  dsimp only
  rw [hstate]
  change (if s.isPredicate = true then _ else _ : Parser TypeExpr) s = _
  unfold State.isPredicate
  by_cases hkind : s.kind = .identifier
  · rw [if_pos hkind, decide_eq_true hkind, Bool.true_and]
    have hahead : (s.next.isWord "is" && !s.next.afterLineBreak) =
        (s.commit.isWord "is" && !s.commit.token.afterLineBreak) := rfl
    rw [hahead]
    split
    · rfl
    · rfl
  · rw [if_neg hkind, decide_eq_false hkind, Bool.false_and]
    rfl

theorem view_choice {α : Type} (f g : State → Bool) (a b : α) :
    (do
      if ← view f then return some a
      else if ← view g then return some b
      else return none) =
    view fun s ↦ if f s then some a else if g s then some b else none := by
  funext s
  rw [bind_run]
  dsimp only [view]
  cases f s with
  | true => rfl
  | false =>
    change (view g >>= _) s = _
    rw [bind_run]
    dsimp only [view]
    cases g s <;> rfl

theorem looksAhead : LooksAhead where
  next kind := by
    rw [ask_eq]
    congr 1
    funext s
    by_cases h : s.scanner.scan.token.kind = kind <;>
      simp [Look.isNextIn, Look.run, State.next, h]
  construct := by
    rw [ask_eq]
    congr 1
    funext s
    unfold State.isConstruct State.startsSignature
    congr 1
    cases h : s.next.kind <;> simp_all [Look.isNextIn, Look.run, State.next]
  modifier := by
    rw [ask_eq]
    rfl
  operator := by
    rw [ask_eq, ask_eq, view_choice]
    rfl
  function := by
    rw [ask_eq]
    exact congrArg view (funext isFunctionStart_eq)
  index := by
    rw [ask_eq]
    exact congrArg view (funext isIndexStart_eq)
  element := by
    rw [ask_eq]
    exact congrArg view (funext isElementName_eq)
  result := resultType_eq_markedResult

/-! ### Whole files -/

variable {file source : String}

theorem kind_finalState (h : (finalState file source).isAbandoned = false) :
    (finalState file source).kind = .endOfFile := by
  obtain ⟨ds, s, ss, t, -, -, hfile, hends⟩ := exists_file (.ofSource file source)
  obtain rfl : finalState file source = t := congrArg Prod.snd hfile
  simpa [isInFile, h] using hends

/-- The reading of a file ends at a token of its source. -/
theorem exists_scanner_finalState (file source : String) :
    ∃ n, (finalState file source).scanner = Scanner.scan^[n + 1] (.ofSource file source) :=
  ((keeps_file State.isReading_follows).steps (.ofSource file source)).reaches

theorem scannerProblems_finalState (h : (finalState file source).isAbandoned = false) :
    (finalState file source).scanner.problems = (Scanner.ofSource file source).last.problems := by
  obtain ⟨n, hn⟩ := exists_scanner_finalState file source
  have hkind : (Scanner.scan^[n + 1] (Scanner.ofSource file source)).token.kind = .endOfFile := by
    rw [← hn]
    exact kind_finalState h
  rw [hn]
  exact Scanner.problems_last n (by simp [Scanner.ofSource, Token.start]) hkind

/-- Looking ahead leaves no trace.  After any moves the scanner stands where plain scanning leads, all
rules that look ahead do it by such moves, and if a file is not abandoned, the defects of tokens that
it is read with are those of one scan to its end, each of which is met once. -/
theorem looking_ahead_leaves_no_trace (file source : String) :
    (∀ moves : List Scanner.Move,
      (moves.foldl Scanner.Trip.move ⟨.ofSource file source, []⟩).scanner =
        Scanner.scan^[(moves.foldl Scanner.Count.move ⟨0, []⟩).passed] (.ofSource file source)) ∧
    LooksAhead ∧
    ((finalState file source).isAbandoned = false →
      (Scanner.ofSource file source).last.token.kind = .endOfFile ∧
      (SourceFile.parse file source).problems =
        (((Scanner.ofSource file source).last.problems ++ (finalState file source).problems).mergeSort
          (·.start ≤ ·.start)).take maxProblems ∧
      (Scanner.ofSource file source).last.problems.Pairwise (·.start < ·.start)) := by
  refine ⟨fun moves ↦ (Scanner.Trip.isAt_foldl _ moves).scanner, looksAhead, fun hkept ↦ ?_⟩
  have hproblems := scannerProblems_finalState hkept
  refine ⟨Scanner.kind_last (by simp [Scanner.ofSource, Token.start]), ?_, ?_⟩
  · rw [problems_parse, State.allProblems, hproblems]
  · obtain ⟨n, hn⟩ := exists_scanner_finalState file source
    rw [← hproblems, hn]
    exact ((Scanner.standsIn_ofSource file source).iterate_scan (n + 1)).pairwise_start_lt

/-- An interface in which the reader looks ahead across a character that starts no token. -/
def crossedSource : String := "interface I { readonly # a: int }"

theorem looking_ahead_leaves_no_trace_crossed :
    (finalState "i.d.ts" crossedSource).isAbandoned = false ∧
      (SourceFile.parse "i.d.ts" crossedSource).problems =
        (((Scanner.ofSource "i.d.ts" crossedSource).last.problems ++
          (finalState "i.d.ts" crossedSource).problems).mergeSort (·.start ≤ ·.start)).take
            maxProblems := by
  have hkept : (finalState "i.d.ts" crossedSource).isAbandoned = false := by decide +kernel
  exact ⟨hkept, ((looking_ahead_leaves_no_trace "i.d.ts" crossedSource).2.2 hkept).2.1⟩

end Parser
end TypeSurface
