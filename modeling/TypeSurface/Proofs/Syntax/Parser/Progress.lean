import TypeSurface.Proofs.Syntax.Parser.KeepingTypes

/-!
# The reader moves on

No loop of the parser comes to a standstill, with one exception: a block goes on at the same place
if a member behind a line break can neither be read nor be passed over.  A file whose reading does
not end holds such a place.
-/

namespace TypeSurface
namespace Parser

variable {R : State.Reading}

/-! ### Files -/

theorem keeps_outerType (hR : State.IsReading R) : Keeps R outerType :=
  keeps_typeExpr hR maxTypeNesting

theorem keeps_semicolon (hR : State.IsReading R) : Keeps R semicolon := by
  refine (keeps_accept hR _).bind hR fun found ↦ ?_
  split
  · exact keeps_pure hR _
  · refine (keeps_view hR _).bind hR fun token ↦ ?_
    split
    · exact keeps_pure hR _
    · exact keeps_reportHere hR _ rfl

theorem keeps_heritage (hR : State.IsReading R) : Keeps R heritage := by
  have hreference := keeps_typeReference hR (keeps_outerType hR)
  refine (keeps_view hR _).bind hR fun isExtended ↦ ?_
  split
  · refine (keeps_advance hR).bind hR fun _ ↦ ?_
    refine hreference.bind hR fun first ↦ ?_
    exact keeps_introduced hR (by decide) hreference first
  · exact keeps_pure hR _

theorem keeps_bodyOf? (hR : State.IsReading R) {isDeclared : Bool} {word : String}
    {body : Parser StatementBody} (h : bodyOf? isDeclared word = some body) : Keeps R body := by
  have htype := keeps_outerType hR
  obtain rfl | rfl | rfl | ⟨kind, rfl⟩ := eq_of_bodyOf? h
  · refine (keeps_typeParams hR htype).bind hR fun typeParams ↦ ?_
    refine (keeps_heritage hR).bind hR fun heritage ↦ ?_
    exact (keeps_memberBlock hR htype).bind hR fun ms ↦ keeps_pure hR _
  · refine (keeps_typeParams hR htype).bind hR fun typeParams ↦ ?_
    refine (keeps_require hR _).bind hR fun _ ↦ ?_
    refine htype.bind hR fun t ↦ ?_
    exact (keeps_semicolon hR).bind hR fun _ ↦ keeps_pure hR _
  · refine (keeps_memberSignature hR htype).bind hR fun s ↦ ?_
    exact (keeps_semicolon hR).bind hR fun _ ↦ keeps_pure hR _
  · refine (keeps_annotatedType hR htype).bind hR fun t ↦ ?_
    exact (keeps_semicolon hR).bind hR fun _ ↦ keeps_pure hR _

theorem keeps_declarationTail (hR : State.IsReading R) {isDeclared : Bool} {word : String}
    {body : Parser StatementBody} (h : bodyOf? isDeclared word = some body) (start : Nat) :
    Keeps R (do
      let (name, nameSpan) ← identifier
      let body ← body
      return (⟨name, nameSpan, ← view (·.spanFrom start), body⟩ : Statement)) := by
  refine (keeps_identifier hR).bind hR fun name ↦ ?_
  refine (keeps_bodyOf? hR h).bind hR fun body ↦ ?_
  exact (keeps_view hR _).bind hR fun span ↦ keeps_pure hR _

theorem keeps_declaration (hR : State.IsReading R) (start : Nat) (isDeclared : Bool) :
    Keeps R (declaration start isDeclared) := by
  refine (keeps_view hR _).bind hR fun word ↦ ?_
  split
  · next body hbody =>
    exact (keeps_advance hR).bind hR fun _ ↦ keeps_declarationTail hR hbody start
  · exact keeps_refusal hR _ rfl

theorem keeps_statement (hR : State.IsReading R) : Keeps R statement := by
  unfold statement
  refine (keeps_view hR _).bind hR fun first ↦ ?_
  split
  · dsimp only
    split
    · exact (keeps_advance hR).bind hR fun _ ↦ keeps_declaration hR _ _
    · exact keeps_declaration hR _ _
  · exact keeps_refusal hR _ rfl

/-- A statement that is read starts with a word. -/
theorem takes_statement (hR : State.IsReading R) (s : State) :
    Takes (fun _ ↦ True) statement s := by
  unfold statement
  apply takes_view
  split
  · next hkind =>
    dsimp only
    have hends := State.kind_ne_endOfFile hkind (by decide)
    split
    · exact takes_advance hR hends (keeps_declaration hR _ _)
    · apply takes_view
      split
      · next body hbody => exact takes_advance hR hends (keeps_declarationTail hR hbody _)
      · exact Takes.bind_right hR (keeps_reportHere hR _ rfl) fun _ _ ↦ takes_giveUp
  · exact Takes.bind_right hR (keeps_reportHere hR _ rfl) fun _ _ ↦ takes_giveUp

/-- At a word that the recovery stops at, a statement takes that word, whether it is read or not. -/
theorem moves_statement (hR : State.IsReading R) {s : State}
    (hs : startsStatement s.token = true) : Moves statement s := by
  simp only [startsStatement, Bool.and_eq_true, decide_eq_true_eq, List.contains_eq_mem,
    List.mem_cons, List.not_mem_nil, or_false] at hs
  obtain ⟨⟨hkind, -⟩, hword⟩ := hs
  have hends := State.kind_ne_endOfFile hkind (by decide)
  unfold statement
  rw [moves_view_iff, if_pos hkind]
  dsimp only
  split
  · exact moves_advance hR hends (keeps_declaration hR _ _)
  · next hdeclare =>
    have hbody : (bodyOf? (s.token.isWord "declare") s.value).isSome = true := by
      rcases hword with hword | hword | hword
      · simp [State.value, hword, bodyOf?]
      · exact absurd (by simp [Token.isWord, hkind, hword]) hdeclare
      · simp [State.value, hword, bodyOf?]
    rw [declaration, moves_view_iff]
    split
    · next body hbody' => exact moves_advance hR hends (keeps_declarationTail hR hbody' _)
    · next hnone => simp [hnone] at hbody

theorem keeps_statementRecoveryRound (hR : State.IsReading R) (level : Nat) :
    Keeps R (statementRecoveryRound level) := by
  have hafter : ∀ step : Step Nat Unit, Keeps R (do advance; return step) :=
    fun step ↦ (keeps_advance hR).bind hR fun _ ↦ keeps_pure hR _
  refine (keeps_view hR _).bind hR fun token ↦ ?_
  split
  · exact keeps_pure hR _
  · exact hafter _
  · exact hafter _
  · exact hafter _
  · split
    · exact keeps_pure hR _
    · exact hafter _

theorem isProgressive_statementRecoveryRound (hR : State.IsReading R) :
    IsProgressive statementRecoveryRound := by
  intro level s
  have hafter : s.kind ≠ .endOfFile → ∀ step : Step Nat Unit,
      Takes Step.IsAgain (do advance; return step) s :=
    fun hkind step ↦ takes_advance hR hkind (keeps_pure hR _)
  apply takes_view
  split
  · exact takes_pure (fun h ↦ h)
  · next h => exact hafter (State.kind_ne_endOfFile h (by decide)) _
  · next h => exact hafter (State.kind_ne_endOfFile h (by decide)) _
  · next h => exact hafter (State.kind_ne_endOfFile h (by decide)) _
  · next hkind _ _ _ =>
    split
    · exact takes_pure (fun h ↦ h)
    · exact hafter hkind _

theorem keeps_recoverToStatement (hR : State.IsReading R) : Keeps R recoverToStatement :=
  (isProgressive_statementRecoveryRound hR).keeps_loop hR (keeps_statementRecoveryRound hR) 0

/-- Passing over the rest of a statement takes a token, unless a statement starts at once. -/
theorem moves_recoverToStatement (hR : State.IsReading R) {s : State} (hkind : s.kind ≠ .endOfFile)
    (hs : startsStatement s.token = false) : Moves recoverToStatement s := by
  have hadvance : ∀ step : Step Nat Unit, Moves (do advance; return step) s :=
    fun step ↦ moves_advance hR hkind (keeps_pure hR _)
  have hround : Moves (statementRecoveryRound 0) s := by
    apply moves_view_iff.2
    split
    · next h => exact absurd h hkind
    · exact hadvance _
    · exact hadvance _
    · exact hadvance _
    · rw [if_neg (by simp [hs])]
      exact hadvance _
  exact (remaining_loop_le hR (keeps_statementRecoveryRound hR)
    (isProgressive_statementRecoveryRound hR) 0 s).trans_lt hround

theorem keeps_fileRound (hR : State.IsReading R) (ss : List Statement) :
    Keeps R (fileRound ss) :=
  keeps_itemRound hR (keeps_statement hR) (keeps_recoverToStatement hR) ss

/-- Every round of a file takes a token. -/
theorem moves_fileRound (hR : State.IsReading R) (ss : List Statement) {s : State}
    (hs : isInFile s = true) : Moves (fileRound ss) s := by
  have hends : s.kind ≠ .endOfFile := by
    simp only [isInFile, Bool.and_eq_true, Bool.not_eq_true', decide_eq_false_iff_not] at hs
    exact hs.1
  refine Or.resolve_right (moves_itemRound hR (keeps_statement hR) (takes_statement hR s)
    (keeps_recoverToStatement hR) hends ss) ?_
  rintro ⟨-, hscanner, hstuck, -⟩
  have htoken : (statement s).2.token = s.token := congrArg Scanner.token hscanner
  -- Where the recovery stops at once, the statement has not been left untouched.
  cases hstarts : startsStatement s.token with
  | true =>
    have hmoved : (statement s).2.remaining < s.remaining := moves_statement hR hstarts
    have hsame : (statement s).2.remaining = s.remaining := congrArg Scanner.remaining hscanner
    exact absurd hsame hmoved.ne
  | false =>
    have hkind : (statement s).2.kind ≠ .endOfFile := by
      have : (statement s).2.kind = s.kind := congrArg Token.kind htoken
      rw [this]
      exact hends
    exact absurd (moves_recoverToStatement hR hkind (htoken ▸ hstarts)) hstuck

theorem isTotal_directiveRound (found : List Directive) : IsTotal (directiveRound found) := by
  have hnext : ∀ (token : Token) (added : List Directive), IsTotal (do
      update fun s ↦ { s.commit with lastEnd := token.span.stop }
      return .again (found ++ added) : Parser (Step (List Directive) (List Directive))) :=
    fun token added ↦ (isTotal_update _).bind fun _ ↦ isTotal_pure _
  refine isTotal_view_bind fun token ↦ ?_
  split
  · split
    · split
      · exact (isTotal_pure _).bind fun _ ↦ hnext _ _
      · refine (isTotal_update _).bind fun _ ↦ ?_
        exact (isTotal_pure _).bind fun _ ↦ hnext _ _
    · exact (isTotal_pure _).bind fun _ ↦ hnext _ _
  · exact isTotal_pure _

theorem keeps_directiveRound (hR : State.IsReading R) (found : List Directive) :
    Keeps R (directiveRound found) := by
  -- Where a line ends that has been passed over is seen before it is reported.
  have hreported : ∀ s : State, R.steps s
      { (s.report .malformedDirective [s.token.value] s.token.span).commit with
        lastEnd := s.token.span.stop } := by
    intro s
    have hpass := hR.pass (s.report .malformedDirective [s.token.value] s.token.span)
    have htoken : (s.report .malformedDirective [s.token.value] s.token.span).token = s.token :=
      congrArg Scanner.token (State.report_scanner ..)
    rw [htoken] at hpass
    exact hR.trans (hR.report s _ rfl) hpass
  refine keeps_of_answer (fun s ↦ ?_) (isTotal_directiveRound found)
  unfold directiveRound
  rw [bind_run]
  dsimp only [view]
  split
  · split
    · cases Directive.ofText? s.token.value s.token.span with
      | some d => exact hR.pass s
      | none => exact hreported s
    · exact hR.pass s
  · exact hR.refl s

/-- A token is taken behind a parser that only reports. -/
theorem Takes.bind_unmoved {α β : Type} {Q : β → Prop} {p : Parser α} {f : α → Parser β} {s : State}
    (hp : (p s).2.scanner = s.scanner) (hf : ∀ a t, t.scanner = s.scanner → Takes Q (f a) t) :
    Takes Q (p >>= f) s := by
  intro b hb hQ
  rw [bind_run] at hb ⊢
  cases hrun : p s with
  | mk result t =>
    rw [hrun] at hb hp
    cases result with
    | none => cases hb
    | some a =>
      have hsame : t.remaining = s.remaining := congrArg Scanner.remaining hp
      exact hsame ▸ hf a t hp b hb hQ

theorem isProgressive_directiveRound : IsProgressive directiveRound := by
  intro found s
  apply takes_view
  split
  · next hkind =>
    have hnext : ∀ (added : List Directive) (t : State), t.scanner = s.scanner →
        Takes Step.IsAgain (do
          update fun u ↦ { u.commit with lastEnd := s.token.span.stop }
          return .again (found ++ added) : Parser (Step (List Directive) (List Directive))) t := by
      intro added t hscanner _ _ _
      have hends : t.scanner.token.kind ≠ .endOfFile := by
        rw [hscanner]
        exact State.kind_ne_endOfFile hkind (by decide)
      exact Scanner.remaining_scan_lt hends
    split
    · split
      · exact Takes.bind_unmoved rfl hnext
      · refine Takes.bind_unmoved (State.report_scanner ..) fun _ t ht ↦ ?_
        exact Takes.bind_unmoved rfl fun added u hu ↦ hnext added u (hu.trans ht)
    · exact Takes.bind_unmoved rfl hnext
  · exact takes_pure (fun h ↦ h)

theorem keeps_directives (hR : State.IsReading R) : Keeps R directives := by
  rw [directives]
  exact isProgressive_directiveRound.keeps_loop hR (keeps_directiveRound hR) []

theorem keeps_statements (hR : State.IsReading R) : Keeps R statements := by
  rw [statements]
  exact keeps_loopWhile hR (keeps_fileRound hR)
    (fun ss _ hs ↦ Or.inl (moves_fileRound hR ss hs).takes) []

theorem keeps_file (hR : State.IsReading R) : Keeps R file := by
  refine (keeps_directives hR).bind hR fun ds ↦ ?_
  exact (keeps_statements hR).bind hR fun ss ↦ keeps_pure hR _

/-! ### Standstills -/

namespace State

/-- The reader went on from `s` to `t`.  If it came to a standstill on the way, it was at a member
that a block has lost. -/
structure Follows (s t : State) : Prop where
  reaches : ∃ n, t.scanner = Scanner.scan^[n] s.scanner
  stall : t.stalledAt = s.stalledAt ∨
    ∃ (n depth : Nat) (u : State), t.stalledAt = some u.scanner ∧
      u.scanner = Scanner.scan^[n] s.scanner ∧ u.LosesMember depth

theorem Follows.refl (s : State) : s.Follows s := ⟨⟨0, rfl⟩, Or.inl rfl⟩

theorem Follows.trans {s t u : State} (h : s.Follows t) (h' : t.Follows u) : s.Follows u := by
  obtain ⟨⟨m, hm⟩, hstall⟩ := h
  obtain ⟨⟨n, hn⟩, hstall'⟩ := h'
  refine ⟨⟨n + m, ?_⟩, ?_⟩
  · rw [hn, hm, ← Function.iterate_add_apply]
  · rcases hstall' with hsame | ⟨k, depth, v, hv, hk, hlost⟩
    · rw [hsame]
      exact hstall
    · refine Or.inr ⟨k + m, depth, v, hv, ?_, hlost⟩
      rw [hk, hm, ← Function.iterate_add_apply]

theorem scanUntil_eq_iterate (p : Token → Bool) (s : Scanner) :
    ∃ n, s.scanUntil p = Scanner.scan^[n + 1] s := by
  fun_induction Scanner.scanUntil p s with
  | case1 s next hp => exact ⟨0, rfl⟩
  | case2 s next hp hlt ih =>
    obtain ⟨n, hn⟩ := ih
    exact ⟨n + 1, hn⟩
  | case3 s next hp hlt => exact ⟨0, rfl⟩

def follows : Reading := ⟨Follows, fun _ _ ↦ True⟩

theorem report_stalledAt {s : State} (rule : Rule) (args : List String) (span : Span) :
    (s.report rule args span).stalledAt = s.stalledAt := by
  obtain ⟨_, _, h⟩ := s.exists_report_eq rule args span
  rw [h]

theorem isReading_follows : IsReading follows where
  refl := Follows.refl
  trans := Follows.trans
  trans_fails _ _ := trivial
  reaches h := h.reaches
  advance s := by
    obtain ⟨n, hn⟩ := scanUntil_eq_iterate (·.kind ≠ .directive) s.scanner
    exact ⟨⟨n + 1, hn⟩, Or.inl rfl⟩
  commit s := by
    obtain ⟨n, hn⟩ := scanUntil_eq_iterate (·.kind ≠ .directive) s.scanner.scan
    exact ⟨⟨n + 2, hn⟩, Or.inl rfl⟩
  pass s := ⟨⟨1, rfl⟩, Or.inl rfl⟩
  report s rule args _ :=
    ⟨⟨0, report_scanner rule args _⟩, Or.inl (report_stalledAt rule args _)⟩
  refuse _ _ _ := trivial
  abandon s rule args _ :=
    ⟨⟨⟨0, report_scanner rule args _⟩, Or.inl (report_stalledAt rule args _)⟩, trivial⟩
  stall {depth s t} hlost _ _ h := ⟨⟨h.reaches, Or.inr ⟨0, depth, s, rfl, rfl, hlost⟩⟩, trivial⟩

end State

/-! ### The end of a file -/

section Total

variable {α β : Type}

/-- A loop that does not stall ends with an answer of its last round. -/
theorem IsProgressive.isTotal_loop {round : α → Parser (Step α β)} (hprogress : IsProgressive round)
    (hround : ∀ a, IsTotal (round a)) (a : α) : IsTotal (loop round a) := by
  intro s
  fun_induction loop round a s with
  | case1 a s s' hrun =>
    obtain ⟨step, hstep⟩ := hround a s
    rw [hrun] at hstep
    cases hstep
  | case2 a s b s' hrun => exact ⟨b, rfl⟩
  | case3 a s a' s' hrun hlt ih => exact ih
  | case4 a s a' s' hrun hlt =>
    have hmoved := hprogress a s (.again a') (by rw [hrun]) trivial
    rw [hrun] at hmoved
    exact absurd hmoved hlt

theorem isProgressive_whileRound (hR : State.IsReading R) {goOn : State → Bool}
    {round : α → Parser α} (h : ∀ a s, goOn s = true → Moves (round a) s) :
    IsProgressive (whileRound goOn round) := by
  intro a s
  apply takes_view
  split
  · next hgoOn =>
    refine (h a s hgoOn).takes.bind_left hR fun a' ↦ ?_
    refine (keeps_view hR goOn).bind hR fun again ↦ ?_
    split
    · exact keeps_pure hR _
    · exact keeps_pure hR _
  · exact takes_pure (fun h ↦ h)

theorem isTotal_whileRound {goOn : State → Bool} {round : α → Parser α}
    (hround : ∀ a, IsTotal (round a)) (a : α) : IsTotal (whileRound goOn round a) := by
  refine isTotal_view_bind fun again ↦ ?_
  split
  · refine (hround a).bind fun a' ↦ isTotal_view_bind fun again' ↦ ?_
    split
    · exact isTotal_pure _
    · exact isTotal_pure _
  · exact isTotal_pure _

/-- Behind a loop with a condition, the condition does not hold. -/
theorem goOn_loopWhile {goOn : State → Bool} {round : α → Parser α} {a b : α} {s t : State}
    (h : loopWhile goOn round a s = (some b, t)) : goOn t = false := by
  rw [loopWhile] at h
  fun_induction loop (whileRound goOn round) a s with
  | case1 a s s' hrun => cases h
  | case2 a s b s' hrun =>
    cases h
    exact (whileRound_done hrun).1
  | case3 a s a' s' hrun hlt ih => exact ih h
  | case4 a s a' s' hrun hlt => cases h

end Total

theorem isTotal_statementRecoveryRound (level : Nat) : IsTotal (statementRecoveryRound level) := by
  have hafter : ∀ step : Step Nat Unit, IsTotal (do advance; return step) :=
    fun step ↦ (isTotal_update _).bind fun _ ↦ isTotal_pure _
  refine isTotal_view_bind fun token ↦ ?_
  split
  · exact isTotal_pure _
  · exact hafter _
  · exact hafter _
  · exact hafter _
  · split
    · exact isTotal_pure _
    · exact hafter _

theorem isTotal_recoverToStatement : IsTotal recoverToStatement :=
  (isProgressive_statementRecoveryRound State.isReading_follows).isTotal_loop
    isTotal_statementRecoveryRound 0

theorem isTotal_fileRound (ss : List Statement) : IsTotal (fileRound ss) := by
  refine isTotal_view_bind fun kind ↦ ?_
  split
  · exact (isTotal_update _).bind fun _ ↦ isTotal_pure _
  · intro s
    rw [attempt_bind_run]
    cases (statement s).1 with
    | some found => exact ⟨_, rfl⟩
    | none => exact isTotal_recoverToStatement.bind (fun _ ↦ isTotal_pure _) _

/-- Files are read, whatever is wrong with their statements, and up to their end unless they are
abandoned. -/
theorem exists_file (s : State) :
    ∃ ds s' ss t, directives s = (some ds, s') ∧ statements s' = (some ss, t) ∧
      file s = (some (ds, ss), t) ∧ isInFile t = false := by
  have hR := State.isReading_follows
  have hdirectives : IsTotal directives := isProgressive_directiveRound.isTotal_loop
    isTotal_directiveRound []
  have hstatements : IsTotal statements :=
    (isProgressive_whileRound hR fun ss _ hs ↦ moves_fileRound hR ss hs).isTotal_loop
      (isTotal_whileRound isTotal_fileRound) []
  obtain ⟨ds, hds⟩ := hdirectives s
  obtain ⟨ss, hss⟩ := hstatements (directives s).2
  have hds' : directives s = (some ds, (directives s).2) := Prod.ext hds rfl
  have hss' : statements (directives s).2 = (some ss, (statements (directives s).2).2) :=
    Prod.ext hss rfl
  refine ⟨ds, _, ss, _, hds', hss', ?_, ?_⟩
  · unfold file
    rw [bind_run, hds']
    dsimp only
    rw [bind_run, hss']
    rfl
  · rw [statements] at hss'
    exact goOn_loopWhile hss'

end Parser

/-- The token of `t` stands in the same source behind that of `s`. -/
structure Scanner.Passes (s t : Scanner) : Prop where
  reaches : ∃ n, t = scan^[n] s
  remaining_lt : t.remaining < s.remaining

namespace Parser

/-- Each round of a loop ends it or passes a token. -/
def PassesOn {α β : Type} (round : α → Parser (Step α β)) : Prop :=
  ∀ a s a' s', round a s = (some (.again a'), s') → s.scanner.Passes s'.scanner

theorem IsProgressive.passesOn {α β : Type} {round : α → Parser (Step α β)}
    (h : IsProgressive round) (hround : ∀ a, Keeps State.follows (round a)) : PassesOn round := by
  intro a s a' s' hrun
  have hreaches := ((hround a).steps s).reaches
  have hlt := h a s (.again a') (by rw [hrun]) trivial
  rw [hrun] at hreaches hlt
  exact ⟨hreaches, hlt⟩

theorem Moves.passes {α : Type} {p : Parser α} {s : State} (h : Moves p s)
    (hp : Keeps State.follows p) : s.scanner.Passes (p s).2.scanner :=
  ⟨(hp.steps s).reaches, h⟩

/-- The loops that are neither that of a file nor that of a block, with types of some depth. -/
structure LoopsPassOn (depth : Nat) : Prop where
  directives : PassesOn directiveRound
  heritage : PassesOn (introducedRound .comma (typeReference outerType))
  typeParams : PassesOn (typeParamRound (typeExpr depth))
  params : PassesOn (commaRound .closeParen (param (typeExpr depth)))
  typeArgs : PassesOn (commaRound .greaterThan (typeExpr depth))
  tupleElements : PassesOn (commaRound .closeBracket (tupleElement (typeExpr depth)))
  union : PassesOn (introducedRound .bar (unionMember (typeExpr depth)))
  intersection : PassesOn (introducedRound .ampersand (operatorType (typeExpr depth)))
  arrays : PassesOn bracketRound
  operators : PassesOn operatorRound
  dottedNames : PassesOn (introducedRound .dot (Prod.fst <$> identifier))
  memberRecovery : PassesOn memberRecoveryRound
  statementRecovery : PassesOn statementRecoveryRound
  /-- Lines of three slashes behind the head of a file are passed over to the last one. -/
  directiveLines : ∀ s : State, s.kind ≠ .endOfFile → s.advance.kind ≠ .directive

theorem kind_scanUntil_ne_directive {s : Scanner} (hs : s.token.kind ≠ .endOfFile) :
    (s.scanUntil (·.kind ≠ .directive)).token.kind ≠ .directive := by
  fun_induction Scanner.scanUntil (·.kind ≠ .directive) s with
  | case1 s next hp => simpa using hp
  | case2 s next hp hlt ih =>
    have hdirective : next.token.kind = .directive := by simpa using hp
    exact ih (by simp [hdirective])
  | case3 s next hp hlt => exact absurd (Scanner.remaining_scan_lt hs) hlt

theorem loopsPassOn (depth : Nat) : LoopsPassOn depth := by
  have hR := State.isReading_follows
  have htype := keeps_typeExpr hR depth
  have hcomma : ∀ {α : Type} (closing : TokenKind) {item : Parser α}, Keeps State.follows item →
      PassesOn (commaRound closing item) := fun closing _ hitem ↦
    (isProgressive_commaRound hR closing hitem).passesOn (keeps_commaRound hR closing hitem)
  have hintroduced : ∀ {α : Type} {separator : TokenKind} {item : Parser α},
      separator ≠ .endOfFile → Keeps State.follows item →
      PassesOn (introducedRound separator item) := fun hseparator hitem ↦
    (isProgressive_introducedRound hR hseparator hitem).passesOn
      (keeps_introducedRound hR _ hitem)
  exact {
    directives := isProgressive_directiveRound.passesOn (keeps_directiveRound hR)
    heritage := hintroduced (by decide) (keeps_typeReference hR (keeps_outerType hR))
    typeParams := (isProgressive_typeParamRound hR htype).passesOn (keeps_typeParamRound hR htype)
    params := hcomma _ (keeps_param hR htype)
    typeArgs := hcomma _ htype
    tupleElements := hcomma _ (keeps_tupleElement hR htype)
    union := hintroduced (by decide) (keeps_unionMember hR htype)
    intersection := hintroduced (by decide) (keeps_operatorType hR htype)
    arrays := (isProgressive_bracketRound hR).passesOn (keeps_bracketRound hR)
    operators := (isProgressive_operatorRound hR).passesOn (keeps_operatorRound hR)
    dottedNames := hintroduced (by decide) (keeps_segment hR)
    memberRecovery :=
      (isProgressive_memberRecoveryRound hR).passesOn (keeps_memberRecoveryRound hR)
    statementRecovery :=
      (isProgressive_statementRecoveryRound hR).passesOn (keeps_statementRecoveryRound hR)
    directiveLines := fun _ hs ↦ kind_scanUntil_ne_directive hs }

/-- No loop comes to a standstill but that of a block, and that one only at a member behind a line
break that cannot be read.  So if the reading of a source stalls, then at such a member. -/
theorem stalls_only_at_lost_members :
    (∀ ss s, isInFile s = true → s.scanner.Passes (fileRound ss s).2.scanner) ∧
    (∀ depth ms s, isInBlock s = true →
      s.scanner.Passes (blockRound (typeExpr depth) ms s).2.scanner ∨ s.LosesMember depth) ∧
    (∀ depth, LoopsPassOn depth) ∧
    ∀ file source, SourceFile.stalls file source = true →
      ∃ (n depth : Nat) (s : State),
        (Parser.file (.ofSource file source)).2.stalledAt = some s.scanner ∧
        s.scanner = Scanner.scan^[n] (.ofSource file source) ∧ s.LosesMember depth := by
  have hR := State.isReading_follows
  refine ⟨fun ss s hs ↦ ?_, fun depth ms s hs ↦ ?_, loopsPassOn, fun file source hstalls ↦ ?_⟩
  · exact (moves_fileRound hR ss hs).passes (keeps_fileRound hR ss)
  · have htype := keeps_typeExpr hR depth
    exact (moves_blockRound hR htype ms hs).imp (fun h ↦ h.passes (keeps_blockRound hR htype ms))
      IsExcused.loses
  · rcases ((keeps_file hR).steps (.ofSource file source)).stall with hsame | ⟨n, depth, s, hs, hn, hlost⟩
    · unfold SourceFile.stalls at hstalls
      rw [hsame] at hstalls
      cases hstalls
    · exact ⟨n + 1, depth, s, hs, hn, hlost⟩

example : SourceFile.stalls "i.d.ts" "interface I \x7b\n= \x7d" = true := by decide +kernel

end Parser
end TypeSurface
