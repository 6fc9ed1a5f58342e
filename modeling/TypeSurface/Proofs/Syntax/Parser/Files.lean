import TypeSurface.Proofs.Syntax.Header
import TypeSurface.Proofs.Syntax.Parser.Statements

/-!
# Reading files

A file that names a set and goes on with the pieces of readable statements is read without a defect:
as the directive that names the set, and as the statements.
-/

namespace TypeSurface

/-! ### The header -/

theorem takeWhile_append_cons {p : Char → Bool} {cs : List Char} {c : Char} (rest : List Char)
    (hcs : ∀ d ∈ cs, p d = true) (hc : p c = false) :
    (cs ++ c :: rest).takeWhile p = cs ∧ (cs ++ c :: rest).dropWhile p = c :: rest := by
  induction cs with
  | nil => simp [hc]
  | cons d cs ih =>
    rw [List.forall_mem_cons] at hcs
    have ⟨htake, hdrop⟩ := ih hcs.2
    simp [hcs.1, htake, hdrop]

namespace Directive

variable {id : List Char}

theorem isLineBreak_setTag (hid : ∀ c ∈ id, c ≠ '"' ∧ Text.isLineBreak c = false) :
    ∀ c ∈ ' ' :: setTag id, (!Text.isLineBreak c) = true := by
  have hfront : ∀ c ∈ "set id=".toList, Text.isLineBreak c = false := by simp [Text.isLineBreak]
  have hback : ∀ c ∈ " />".toList, Text.isLineBreak c = false := by simp [Text.isLineBreak]
  intro c hc
  rw [Bool.not_eq_true']
  simp only [setTag, List.mem_cons, List.mem_append] at hc
  rcases hc with rfl | rfl | hc | rfl | hc | rfl | hc
  · decide
  · decide
  · exact hfront c hc
  · decide
  · exact (hid c hc).2
  · decide
  · exact hback c hc

theorem trim_setTag : Text.trim (' ' :: setTag id) = setTag id := by
  have hstart : Text.trimStart (' ' :: setTag id) = setTag id := rfl
  have hend : setTag id = '<' :: ("set id=".toList ++ '"' :: (id ++ '"' :: " /".toList)) ++ ['>'] := by
    simp [setTag]
  rw [Text.trim, hstart, hend, Text.trimEnd_append (by decide)]

end Directive

theorem scan_line (file : String) {source : String} {line rest : List Char}
    (hsource : source.toList = '/' :: '/' :: '/' :: (line ++ '\n' :: rest))
    (hline : ∀ c ∈ line, (!Text.isLineBreak c) = true) :
    ∃ span afterLineBreak, (Scanner.ofSource file source).scan =
      ⟨file, '\n' :: rest, ⟨.directive, span, String.ofList (Text.trim line), afterLineBreak⟩, []⟩ := by
  obtain ⟨htake, hdrop⟩ := takeWhile_append_cons rest hline
    (by decide : (!Text.isLineBreak '\n') = false)
  have hlexeme : Lexeme.read source.toList =
      ⟨.directive, Text.trim line, '/' :: '/' :: '/' :: line, '\n' :: rest, none⟩ := by
    rw [hsource, Lexeme.read]
    rw [htake, hdrop]
  have htrivia : Trivia.readAll source.toList = ([], source.toList) := by
    apply Trivia.readAll_of_read_eq_none
    rw [hsource, Trivia.read]
  unfold Scanner.scan Scanner.ofSource
  dsimp only
  rw [htrivia, hlexeme]
  exact ⟨_, _, rfl⟩

theorem scan_header (file body : String) {id : String}
    (hid : ∀ c ∈ id.toList, c ≠ '"' ∧ Text.isLineBreak c = false) :
    ∃ span afterLineBreak, (Scanner.ofSource file (headerText id ++ body)).scan =
      ⟨file, '\n' :: body.toList,
        ⟨.directive, span, String.ofList (Directive.setTag id.toList), afterLineBreak⟩, []⟩ := by
  have hsource : (headerText id ++ body).toList =
      '/' :: '/' :: '/' :: ((' ' :: Directive.setTag id.toList) ++ '\n' :: body.toList) := by
    simp [String.toList_append, toList_headerText]
  rw [← Directive.trim_setTag]
  exact scan_line file hsource (Directive.isLineBreak_setTag hid)

namespace Parser

/-- At a directive, with the pieces of statements behind it, the reader finds the directive alone. -/
theorem reads_directive {s : State} {p : Piece} {ps : List Piece} {d : Directive}
    (hkind : s.token.kind = .directive) (hvalue : s.token.value.toList.head? = some '<')
    (hd : Directive.ofText? s.token.value s.token.span = some d)
    (hlexes : Lexes s.scanner.ahead (p :: ps)) (hscanner : s.scanner.problems = [])
    (hproblems : s.problems = []) (habandoned : s.isAbandoned = false) :
    ∃ s', directives s = (some [d], s') ∧ s'.At (p :: ps) := by
  obtain ⟨rest, hhead, htail⟩ := hlexes
  obtain ⟨hmatches, hahead, hsame⟩ := Scanner.scan_of_heads hhead
  have hat : State.At { s.commit with lastEnd := s.token.span.stop } (p :: ps) := by
    refine ⟨?_, hahead ▸ htail, hproblems, hsame.trans hscanner, habandoned⟩
    intro q hq
    cases hq
    exact hmatches
  have hlt : (s.commit).remaining < s.remaining := by
    refine Scanner.remaining_scan_lt ?_
    rw [show s.scanner.token.kind = .directive from hkind]
    decide
  have hnext : s.scanner.scan.token.kind ≠ .directive := hmatches.kind ▸ hhead.kind
  refine ⟨{ s.commit with lastEnd := s.token.span.stop }, ?_, hat⟩
  have hround : directiveRound [] s =
      (some (.again [d]), { s.commit with lastEnd := s.token.span.stop }) := by
    unfold directiveRound
    simp only [bind_run, view, hkind, if_true, hvalue, hd, pure_run, update, List.nil_append]
  have hstop : directiveRound [d] { s.commit with lastEnd := s.token.span.stop } =
      (some (.done [d]), { s.commit with lastEnd := s.token.span.stop }) := by
    unfold directiveRound
    simp only [bind_run, view]
    rw [if_neg]
    · rfl
    · exact hnext
  rw [directives, loop, hround]
  dsimp only
  rw [if_pos, loop, hstop]
  exact hlt

/-- Behind the header the reader stands at the pieces of the statements. -/
theorem reads_header {id body : String} {p : Piece} {ps : List Piece} (file : String)
    (hid : isHeaderId id = true) (hp : p.isJoined = false) (hbody : Lexes body.toList (p :: ps)) :
    ∃ span s, directives (.ofSource file (headerText id ++ body)) = (some [.ofId id span], s) ∧
      s.At (p :: ps) := by
  obtain ⟨-, hchars⟩ := isHeaderId_iff.1 hid
  obtain ⟨span, afterLineBreak, hscan⟩ := scan_header file body hchars
  have hquote : '"' ∉ id.toList := fun hmem ↦ (hchars _ hmem).1 rfl
  have hstate : State.ofSource file (headerText id ++ body) =
      ⟨⟨file, '\n' :: body.toList,
        ⟨.directive, span, String.ofList (Directive.setTag id.toList), afterLineBreak⟩, []⟩,
        [], 0, false, none⟩ := by
    rw [State.ofSource, hscan]
  rw [hstate]
  obtain ⟨s, hrun, hs⟩ := reads_directive (d := .ofId id span)
    (s := ⟨⟨file, '\n' :: body.toList,
      ⟨.directive, span, String.ofList (Directive.setTag id.toList), afterLineBreak⟩, []⟩,
      [], 0, false, none⟩) rfl (by simp [State.token, Directive.setTag])
    (Directive.ofText?_setTag span hquote) (lexes_lineBreak hp hbody) rfl rfl rfl
  exact ⟨span, s, hrun, hs⟩

end Parser

theorem pieces_file_cons (fs : List StatementForm) :
    ∃ p ps, fs.flatMap StatementForm.pieces ++ [.ending] = p :: ps ∧ p.isJoined = false := by
  cases fs with
  | nil => exact ⟨_, _, rfl, rfl⟩
  | cons f fs =>
    obtain ⟨w, ps, hps⟩ := Parser.pieces_statementForm_cons f
    rw [List.flatMap_cons, hps]
    exact ⟨_, _, rfl, rfl⟩

/-- A file whose directives end where statements are read up to its end has no defect, and is read as
the statements. -/
theorem parse_of_yields {file source : String} {directives : List Directive} {s : Parser.State}
    {ps : List Piece} {P : List Statement → Prop}
    (hdirectives : Parser.directives (.ofSource file source) = (some directives, s)) (hs : s.At ps)
    (hps : Parser.Yields Parser.statements ps P [.ending]) :
    ∃ statements, SourceFile.parse file source = ⟨file, directives, statements, []⟩ ∧
      P statements := by
  obtain ⟨statements, s', hstatements, hforms, hs', -⟩ := hps s hs
  have hfile : Parser.file (.ofSource file source) = (some (directives, statements), s') := by
    unfold Parser.file
    rw [Parser.bind_run, hdirectives]
    dsimp only
    rw [Parser.bind_run, hstatements]
    rfl
  have hproblems : s'.allProblems = [] := by
    unfold Parser.State.allProblems
    simp [hs'.scannerProblems, hs'.problems]
  refine ⟨statements, ?_, hforms⟩
  unfold SourceFile.parse
  rw [hfile]
  dsimp only
  rw [hproblems]
  rfl

/-- A file with a header in front of the pieces of readable statements has no defect, and is read as
the statements. -/
theorem parse_header {id body : String} {fs : List StatementForm} (file : String)
    (hid : isHeaderId id = true) (hfs : ∀ f ∈ fs, f.IsReadable)
    (hbody : Lexes body.toList (fs.flatMap StatementForm.pieces ++ [.ending])) :
    ∃ span statements, SourceFile.parse file (headerText id ++ body) =
        ⟨file, [.ofId id span], statements, []⟩ ∧
      statements.map Statement.form = fs := by
  obtain ⟨p, ps, hps, hp⟩ := pieces_file_cons fs
  obtain ⟨span, s, hdirectives, hs⟩ := Parser.reads_header file hid hp (hps ▸ hbody)
  obtain ⟨statements, hparse, hforms⟩ :=
    parse_of_yields hdirectives (hps ▸ hs) (Parser.yields_statements hfs)
  exact ⟨span, statements, hparse, hforms⟩

end TypeSurface
