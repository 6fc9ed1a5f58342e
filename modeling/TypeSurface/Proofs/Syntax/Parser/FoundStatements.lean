import TypeSurface.Proofs.Syntax.Parser.Files
import TypeSurface.Proofs.Syntax.Parser.FoundTypes

/-!
# Statements that are found

Every statement that is read from any file is written, and behind a header and printed statements
none of its methods is one that is written as a construct signature.
-/

namespace TypeSurface

/-- Whether a reader may find the statement. -/
structure StatementForm.IsFound (isQuiet : Bool) (f : StatementForm) : Prop where
  written : f.isWritten = true
  types : ∀ t ∈ f.types, t.IsFound isQuiet
  notBareNew : isQuiet = true → ∀ m ∈ f.members, m.isBareNew = false

theorem StatementForm.IsFound.member {isQuiet : Bool} {f : StatementForm} {m : MemberForm}
    (h : f.IsFound isQuiet) (hm : m ∈ f.members) : m.IsFound isQuiet := by
  obtain ⟨hwritten, htypes, hnew⟩ := h
  cases f with
  | interface name typeParams heritage members =>
    simp only [StatementForm.isWritten, Bool.and_eq_true, List.all_eq_true] at hwritten
    exact ⟨hwritten.2 m hm, fun t ht ↦ htypes t
      (List.mem_append_right _ (List.mem_flatMap.2 ⟨m, hm, ht⟩)), fun hquiet ↦ hnew hquiet m hm⟩
  | _ => cases hm

namespace Parser

/-- Whether a reader may find the body under every name. -/
def IsFoundBody (isQuiet : Bool) (body : StatementBody) : Prop :=
  ∀ name nameSpan span, Lexeme.isWord name.toList = true →
    (Statement.mk name nameSpan span body).form.IsFound isQuiet

section Rules

variable {isQuiet : Bool}

theorem ensures_outerType : Ensures isQuiet outerType (TypeExpr.IsFoundType isQuiet) :=
  ensures_typeExpr isQuiet maxTypeNesting

theorem ensures_semicolon : Ensures isQuiet semicolon (fun _ ↦ True) := by
  unfold semicolon
  refine Ensures.bind (ensures_accept _) fun found _ ↦ ?_
  split
  · exact ensures_pure trivial
  · refine Ensures.bind (ensures_view _) fun token _ ↦ ?_
    split
    · exact ensures_pure trivial
    · exact ensures_reportHere _ _

theorem ensures_heritage : Ensures isQuiet heritage
    (fun ts ↦ ∀ t ∈ ts, t.IsFound isQuiet ∧ t.isReference = true) := by
  have houter : Ensures isQuiet outerType (TypeExpr.IsFoundType isQuiet) := ensures_outerType
  have hreference := ensures_typeReference houter
  unfold heritage
  refine Ensures.bind (ensures_view _) fun isExtended _ ↦ ?_
  split
  · refine Ensures.bind ensures_advance fun _ _ ↦ ?_
    refine Ensures.bind hreference fun first hfirst ↦ ?_
    exact (ensures_introduced _ hreference hfirst).imp fun ts hts ↦ hts.2
  · exact ensures_pure nofun

theorem ensures_interfaceBody : Ensures isQuiet interfaceBody (IsFoundBody isQuiet) := by
  unfold interfaceBody
  refine Ensures.bind (ensures_typeParams ensures_outerType) fun typeParams htypeParams ↦ ?_
  refine Ensures.bind ensures_heritage fun heritage hheritage ↦ ?_
  refine Ensures.bind (ensures_memberBlock ensures_outerType) fun placed hplaced ↦ ?_
  refine ensures_pure fun name nameSpan span hname ↦ ⟨?_, fun t ht ↦ ?_, fun hquiet m hm ↦ ?_⟩
  · simp only [Statement.form, StatementForm.isWritten, hname, Bool.true_and, Bool.and_eq_true,
      List.all_map, List.all_eq_true]
    exact ⟨⟨fun p hp ↦ (htypeParams p hp).1, fun t ht ↦ (hheritage t ht).2⟩,
      fun m hm ↦ (hplaced m hm).written⟩
  · simp only [Statement.form, StatementForm.types, List.mem_append, List.mem_flatMap,
      List.mem_map] at ht
    rcases ht with (⟨p, hp, ht⟩ | ht) | ⟨_, ⟨m, hm, rfl⟩, ht⟩
    · exact (htypeParams p hp).2 t ht
    · exact (hheritage t ht).1
    · exact (hplaced m hm).types t ht
  · obtain ⟨placed, hmem, rfl⟩ := List.mem_map.1 hm
    exact (hplaced placed hmem).notBareNew hquiet

theorem ensures_typeAliasBody : Ensures isQuiet typeAliasBody (IsFoundBody isQuiet) := by
  unfold typeAliasBody
  refine Ensures.bind (ensures_typeParams ensures_outerType) fun typeParams htypeParams ↦ ?_
  refine Ensures.bind (ensures_require _) fun _ _ ↦ ?_
  refine Ensures.bind ensures_outerType fun type htype ↦ ?_
  refine Ensures.bind ensures_semicolon fun _ _ ↦ ?_
  refine ensures_pure fun name nameSpan span hname ↦ ⟨?_, fun t ht ↦ ?_, fun _ ↦ nofun⟩
  · simp only [Statement.form, StatementForm.isWritten, hname, htype.2, Bool.true_and,
      Bool.and_true, List.all_eq_true]
    exact fun p hp ↦ (htypeParams p hp).1
  · simp only [Statement.form, StatementForm.types, List.mem_append, List.mem_flatMap,
      List.mem_singleton] at ht
    rcases ht with ⟨p, hp, ht⟩ | rfl
    · exact (htypeParams p hp).2 t ht
    · exact htype.1

theorem ensures_variableBody (kind : VariableKind) :
    Ensures isQuiet (variableBody kind) (IsFoundBody isQuiet) := by
  unfold variableBody
  refine Ensures.bind (ensures_annotatedType ensures_outerType) fun type htype ↦ ?_
  refine Ensures.bind ensures_semicolon fun _ _ ↦ ?_
  refine ensures_pure fun name nameSpan span hname ↦ ⟨?_, fun t ht ↦ ?_, fun _ ↦ nofun⟩
  · simp [Statement.form, StatementForm.isWritten, hname, htype.2]
  · cases List.mem_singleton.1 ht
    exact htype.1

theorem ensures_functionBody : Ensures isQuiet functionBody (IsFoundBody isQuiet) := by
  unfold functionBody
  refine Ensures.bind (ensures_memberSignature ensures_outerType) fun s hs ↦ ?_
  refine Ensures.bind ensures_semicolon fun _ _ ↦ ?_
  refine ensures_pure fun name nameSpan span hname ↦ ⟨?_, hs.types, fun _ ↦ nofun⟩
  simp [Statement.form, StatementForm.isWritten, hname, hs.written]

theorem ensures_bodyOf? {isDeclared : Bool} {word : String} {body : Parser StatementBody}
    (h : bodyOf? isDeclared word = some body) : Ensures isQuiet body (IsFoundBody isQuiet) := by
  obtain rfl | rfl | rfl | ⟨kind, rfl⟩ := eq_of_bodyOf? h
  · exact ensures_interfaceBody
  · exact ensures_typeAliasBody
  · exact ensures_functionBody
  · exact ensures_variableBody kind

theorem ensures_declaration (start : Nat) (isDeclared : Bool) :
    Ensures isQuiet (declaration start isDeclared) (fun s ↦ s.form.IsFound isQuiet) := by
  unfold declaration
  refine Ensures.bind (ensures_view _) fun word _ ↦ ?_
  split
  · next body hbody =>
    refine Ensures.bind ensures_advance fun _ _ ↦ ?_
    refine Ensures.bind ensures_identifier fun r hr ↦ ?_
    refine Ensures.bind (ensures_bodyOf? hbody) fun b hb ↦ ?_
    refine Ensures.bind (ensures_view _) fun span _ ↦ ?_
    exact ensures_pure (hb _ _ _ hr)
  · exact Ensures.bind (ensures_reportHere _ _) fun _ _ ↦ ensures_giveUp

theorem ensures_statement : Ensures isQuiet statement (fun s ↦ s.form.IsFound isQuiet) := by
  unfold statement
  refine Ensures.bind (ensures_view _) fun first _ ↦ ?_
  split
  · dsimp only
    split
    · exact Ensures.bind ensures_advance fun _ _ ↦ ensures_declaration _ _
    · exact ensures_declaration _ _
  · exact Ensures.bind (ensures_reportHere _ _) fun _ _ ↦ ensures_giveUp

theorem ensures_recoverToStatement : Ensures isQuiet recoverToStatement (fun _ ↦ True) := by
  refine ensures_loop (P := fun _ ↦ True) (fun depth _ ↦ ?_) trivial
  refine Ensures.bind (ensures_view _) fun token _ ↦ ?_
  have hdone : Ensures isQuiet (pure (.done ()) : Parser (Step Nat Unit))
      (Step.Holds (fun _ ↦ True) fun _ ↦ True) := ensures_pure trivial
  have hagain : ∀ n, Ensures isQuiet (pure (.again n) : Parser (Step Nat Unit))
      (Step.Holds (fun _ ↦ True) fun _ ↦ True) := fun n ↦ ensures_pure trivial
  split
  · exact hdone
  · exact Ensures.bind ensures_advance fun _ _ ↦ hagain _
  · refine Ensures.bind ensures_advance fun _ _ ↦ ?_
    split
    · exact hdone
    · exact hagain _
  · refine Ensures.bind ensures_advance fun _ _ ↦ ?_
    split
    · exact hdone
    · exact hagain _
  · split
    · exact hdone
    · exact Ensures.bind ensures_advance fun _ _ ↦ hagain _

theorem ensures_statements :
    Ensures isQuiet statements (fun ss ↦ ∀ s ∈ ss, s.form.IsFound isQuiet) := by
  rw [statements]
  exact ensures_items _ ensures_statement ensures_recoverToStatement

theorem ensures_directives : Ensures isQuiet directives (fun _ ↦ True) := by
  rw [directives]
  refine ensures_loop (P := fun _ ↦ True) (fun found _ ↦ ?_) trivial
  have hnext : ∀ (token : Token) (added : List Directive), Ensures isQuiet (do
      update fun s ↦ { s.commit with lastEnd := token.span.stop }
      return .again (found ++ added) : Parser (Step (List Directive) (List Directive)))
      (Step.Holds (fun _ ↦ True) fun _ ↦ True) := fun token added ↦
    Ensures.bind (ensures_update fun _ hs ↦ hs.commit) fun _ _ ↦ ensures_pure trivial
  unfold directiveRound
  refine Ensures.bind (ensures_view _) fun token _ ↦ ?_
  split
  · split
    · split
      · exact Ensures.bind (ensures_pure (P := fun _ ↦ True) trivial) fun _ _ ↦ hnext _ _
      · refine Ensures.bind (ensures_report _ _ _) fun _ _ ↦ ?_
        exact Ensures.bind (ensures_pure (P := fun _ ↦ True) trivial) fun _ _ ↦ hnext _ _
    · exact Ensures.bind (ensures_pure (P := fun _ ↦ True) trivial) fun _ _ ↦ hnext _ _
  · exact ensures_pure trivial

end Rules
end Parser

/-- What is known of a reader at the start of a file holds of the statements that are read. -/
theorem isFound_of_isSound {isQuiet : Bool} {file source : String}
    (h : (Parser.State.ofSource file source).IsSound isQuiet) :
    ∀ s ∈ (SourceFile.parse file source).statements, s.form.IsFound isQuiet := by
  have hfile : Parser.Ensures isQuiet Parser.file (fun r ↦ ∀ s ∈ r.2, s.form.IsFound isQuiet) := by
    unfold Parser.file
    refine Parser.Ensures.bind Parser.ensures_directives fun directives _ ↦ ?_
    exact Parser.Ensures.bind Parser.ensures_statements fun statements hstatements ↦
      Parser.ensures_pure hstatements
  have hvalue := (hfile _ h).2
  unfold SourceFile.parse
  cases hrun : Parser.file (.ofSource file source) with
  | mk result s =>
    rw [hrun] at hvalue
    cases result with
    | none => exact nofun
    | some r => exact hvalue r rfl

/-- Every statement of every source file is written. -/
theorem isFound_of_parse (file source : String) :
    ∀ s ∈ (SourceFile.parse file source).statements, s.form.IsFound false :=
  isFound_of_isSound ⟨Scanner.isFound_scan _, nofun⟩

/-! ### Texts without directives -/

namespace Scanner

theorem isQuiet_of_ahead_eq_nil {s : Scanner} (hkind : s.token.kind ≠ .directive)
    (hahead : s.ahead = []) : s.IsQuiet := by
  intro n
  induction n generalizing s with
  | zero => exact hkind
  | succ n ih =>
    have hread : Trivia.readAll [] = ([], []) := Trivia.readAll_of_read_eq_none rfl
    have hscan : s.scan.token.kind = .endOfFile ∧ s.scan.ahead = [] := by
      unfold scan
      rw [hahead, hread]
      exact ⟨rfl, rfl⟩
    exact ih (by simp [hscan.1]) hscan.2

/-- No directive comes where the text ahead is read as pieces up to the end of the file. -/
theorem isQuiet_of_lexes {s : Scanner} {ps : List Piece} (hkind : s.token.kind ≠ .directive)
    (hps : Lexes s.ahead ps) (hending : .endOfFile ∈ ps.map Piece.kind) : s.IsQuiet := by
  -- Scanning takes one piece after the other, and behind the ending nothing is left.
  induction ps generalizing s with
  | nil => cases hending
  | cons p ps ih =>
    obtain ⟨rest, hhead, htail⟩ := hps
    obtain ⟨hmatches, hahead, -⟩ := scan_of_heads hhead
    have hnext : s.scan.token.kind ≠ .directive := hmatches.kind ▸ hhead.kind
    have hquiet : s.scan.IsQuiet := by
      rcases List.mem_cons.1 hending with hp | hending
      · obtain ⟨text, hlexeme⟩ := hhead.lexeme
        have hnil := (Lexeme.isFront_read (Trivia.readAll s.ahead).2).ending (by rw [hlexeme, ← hp])
        have hrest : rest = [] := by
          rw [hnil] at hlexeme
          exact (congrArg Lexeme.rest hlexeme).symm
        exact isQuiet_of_ahead_eq_nil hnext (hahead.trans hrest)
      · exact ih hnext (hahead ▸ htail) hending
    intro n
    cases n with
    | zero => exact hkind
    | succ n => exact hquiet n

end Scanner

/-- In a file of pieces no method is found that is written as a construct signature. -/
theorem isFound_of_parse_pieces {source : String} {ps : List Piece} (file : String)
    (h : Lexes source.toList ps) (hending : .endOfFile ∈ ps.map Piece.kind) :
    ∀ s ∈ (SourceFile.parse file source).statements, s.form.IsFound true := by
  have hquiet : (Scanner.ofSource file source).IsQuiet :=
    Scanner.isQuiet_of_lexes (by simp [Scanner.ofSource, Token.start]) h hending
  exact isFound_of_isSound ⟨Scanner.isFound_scan _, fun _ n ↦ hquiet (n + 1)⟩

/-- Behind a header and in front of pieces no method is found that is written as a construct
signature. -/
theorem isFound_of_parse_header {id body : String} {fs : List StatementForm} (file : String)
    (hid : isHeaderId id = true)
    (hbody : Lexes body.toList (fs.flatMap StatementForm.pieces ++ [.ending])) :
    ∀ s ∈ (SourceFile.parse file (headerText id ++ body)).statements, s.form.IsFound true := by
  cases fs with
  | nil =>
    have hnone : ∀ f ∈ ([] : List StatementForm), f.IsReadable := List.forall_mem_nil _
    obtain ⟨span, statements, hparse, hforms⟩ := parse_header file hid hnone hbody
    rw [hparse]
    cases List.map_eq_nil_iff.1 hforms
    exact List.forall_mem_nil _
  | cons f fs =>
    obtain ⟨w, ps, hps⟩ := Parser.pieces_statementForm_cons f
    rw [List.flatMap_cons, List.append_assoc, hps, List.cons_append, ← List.append_assoc] at hbody
    obtain ⟨span, s, hdirectives, hs⟩ := Parser.reads_header file hid rfl hbody
    have htoken : s.scanner.token.IsFound := by
      have hsound := ((Parser.ensures_directives : Parser.Ensures false _ _)
        (.ofSource file (headerText id ++ body)) ⟨Scanner.isFound_scan _, by simp⟩).1
      rw [hdirectives] at hsound
      exact hsound.token
    have hquiet : s.scanner.IsQuiet := by
      refine Scanner.isQuiet_of_lexes ?_ hs.ahead (by simp [Piece.ending])
      rw [show s.scanner.token.kind = .identifier from hs.kind]
      decide
    have hsound : s.IsSound true := ⟨htoken, fun _ ↦ hquiet⟩
    have hvalue := (Parser.ensures_statements s hsound).2
    unfold SourceFile.parse Parser.file
    rw [Parser.bind_run, hdirectives]
    dsimp only
    rw [Parser.bind_run]
    cases hrun : Parser.statements s with
    | mk result s' =>
      rw [hrun] at hvalue
      cases result with
      | none => exact List.forall_mem_nil _
      | some statements => exact hvalue statements rfl

end TypeSurface
