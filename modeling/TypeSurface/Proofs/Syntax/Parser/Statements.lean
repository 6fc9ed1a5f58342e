import TypeSurface.Proofs.Syntax.Parser.Types
import TypeSurface.Proofs.Syntax.Statement
import TypeSurface.Syntax.Parser.File

/-!
# Reading statements

The pieces of a statement whose types are readable and not too deep are read as the statement.
-/

namespace TypeSurface

namespace StatementForm

/-- Whether a reader that meets the pieces of the statement finds the statement: its types are
readable and nest no deeper than a reader goes, and no method of it is written as a construct
signature. -/
structure IsReadable (f : StatementForm) : Prop where
  written : f.isWritten = true
  shown : f.members.all MemberForm.isShown = true
  types : ∀ t ∈ f.types, t.IsReadable
  starts : ∀ t ∈ f.outermost, t.startsNew = false
  results : ∀ t ∈ f.results, t.startsPredicate = false
  depth : ∀ t ∈ f.outermost, t.depth < maxTypeNesting
  notBareNew : ∀ m ∈ f.members, m.isBareNew = false

theorem IsReadable.outer {f : StatementForm} (h : f.IsReadable) {t : TypeExpr}
    (ht : t ∈ f.outermost) : t.IsReadableBelow maxTypeNesting :=
  ⟨all_outermost h.types t ht, h.starts t ht, h.depth t ht⟩

end StatementForm

namespace Parser

section Bodies

variable {k : Piece} {ks : List Piece}

theorem nests_outerType {t : TypeExpr} (ht : t.IsReadableBelow maxTypeNesting)
    (hproper : t.isProper = true) : Nests outerType t :=
  (nestsBelow_typeExpr maxTypeNesting).proper ht hproper

theorem nests_typeParams {typeParams : List TypeParam}
    (hwritten : typeParams.all TypeParam.isWritten = true)
    (htypes : ∀ t ∈ typeParams.flatMap TypeParam.types, t.IsReadableBelow maxTypeNesting) :
    ∀ p ∈ typeParams, ∀ t ∈ p.types, Nests outerType t := by
  intro p hp t ht
  have hparam := List.all_eq_true.1 hwritten p hp
  simp only [TypeParam.isWritten, Bool.and_eq_true, List.all_eq_true] at hparam
  exact nests_outerType (htypes t (List.mem_flatMap.2 ⟨p, hp, ht⟩)) (hparam.2 t ht)

theorem reads_semicolon : Reads semicolon (.mark .semicolon :: k :: ks) () (k :: ks) := by
  unfold semicolon
  refine Reads.bind (reads_accept rfl (by decide) (by simp)) ?_
  exact reads_pure _ _

/-- An extended reference is read by its own rule, only its arguments as types. -/
theorem reads_heritageType {t : TypeExpr} (hreference : t.isReference = true)
    (hwritten : t.isWrittenNode = true) (hargs : ∀ u ∈ t.children, u.IsReadableBelow maxTypeNesting)
    (hdot : k.kind ≠ .dot) (hangle : k.kind ≠ .lessThan) :
    Reads (typeReference outerType) (t.pieces ++ k :: ks) t (k :: ks) := by
  cases t with
  | reference name args =>
    simp only [TypeExpr.isWrittenNode, Bool.and_eq_true, List.all_eq_true] at hwritten
    have hnests : ∀ u ∈ args, Nests outerType u := fun u hu ↦
      nests_outerType (hargs u hu) (hwritten.2 u hu)
    exact reads_typeReference name ks hnests hdot fun hkind ↦ absurd hkind hangle
  | _ => cases hreference

theorem heritagePieces_append (heritage : List TypeExpr) (ks : List Piece) :
    ∃ q qs, StatementForm.heritagePieces heritage ++ .mark .openBrace :: ks = q :: qs ∧
      q.kind ≠ .lessThan := by
  cases heritage with
  | nil => exact ⟨_, _, rfl, by simp [Piece.mark]⟩
  | cons t heritage => exact ⟨_, _, rfl, by simp [Piece.word]⟩

theorem reads_heritage {heritage : List TypeExpr} (ks : List Piece)
    (hreferences : heritage.all TypeExpr.isReference = true)
    (hwritten : ∀ t ∈ heritage, t.isWrittenNode = true)
    (hargs : ∀ t ∈ heritage, ∀ u ∈ t.children, u.IsReadableBelow maxTypeNesting) :
    Reads Parser.heritage (StatementForm.heritagePieces heritage ++ .mark .openBrace :: ks) heritage
      (.mark .openBrace :: ks) := by
  rw [List.all_eq_true] at hreferences
  unfold Parser.heritage StatementForm.heritagePieces
  cases heritage with
  | nil =>
    refine Reads.bind (reads_view (a := false) fun s hs ↦ ?_) ?_
    · rw [State.isWord_of_at (p := .mark .openBrace) hs]
      rfl
    · exact reads_pure _ _
  | cons t heritage =>
    have hitem : ∀ u ∈ t :: heritage, ∀ k ks, k.kind = .comma ∨ k = .mark .openBrace →
        Reads (typeReference outerType) (u.pieces ++ k :: ks) u (k :: ks) := by
      intro u hu k ks hk
      refine reads_heritageType (hreferences u hu) (hwritten u hu) (hargs u hu) ?_ ?_
      · rcases hk with hk | rfl <;> simp [*, Piece.mark]
      · rcases hk with hk | rfl <;> simp [*, Piece.mark]
    rw [List.forall_mem_cons] at hitem
    have hothers : Reads (introduced .comma (typeReference outerType) t)
        (heritage.flatMap (fun u ↦ .mark .comma :: u.pieces) ++ .mark .openBrace :: ks)
        (t :: heritage) (.mark .openBrace :: ks) :=
      reads_introduced (by decide) (by simp [Piece.mark]) hitem.2
    obtain ⟨k, ks', hks, hk⟩ :=
      introduced_behind .comma (.mark .openBrace) ks heritage TypeExpr.pieces
    refine Reads.bind (reads_view (a := true) fun s hs ↦ ?_) ?_
    · rw [State.isWord_of_at hs]
      rfl
    rw [if_pos rfl, if_neg (by simp), List.map_cons, separated_cons, List.flatMap_map]
    simp only [List.append_assoc, List.cons_append, List.nil_append]
    refine Reads.bind (reads_advance (by simp [Piece.word]) (by simp)) ?_
    rw [hks] at hothers ⊢
    exact Reads.bind (hitem.1 k ks' hk) hothers

theorem reads_interfaceBody (ks : List Piece) {name : String} {typeParams : List TypeParam}
    {heritage : List TypeExpr} {members : List MemberForm}
    (h : (StatementForm.interface name typeParams heritage members).IsReadable) :
    Yields interfaceBody
      (angledPieces (.mark .lessThan) (typeParams.map TypeParam.pieces) ++
        (StatementForm.heritagePieces heritage ++ (blockPieces members ++ k :: ks)))
      (fun body ↦ ∃ placed, body = .interface typeParams heritage placed ∧
        placed.map (·.form) = members) (k :: ks) := by
  have hwritten := h.written
  simp only [StatementForm.isWritten, Bool.and_eq_true] at hwritten
  obtain ⟨⟨⟨-, htypeParams⟩, hreferences⟩, hmembers⟩ := hwritten
  have hheritage : ∀ t ∈ heritage, t.IsReadable := fun t ht ↦
    h.types t (List.mem_append_left _ (List.mem_append_right _ ht))
  have hforms : ∀ m ∈ members, NestsForm outerType m ∧ m.isBareNew = false := by
    intro m hm
    have hwritten := List.all_eq_true.1 hmembers m hm
    refine ⟨(nestsBelow_typeExpr maxTypeNesting).form hwritten (fun t ht ↦ ?_) fun t ht ↦ ?_,
      h.notBareNew m hm⟩
    · have hmem : t ∈ members.flatMap MemberForm.types := List.mem_flatMap.2 ⟨m, hm, ht⟩
      exact h.outer (List.mem_append_right _ hmem)
    · exact h.results t (List.mem_flatMap.2 ⟨m, hm, ht⟩)
  have hblock := yields_memberBlock k ks hforms
  rw [blockPieces, List.append_assoc, List.append_assoc, List.singleton_append] at hblock ⊢
  generalize (members.map fun m ↦ m.pieces ++ [.mark .semicolon]).flatten ++
    ([.mark .closeBrace] ++ k :: ks) = us at hblock ⊢
  have hextends := reads_heritage us hreferences (fun t ht ↦ (hheritage t ht).written)
    fun t ht u hu ↦ h.outer (List.mem_append_left _ (List.mem_append_right _
      (List.mem_flatMap.2 ⟨t, ht, hu⟩)))
  obtain ⟨q, qs, hqs, hq⟩ := heritagePieces_append heritage us
  have hparams := nests_typeParams htypeParams fun t ht ↦
    h.outer (List.mem_append_left _ (List.mem_append_left _ ht))
  unfold interfaceBody
  rw [hqs] at hextends ⊢
  refine Reads.bind (reads_typeParams hparams hq) ?_
  refine Reads.bind hextends ?_
  refine Yields.bind hblock fun placed hplaced ↦ ?_
  exact yields_pure ⟨placed, rfl, hplaced⟩

theorem reads_typeAliasBody (ks : List Piece) {name : String} {typeParams : List TypeParam} {type : TypeExpr}
    (h : (StatementForm.typeAlias name typeParams type).IsReadable) :
    Reads typeAliasBody
      (angledPieces (.mark .lessThan) (typeParams.map TypeParam.pieces) ++
        .mark .equals :: (type.pieces ++ .mark .semicolon :: k :: ks))
      (.typeAlias typeParams type) (k :: ks) := by
  have hwritten := h.written
  simp only [StatementForm.isWritten, Bool.and_eq_true] at hwritten
  have hparams := nests_typeParams hwritten.1.2 fun t ht ↦ h.outer (List.mem_append_left _ ht)
  have htype := nests_outerType (h.outer (List.mem_append_right _ (List.mem_singleton.2 rfl)))
    hwritten.2
  unfold typeAliasBody
  refine Reads.bind (reads_typeParams hparams (by simp [Piece.mark])) ?_
  refine Reads.bind (reads_require rfl (by decide) (by simp)) ?_
  refine Reads.bind (htype.reads _ _ (.mark (by simp [Piece.mark, typeEnds]))) ?_
  refine Reads.bind reads_semicolon ?_
  exact reads_pure _ _

theorem reads_variableBody (ks : List Piece) {name : String} {kind : VariableKind} {type : TypeExpr}
    (h : (StatementForm.var name kind type).IsReadable) :
    Reads (variableBody kind) (.mark .colon :: (type.pieces ++ .mark .semicolon :: k :: ks))
      (.variable kind type) (k :: ks) := by
  have hwritten := h.written
  simp only [StatementForm.isWritten, Bool.and_eq_true] at hwritten
  have htype := nests_outerType (h.outer (List.mem_singleton.2 rfl)) hwritten.2
  unfold variableBody
  refine Reads.bind (reads_annotatedType htype (.mark (by simp [Piece.mark, typeEnds]))) ?_
  refine Reads.bind reads_semicolon ?_
  exact reads_pure _ _

theorem reads_functionBody (ks : List Piece) {name : String} {signature : Signature}
    (h : (StatementForm.function name signature).IsReadable) :
    Reads functionBody (signature.pieces (.mark .colon) ++ .mark .semicolon :: k :: ks)
      (.function signature) (k :: ks) := by
  have hwritten := h.written
  simp only [StatementForm.isWritten, Bool.and_eq_true] at hwritten
  have hsignature := (nestsBelow_typeExpr maxTypeNesting).signature hwritten.2
    (fun t ht ↦ h.outer ht) (h.results _ (List.mem_singleton.2 rfl))
  unfold functionBody
  refine Reads.bind (reads_memberSignature _ hsignature (.mark (by simp [Piece.mark, typeEnds]))) ?_
  refine Reads.bind reads_semicolon ?_
  exact reads_pure _ _

end Bodies

/-! ### Statements -/

section Statements

variable {k : Piece} {ks : List Piece}

theorem yields_declaration {word name : String} {isDeclared : Bool} {body : Parser StatementBody}
    {ps : List Piece} {P : StatementBody → Prop} {f : StatementForm} (start : Nat)
    (hword : bodyOf? isDeclared word = some body) (hps : ps ≠ [])
    (hbody : Yields body ps P (k :: ks))
    (hform : ∀ b, P b → ∀ nameSpan span, (Statement.mk name nameSpan span b).form = f) :
    Yields (declaration start isDeclared) (.word word :: .word name :: ps) (·.form = f)
      (k :: ks) := by
  unfold declaration
  refine Reads.bind (reads_view (a := word) fun s hs ↦ hs.value) ?_
  rw [hword]
  refine Reads.bind (reads_advance (by simp [Piece.word]) (by simp)) ?_
  refine Yields.bind (yields_identifier hps) ?_
  rintro ⟨_, nameSpan⟩ rfl
  refine Yields.bind hbody fun b hb ↦ ?_
  refine Yields.bind (yields_view _ _) fun span _ ↦ ?_
  exact yields_pure (hform b hb nameSpan span)

theorem yields_undeclared {word : String} {ps : List Piece} {P : Statement → Prop}
    (hword : word ≠ "declare")
    (h : ∀ start, Yields (declaration start false) (.word word :: ps) P (k :: ks)) :
    Yields statement (.word word :: ps) P (k :: ks) := by
  unfold statement
  refine Yields.bind yields_token ?_
  rintro _ ⟨span, afterLineBreak, rfl⟩
  have hdeclared : Token.isWord ⟨(Piece.word word).kind, span, (Piece.word word).value,
      afterLineBreak⟩ "declare" = false := by
    simp [Token.isWord, Piece.word, hword]
  rw [if_pos (by rfl), hdeclared, if_neg (by simp)]
  exact h span.start

theorem yields_declared {ps : List Piece} {P : Statement → Prop} (hps : ps ≠ [])
    (h : ∀ start, Yields (declaration start true) ps P (k :: ks)) :
    Yields statement (.word "declare" :: ps) P (k :: ks) := by
  unfold statement
  refine Yields.bind yields_token ?_
  rintro _ ⟨span, afterLineBreak, rfl⟩
  have hdeclared : Token.isWord ⟨(Piece.word "declare").kind, span, (Piece.word "declare").value,
      afterLineBreak⟩ "declare" = true := rfl
  rw [if_pos (by rfl), hdeclared, if_pos rfl]
  refine Reads.bind (reads_advance (by simp [Piece.word]) hps) ?_
  exact h span.start

theorem yields_statement (ks : List Piece) {f : StatementForm} (h : f.IsReadable) :
    Yields statement (f.pieces ++ k :: ks) (·.form = f) (k :: ks) := by
  cases f with
  | interface name typeParams heritage members =>
    have hbody := reads_interfaceBody (k := k) ks h
    rw [StatementForm.pieces, StatementForm.headPieces]
    simp only [List.append_assoc, List.cons_append, List.nil_append]
    refine yields_undeclared (by decide) fun start ↦ ?_
    refine yields_declaration start rfl (by simp [blockPieces]) hbody ?_
    rintro _ ⟨placed, rfl, rfl⟩ nameSpan span
    rfl
  | typeAlias name typeParams type =>
    have hbody := reads_typeAliasBody (k := k) ks h
    rw [StatementForm.pieces]
    simp only [List.append_assoc, List.cons_append, List.nil_append]
    refine yields_undeclared (by decide) fun start ↦ ?_
    refine yields_declaration start rfl (by simp) hbody ?_
    rintro _ rfl nameSpan span
    rfl
  | var name kind type =>
    have hbody := reads_variableBody (k := k) ks h
    have hword : bodyOf? true kind.text = some (variableBody kind) := by
      cases kind <;> rfl
    rw [StatementForm.pieces]
    simp only [List.append_assoc, List.cons_append, List.nil_append]
    refine yields_declared (by simp) fun start ↦ ?_
    refine yields_declaration start hword (by simp) hbody ?_
    rintro _ rfl nameSpan span
    rfl
  | function name signature =>
    have hbody := reads_functionBody (k := k) ks h
    rw [StatementForm.pieces]
    simp only [List.append_assoc, List.cons_append, List.nil_append]
    refine yields_declared (by simp) fun start ↦ ?_
    refine yields_declaration start rfl (by simp) hbody ?_
    rintro _ rfl nameSpan span
    rfl

theorem pieces_statementForm_cons (f : StatementForm) : ∃ w ps, f.pieces = .word w :: ps := by
  cases f <;> exact ⟨_, _, rfl⟩

theorem yields_fileRound {f : StatementForm} {w : String} {ps : List Piece} (read : List Statement)
    (hstatement : Yields statement (.word w :: ps) (·.form = f) (k :: ks)) :
    Yields (fileRound read) (.word w :: ps)
      (fun all ↦ all.map (·.form) = read.map (·.form) ++ [f]) (k :: ks) := by
  refine (yields_itemRound (by simp [Piece.word]) hstatement).imp ?_
  rintro _ ⟨s, rfl, rfl⟩
  exact List.map_append

theorem yields_statements_cons {f : StatementForm} {w : String} {ps us : List Piece}
    {read : List Statement} {Q : List Statement → Prop}
    (hstatement : Yields statement (.word w :: ps) (·.form = f) (k :: ks))
    (hlength : ks.length < ps.length)
    (hnext : ∀ all : List Statement, all.map (·.form) = read.map (·.form) ++ [f] →
      Yields (loopWhile isInFile fileRound all) (k :: ks) Q us) :
    Yields (loopWhile isInFile fileRound read) (.word w :: ps) Q us := by
  refine yields_loopWhile_again (fun s hs ↦ ?_) (yields_fileRound read hstatement)
    (Nat.succ_lt_succ hlength) hnext
  unfold isInFile
  rw [hs.kind, hs.isAbandoned]
  rfl

theorem yields_statements_done {read : List Statement} {Q : List Statement → Prop} (hread : Q read) :
    Yields (loopWhile isInFile fileRound read) [.ending] Q [.ending] := by
  refine yields_loopWhile_done (fun s hs ↦ ?_) hread
  unfold isInFile
  rw [hs.kind]
  rfl

theorem yields_statements_loop {fs : List StatementForm} (read : List Statement)
    (hfs : ∀ f ∈ fs, f.IsReadable) :
    Yields (loopWhile isInFile fileRound read) (fs.flatMap StatementForm.pieces ++ [.ending])
      (fun all ↦ all.map (·.form) = read.map (·.form) ++ fs) [.ending] := by
  induction fs generalizing read with
  | nil => exact yields_statements_done (by simp)
  | cons f fs ih =>
    obtain ⟨hf, hfs⟩ := List.forall_mem_cons.1 hfs
    obtain ⟨w, ps, hps⟩ := pieces_statementForm_cons f
    obtain ⟨k, ks, hks⟩ : ∃ k ks, fs.flatMap StatementForm.pieces ++ [.ending] = k :: ks :=
      List.exists_cons_of_ne_nil (by simp)
    have hstatement := yields_statement (k := k) ks hf
    rw [List.flatMap_cons, List.append_assoc, hks, hps, List.cons_append]
    rw [hps, List.cons_append] at hstatement
    refine yields_statements_cons hstatement ?_ fun all hall ↦ ?_
    · rw [List.length_append, List.length_cons]
      omega
    · rw [← hks]
      refine Yields.imp (ih all hfs) fun rest hrest ↦ ?_
      rw [hrest, hall, List.append_assoc, List.singleton_append]

theorem yields_statements {fs : List StatementForm} (hfs : ∀ f ∈ fs, f.IsReadable) :
    Yields statements (fs.flatMap StatementForm.pieces ++ [.ending])
      (fun all ↦ all.map (·.form) = fs) [.ending] := by
  rw [statements]
  exact yields_statements_loop [] hfs

end Statements
end Parser
end TypeSurface
