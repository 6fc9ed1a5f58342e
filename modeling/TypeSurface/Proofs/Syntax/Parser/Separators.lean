import TypeSurface.Proofs.Syntax.Block
import TypeSurface.Proofs.Syntax.Parser.Directives
import TypeSurface.Proofs.Syntax.Parser.FoundStatements

/-!
# Members and what separates them

Semicolons, commas and line breaks may separate the members of an interface in any mixture.  A line
break is seen by those rules alone that look whether a token starts a line, so a plain type must be
read as the same type in front of whatever a member can start with.  Hence a block of plain members is
read as these members, unless one of them is, or holds, a method with the bare name `new`: its text is
that of a construct signature.
-/

namespace TypeSurface

/-! ### Reading rows -/

theorem behindGap_cons {cs : List Char} {p : Piece} (hcs : ∀ c ∈ cs, c ∈ gapChars) (ps : List Piece) :
    ∃ k ks, behindGap cs (p :: ps) = k :: ks ∧ (k.kind ∈ Parser.blockEnds ∨ k.kind = p.kind) := by
  induction cs with
  | nil => exact ⟨p, ps, rfl, Or.inr rfl⟩
  | cons c cs ih =>
    obtain ⟨hc, hcs⟩ := List.forall_mem_cons.1 hcs
    obtain ⟨k, ks, hks, hk⟩ := ih hcs
    unfold behindGap
    split
    · next kind hmark =>
      refine ⟨.mark kind, _, rfl, Or.inl ?_⟩
      rcases gapChars_mark hc hmark with rfl | rfl <;> simp [Piece.mark, Parser.blockEnds]
    · rw [hks]
      split
      · exact ⟨k.broken, ks, rfl, hk⟩
      · exact ⟨k, ks, rfl, hk⟩

/-- A plain type ends in front of what sets a member apart. -/
theorem endsAt_behindGap {cs : List Char} {p : Piece} (hcs : ∀ c ∈ cs, c ∈ gapChars)
    (hseparated : ∃ c ∈ cs, c ∈ separatorChars) (hp : p.kind ∈ Parser.memberStarts) (ps : List Piece) :
    ∃ k ks, behindGap cs (p :: ps) = k :: ks ∧
      ∀ t : TypeExpr, t.All (·.isPlainNode = true) → Parser.EndsAt Parser.blockEnds t k := by
  induction cs with
  | nil =>
    obtain ⟨c, hc, -⟩ := hseparated
    cases hc
  | cons c cs ih =>
    obtain ⟨hc, hcs⟩ := List.forall_mem_cons.1 hcs
    unfold behindGap
    split
    · next kind hmark =>
      refine ⟨.mark kind, _, rfl, fun t _ ↦ .mark ?_⟩
      rcases gapChars_mark hc hmark with rfl | rfl <;> simp [Piece.mark, Parser.blockEnds]
    · next hmark =>
      split
      · -- What stands behind the line break is a separator, or the member on its line.
        obtain ⟨k, ks, hks, hk⟩ := behindGap_cons (p := p) hcs ps
        rw [hks]
        refine ⟨k.broken, ks, rfl, fun t ht ↦ ?_⟩
        rcases hk with hk | hk
        · exact .mark hk
        · exact .line rfl (hk ▸ hp) ht
      · next hbreak =>
        obtain ⟨d, hd, hseparator⟩ := hseparated
        rcases List.mem_cons.1 hd with rfl | hd
        · exact absurd (isLineBreak_of_separatorChars hseparator hmark) hbreak
        · exact ih hcs ⟨d, hd, hseparator⟩

namespace Parser

section Rows

variable {type : Parser TypeExpr} {members : List PlacedMember} {us : List Piece}
  {Q : List PlacedMember → Prop}

theorem Yields.onNewLine {α : Type} {p : Parser α} {ps ks : List Piece} {P : α → Prop}
    (h : Yields p ps P ks) : Yields p (onNewLine ps) P ks := by
  cases ps with
  | nil => exact h
  | cons q ps => exact h.of_broken

/-- The rounds at a gap pass over its separators. -/
theorem yields_behindGap {cs : List Char} {p : Piece} {ps : List Piece}
    (hcs : ∀ c ∈ cs, c ∈ gapChars)
    (h : Yields (loopWhile isInBlock (blockRound type) members) (p :: ps) Q us) :
    Yields (loopWhile isInBlock (blockRound type) members) (behindGap cs (p :: ps)) Q us := by
  induction cs with
  | nil => exact h
  | cons c cs ih =>
    obtain ⟨hc, hcs⟩ := List.forall_mem_cons.1 hcs
    have hne : behindGap cs (p :: ps) ≠ [] := by
      obtain ⟨k, ks, hks, -⟩ := behindGap_cons (p := p) hcs ps
      simp [hks]
    unfold behindGap
    split
    · next kind hmark => exact yields_members_separator (gapChars_mark hc hmark) hne (ih hcs)
    · split
      · exact (ih hcs).onNewLine
      · exact ih hcs

variable {rows : List Row} {k : Piece} {ks : List Piece}

/-- A plain type ends in front of rows that are set apart, and in front of what ends their block. -/
theorem endsAt_rows (hgaps : ∀ row ∈ rows, isGap row.gap = true)
    (hseparated : ∀ row ∈ rows, isSeparator row.gap = true) (hk : k.kind ∈ blockEnds)
    (ks : List Piece) :
    ∃ q qs, Row.pieces rows (k :: ks) = q :: qs ∧
      ∀ t : TypeExpr, t.All (·.isPlainNode = true) → EndsAt blockEnds t q := by
  cases rows with
  | nil => exact ⟨k, ks, rfl, fun t _ ↦ .mark hk⟩
  | cons row rows =>
    obtain ⟨p, ps, hps, hp⟩ := pieces_memberForm_cons row.member
    have hends := endsAt_behindGap (isGap_iff.1 (hgaps row List.mem_cons_self))
      (isSeparator_iff.1 (hseparated row List.mem_cons_self)) hp (ps ++ Row.pieces rows (k :: ks))
    rwa [← List.cons_append, ← hps] at hends

/-- The rounds at rows read their members, whatever sets these apart. -/
theorem yields_rows (hgaps : ∀ row ∈ rows, isGap row.gap = true)
    (hseparated : ∀ row ∈ rows.tail, isSeparator row.gap = true)
    (hnests : ∀ row ∈ rows, NestsForm type row.member ∧ row.member.isBareNew = false)
    (hplain : ∀ row ∈ rows, ∀ t ∈ row.member.types, t.All (·.isPlainNode = true))
    (hk : k.kind ∈ blockEnds)
    (hnext : ∀ read : List PlacedMember,
      read.map (·.form) = members.map (·.form) ++ rows.map Row.member →
        Yields (loopWhile isInBlock (blockRound type) read) (k :: ks) Q us) :
    Yields (loopWhile isInBlock (blockRound type) members) (Row.pieces rows (k :: ks)) Q us := by
  -- The read members are generalised, as each row hands them on with one more.
  induction rows generalizing members with
  | nil => exact hnext members (by simp)
  | cons row rows ih =>
    obtain ⟨hgap, hgaps⟩ := List.forall_mem_cons.1 hgaps
    obtain ⟨⟨hm, hnew⟩, hnests⟩ := List.forall_mem_cons.1 hnests
    obtain ⟨hplainRow, hplain⟩ := List.forall_mem_cons.1 hplain
    obtain ⟨p, ps, hps, -⟩ := pieces_memberForm_cons row.member
    obtain ⟨q, qs, hqs, hends⟩ := endsAt_rows hgaps hseparated hk ks
    have hmember : Yields (loopWhile isInBlock (blockRound type) members)
        (row.member.pieces ++ Row.pieces rows (k :: ks)) Q us := by
      rw [hqs]
      refine yields_members_cons hm hnew (fun t ht ↦ hends t (hplainRow t ht)) fun read hread ↦ ?_
      rw [← hqs]
      refine ih hgaps (fun r hr ↦ hseparated r (List.mem_of_mem_tail hr)) hnests hplain ?_
      intro all hall
      refine hnext all ?_
      rw [hall, hread, List.append_assoc, List.singleton_append, List.map_cons]
    change Yields _ (behindGap row.gap.toList (row.member.pieces ++ Row.pieces rows (k :: ks))) Q us
    rw [hps, List.cons_append] at hmember ⊢
    exact yields_behindGap (isGap_iff.1 hgap) hmember

theorem yields_block {b : Block}
    (hnests : ∀ m ∈ b.members, NestsForm type m ∧ m.isBareNew = false)
    (hplain : ∀ m ∈ b.members, ∀ t ∈ m.types, t.All (·.isPlainNode = true)) :
    Yields (memberBlock type) (.mark .openBrace :: b.pieces) (·.map (·.form) = b.members)
      [.ending] := by
  have hmember : ∀ row ∈ b.rows, row.member ∈ b.members := fun row hrow ↦ List.mem_map_of_mem hrow
  have hclosing := isGap_iff.1 b.isGap_closing
  obtain ⟨k, ks, hks, hk⟩ :=
    behindGap_cons (p := .mark .closeBrace) hclosing [Piece.ending]
  have hends : k.kind ∈ blockEnds := by
    rcases hk with hk | hk
    · exact hk
    · simp [hk, Piece.mark, blockEnds]
  have hrows : Yields (loopWhile isInBlock (blockRound type) []) b.pieces
      (fun read ↦ read.map (·.form) = b.members) [.mark .closeBrace, .ending] := by
    rw [Block.pieces, hks]
    refine yields_rows b.isGap_row b.isSeparator_row (fun row hrow ↦ hnests _ (hmember row hrow))
      (fun row hrow ↦ hplain _ (hmember row hrow)) hends fun read hread ↦ ?_
    rw [← hks]
    exact yields_behindGap hclosing (yields_members_done (by simpa [Block.members] using hread))
  have hne : b.pieces ≠ [] := by
    intro hnil
    have hending := b.ending_mem_pieces
    rw [hnil] at hending
    cases hending
  rw [memberBlock]
  refine Reads.bind (reads_require rfl (by decide) hne) ?_
  refine Yields.bind hrows fun read hread ↦ ?_
  exact Reads.bind (reads_expect rfl (by decide) (by simp)) (yields_pure hread)

end Rows

/-- An interface is read with the members of its block. -/
theorem yields_interface {b : Block} (name : String)
    (hnests : ∀ m ∈ b.members, NestsForm outerType m ∧ m.isBareNew = false)
    (hplain : ∀ m ∈ b.members, ∀ t ∈ m.types, t.All (·.isPlainNode = true)) :
    Yields statement (.word "interface" :: .word name :: .mark .openBrace :: b.pieces)
      (·.form = .interface name [] [] b.members) [.ending] := by
  have hnone : ∀ p ∈ ([] : List TypeParam), ∀ t ∈ p.types, Nests outerType t :=
    List.forall_mem_nil _
  have hparams : Reads (typeParams outerType)
      (angledPieces (.mark .lessThan) [] ++ .mark .openBrace :: b.pieces) []
      (.mark .openBrace :: b.pieces) := reads_typeParams hnone (by simp [Piece.mark])
  have hheritage : Reads heritage (StatementForm.heritagePieces [] ++ .mark .openBrace :: b.pieces) []
      (.mark .openBrace :: b.pieces) :=
    reads_heritage b.pieces rfl (List.forall_mem_nil _) (List.forall_mem_nil _)
  have hbody : Yields interfaceBody (.mark .openBrace :: b.pieces)
      (fun body ↦ ∃ placed, body = .interface [] [] placed ∧ placed.map (·.form) = b.members)
      [.ending] := by
    unfold interfaceBody
    refine Reads.bind hparams ?_
    refine Reads.bind hheritage ?_
    refine Yields.bind (yields_block hnests hplain) fun placed hplaced ↦ ?_
    exact yields_pure ⟨placed, rfl, hplaced⟩
  refine yields_undeclared (by decide) fun start ↦ ?_
  refine yields_declaration start rfl (by simp) hbody ?_
  rintro _ ⟨placed, rfl, hplaced⟩ nameSpan span
  rw [← hplaced]
  rfl

end Parser

/-! ### Members -/

namespace MemberForm

/-- Whether a reader finds the member in some file. -/
def IsRead (m : MemberForm) : Prop :=
  ∃ file source, ∃ s ∈ (SourceFile.parse file source).statements, m ∈ s.form.members

/-- Whether the member and the types in it are plain, and nested no deeper than a reader goes. -/
structure IsWhollyPlain (m : MemberForm) : Prop where
  self : m.isPlain = true
  types : ∀ t ∈ m.types, t.All (·.isPlainNode = true)
  depth : m.depth ≤ maxTypeNesting

/-- Whether the member is, or holds, a method that is written as a construct signature. -/
def HoldsBareNew (m : MemberForm) : Prop :=
  m.isBareNew = true ∨ ∃ t ∈ m.types, ∃ u ∈ t.nodes, u.holdsBareNew = true

instance (m : MemberForm) : Decidable m.IsWhollyPlain :=
  decidable_of_iff (m.isPlain = true ∧ (∀ t ∈ m.types, ∀ u ∈ t.nodes, u.isPlainNode = true) ∧
      m.depth ≤ maxTypeNesting)
    ⟨fun h ↦ ⟨h.1, h.2.1, h.2.2⟩, fun h ↦ ⟨h.self, h.types, h.depth⟩⟩

instance (m : MemberForm) : Decidable m.HoldsBareNew :=
  inferInstanceAs (Decidable (_ ∨ ∃ t ∈ m.types, _))

variable {m : MemberForm} {isQuiet : Bool}

theorem IsRead.isFound (h : m.IsRead) : m.IsFound false := by
  obtain ⟨file, source, s, hs, hm⟩ := h
  exact (isFound_of_parse file source s hs).member hm

theorem IsFound.spells (h : m.IsFound isQuiet) (hplain : m.IsWhollyPlain) :
    Spells m.text m.pieces := by
  refine spells_memberForm h.written (isShown_of_isPlain hplain.self) fun t ht ↦ ?_
  have hspelt : t.IsSpelt := fun u hu ↦
    ⟨(h.types t ht u hu).1, TypeExpr.isShownNode_of_isPlainNode (hplain.types t ht u hu)⟩
  exact hspelt.spells

theorem IsFound.not_holdsBareNew (h : m.IsFound true) : ¬m.HoldsBareNew := by
  rintro (hbare | ⟨t, ht, u, hu, hbare⟩)
  · rw [h.notBareNew rfl] at hbare
    cases hbare
  · rw [(h.types t ht u hu).2 rfl] at hbare
    cases hbare

theorem IsFound.nestsForm (h : m.IsFound isQuiet) (hplain : m.IsWhollyPlain)
    (hnew : ¬m.HoldsBareNew) : Parser.NestsForm Parser.outerType m := by
  refine (Parser.nestsBelow_typeExpr maxTypeNesting).form h.written (fun t ht ↦ ⟨?_, ?_, ?_⟩)
    fun t ht ↦ TypeExpr.startsPredicate_of_plain (hplain.types t (mem_types_of_mem_results ht))
  · exact TypeExpr.isReadable_of_plain (fun u hu ↦ (h.types t ht u hu).1) (hplain.types t ht)
      fun u hu ↦ Bool.eq_false_iff.2 fun hbare ↦ hnew (Or.inr ⟨t, ht, u, hu, hbare⟩)
  · exact TypeExpr.startsNew_of_plain (hplain.types t ht)
  · exact Nat.lt_of_lt_of_le (depth_lt ht) hplain.depth

end MemberForm

/-! ### Blocks -/

namespace Block

variable {b : Block} {name : String}

theorem lexes_of_plain (hname : Lexeme.isWord name.toList = true)
    (hread : ∀ m ∈ b.members, m.IsRead) (hplain : ∀ m ∈ b.members, m.IsWhollyPlain) :
    Lexes (b.interfaceText name).toList
      (.word "interface" :: .word name :: .mark .openBrace :: b.pieces) :=
  b.lexes_interfaceText hname fun m hm ↦ (hread m hm).isFound.spells (hplain m hm)

/-- What is read of an interface of plain members holds no method that is written as a construct
signature. -/
theorem not_holdsBareNew_of_parse {file : String} (hname : Lexeme.isWord name.toList = true)
    (hread : ∀ m ∈ b.members, m.IsRead) (hplain : ∀ m ∈ b.members, m.IsWhollyPlain) {s : Statement}
    (hs : s ∈ (SourceFile.parse file (b.interfaceText name)).statements) :
    ∀ m ∈ s.form.members, ¬m.HoldsBareNew := by
  intro m hm
  have hending : .endOfFile ∈ List.map Piece.kind
      (.word "interface" :: .word name :: .mark .openBrace :: b.pieces) := by
    simp only [List.map_cons]
    exact List.mem_cons_of_mem _ (List.mem_cons_of_mem _ (List.mem_cons_of_mem _ b.ending_mem_pieces))
  have hfound := isFound_of_parse_pieces file (lexes_of_plain hname hread hplain) hending s hs
  exact (hfound.member hm).not_holdsBareNew

/-- Plain members with any separators between them are read without a defect as the same members in the
same order, if and only if none of them holds a method that is written as a construct signature. -/
theorem parse_interfaceText_iff (b : Block) (file : String) {name : String}
    (hname : Lexeme.isWord name.toList = true) (hread : ∀ m ∈ b.members, m.IsRead)
    (hplain : ∀ m ∈ b.members, m.IsWhollyPlain) :
    (∃ s, SourceFile.parse file (b.interfaceText name) = ⟨file, [], [s], []⟩ ∧
      s.form = .interface name [] [] b.members) ↔ ∀ m ∈ b.members, ¬m.HoldsBareNew := by
  constructor
  · rintro ⟨s, hparse, hform⟩
    have hs : s ∈ (SourceFile.parse file (b.interfaceText name)).statements := by
      rw [hparse]
      exact List.mem_singleton_self s
    have hnone := not_holdsBareNew_of_parse hname hread hplain hs
    rwa [hform] at hnone
  · intro hnew
    have hnests : ∀ m ∈ b.members, Parser.NestsForm Parser.outerType m ∧ m.isBareNew = false :=
      fun m hm ↦ ⟨(hread m hm).isFound.nestsForm (hplain m hm) (hnew m hm),
        Bool.eq_false_iff.2 fun hbare ↦ hnew m hm (Or.inl hbare)⟩
    have hstatement := Parser.yields_interface name hnests fun m hm ↦ (hplain m hm).types
    have hstatements : Parser.Yields Parser.statements
        (.word "interface" :: .word name :: .mark .openBrace :: b.pieces)
        (fun all ↦ all.map (·.form) = [.interface name [] [] b.members]) [.ending] := by
      rw [Parser.statements]
      exact Parser.yields_statements_cons hstatement (by simp) fun all hall ↦
        Parser.yields_statements_done hall
    obtain ⟨hdirectives, hstart⟩ :=
      Parser.directives_of_lexes file (lexes_of_plain hname hread hplain)
    obtain ⟨statements, hparse, hforms⟩ := parse_of_yields hdirectives hstart hstatements
    obtain ⟨s, rfl, hform⟩ := List.map_eq_singleton_iff.1 hforms
    exact ⟨s, hparse, hform⟩

/-- Members with line breaks and separators between them: behind the type `B` on a line below the type
parameters of a call signature start, and behind an array type the bracket of an index. -/
def linesBlock : Block where
  rows :=
    [⟨"\n", .property (.identifier "a") true false (.reference "B" [])⟩,
      ⟨"\n", .call ⟨[⟨"T", none, none⟩], [⟨"x", .reference "T" [], false, false⟩],
        .array (.reference "T" [])⟩⟩,
      ⟨"\r\n", .index false "k" (.keyword .string) (.reference "C" [])⟩,
      ⟨" ,\n;", .construct ⟨[], [], .predicate "y" (.reference "D" [])⟩⟩]
  closing := "\n"
  isGap_row := by decide
  isGap_closing := by decide
  isSeparator_row := by decide

/-- The members of the block, one behind the other. -/
def linesSource : String :=
  "interface S \x7b readonly a: B; <T>(x: T): T[]; [k: string]: C; new(): y is D \x7d"

theorem parse_interfaceText_iff_lines :
    Lexeme.isWord "I".toList = true ∧ (∀ m ∈ linesBlock.members, m.IsRead) ∧
      (∀ m ∈ linesBlock.members, m.IsWhollyPlain) ∧
      ∃ s, SourceFile.parse "b.d.ts" (linesBlock.interfaceText "I") = ⟨"b.d.ts", [], [s], []⟩ ∧
        s.form = .interface "I" [] [] linesBlock.members := by
  have hname : Lexeme.isWord "I".toList = true := by decide
  have hread : ∀ m ∈ linesBlock.members,
      ∃ s ∈ (SourceFile.parse "a.d.ts" linesSource).statements, m ∈ s.form.members := by
    decide +kernel
  have hplain : ∀ m ∈ linesBlock.members, m.IsWhollyPlain := by decide +kernel
  have hnew : ∀ m ∈ linesBlock.members, ¬m.HoldsBareNew := by decide +kernel
  have hreadAll : ∀ m ∈ linesBlock.members, m.IsRead := fun m hm ↦ ⟨_, _, hread m hm⟩
  exact ⟨hname, hreadAll, hplain,
    (linesBlock.parse_interfaceText_iff "b.d.ts" hname hreadAll hplain).2 hnew⟩

/-- A method with the bare name `new`, alone in its block. -/
def bareNewBlock : Block where
  rows := [⟨"", .method (.identifier "new") false ⟨[], [], .keyword .string⟩⟩]
  closing := ""
  isGap_row := by decide
  isGap_closing := by decide
  isSeparator_row := by decide

/-- A directive stands between the name of the method and its parameters. -/
def bareNewSource : String := "interface I \x7b new\n/// note\n(): string \x7d"

/-- Not every block of plain members is read as these members. -/
theorem not_parse_interfaceText :
    ¬∀ (b : Block) (file name : String), Lexeme.isWord name.toList = true →
      (∀ m ∈ b.members, m.IsRead) → (∀ m ∈ b.members, m.IsWhollyPlain) →
        ∃ s, SourceFile.parse file (b.interfaceText name) = ⟨file, [], [s], []⟩ ∧
          s.form = .interface name [] [] b.members := by
  intro hall
  have hname : Lexeme.isWord "J".toList = true := by decide
  have hread : ∀ m ∈ bareNewBlock.members,
      ∃ s ∈ (SourceFile.parse "a.d.ts" bareNewSource).statements, m ∈ s.form.members := by
    decide +kernel
  have hplain : ∀ m ∈ bareNewBlock.members, m.IsWhollyPlain := by decide +kernel
  have hreadAll : ∀ m ∈ bareNewBlock.members, m.IsRead := fun m hm ↦ ⟨_, _, hread m hm⟩
  obtain ⟨s, hparse, hform⟩ := hall bareNewBlock "b.d.ts" "J" hname hreadAll hplain
  have hs : s ∈ (SourceFile.parse "b.d.ts" (bareNewBlock.interfaceText "J")).statements := by
    rw [hparse]
    exact List.mem_singleton_self s
  have hnone := not_holdsBareNew_of_parse hname hreadAll hplain hs
  rw [hform] at hnone
  exact hnone _ List.mem_cons_self (Or.inl rfl)

end Block
end TypeSurface
