import TypeSurface.Proofs.Syntax.Statement

/-!
# Texts of blocks

A block of members as it may be written by hand: the canonical texts of the members, with separators,
line breaks and blanks between them in any mixture.  Such a text is read as the pieces of the members
and of the separators, where a piece behind a line break is a broken one.
-/

namespace TypeSurface

/-! ### Gaps -/

/-- What sets a member apart from the one in front of it. -/
def separatorChars : List Char := [';', ',', '\n', '\r']

/-- What may stand between members. -/
def gapChars : List Char := ' ' :: '\t' :: separatorChars

/-- Whether nothing but separators, line breaks and blanks stands in the text. -/
def isGap (text : String) : Bool := text.toList.all gapChars.contains

/-- Whether the text sets a member apart from the one in front of it. -/
def isSeparator (text : String) : Bool := text.toList.any separatorChars.contains

/-- Pieces that start on a line of their own. -/
def onNewLine : List Piece → List Piece
  | [] => []
  | p :: ps => p.broken :: ps

/-- The pieces of a gap and of what stands behind it. -/
def behindGap : List Char → List Piece → List Piece
  | [], ps => ps
  | c :: cs, ps =>
    match mark? c with
    | some kind => .mark kind :: behindGap cs ps
    | none => if Text.isLineBreak c then onNewLine (behindGap cs ps) else behindGap cs ps

section Gaps

variable {c : Char} {cs rest : List Char} {ps : List Piece} {kind : TokenKind}

theorem gapChars_mark (hc : c ∈ gapChars) (h : mark? c = some kind) :
    kind = .semicolon ∨ kind = .comma := by
  have hmarks : gapChars.all (fun c ↦ [none, some .semicolon, some .comma].contains (mark? c)) = true :=
    rfl
  have hmark := List.all_eq_true.1 hmarks c hc
  simpa [h] using hmark

theorem gapChars_blank (hc : c ∈ gapChars) (h : mark? c = none) : Trivia.isBlank c = true := by
  have hblanks : gapChars.all (fun c ↦ (mark? c).isSome || Trivia.isBlank c) = true := rfl
  have hblank := List.all_eq_true.1 hblanks c hc
  simpa [h] using hblank

theorem isLineBreak_of_separatorChars (hc : c ∈ separatorChars) (h : mark? c = none) :
    Text.isLineBreak c = true := by
  have hbreaks : separatorChars.all (fun c ↦ (mark? c).isSome || Text.isLineBreak c) = true := rfl
  have hbreak := List.all_eq_true.1 hbreaks c hc
  simpa [h] using hbreak

theorem isGap_iff {text : String} : isGap text = true ↔ ∀ c ∈ text.toList, c ∈ gapChars := by
  simp [isGap]

theorem isSeparator_iff {text : String} :
    isSeparator text = true ↔ ∃ c ∈ text.toList, c ∈ separatorChars := by
  simp [isSeparator]

theorem isApart_of_gapChars (hc : c ∈ gapChars) : Text.IsApart (c :: cs) := by
  have hparts : gapChars.all (fun c ↦ !CharClass.isIdentifierPart c && c != '.') = true := rfl
  have hpart := List.all_eq_true.1 hparts c hc
  simp only [Bool.and_eq_true, Bool.not_eq_true', bne_iff_ne] at hpart
  exact Text.isApart_cons hpart.1 hpart.2

theorem lexes_onNewLine (hbreak : Text.isLineBreak c = true) (hps : StartsLine ps)
    (h : Lexes cs ps) : Lexes (c :: cs) (onNewLine ps) := by
  cases ps with
  | nil => trivial
  | cons p ps =>
    obtain ⟨rest, hhead, htail⟩ := h
    exact ⟨rest, Piece.heads_broken hbreak (hps p rfl) hhead, htail⟩

theorem StartsLine.onNewLine (h : StartsLine ps) : StartsLine (onNewLine ps) := by
  cases ps with
  | nil => exact h
  | cons p ps =>
    rintro _ ⟨⟩
    exact h p rfl

theorem StartsLine.behindGap (h : StartsLine ps) : StartsLine (behindGap cs ps) := by
  induction cs with
  | nil => exact h
  | cons c cs ih =>
    unfold TypeSurface.behindGap
    split
    · rintro _ ⟨⟩
      rfl
    · split
      · exact ih.onNewLine
      · exact ih

/-- A gap is read as its separators. -/
theorem lexes_behindGap (hcs : ∀ c ∈ cs, c ∈ gapChars) (hps : StartsLine ps) (h : Lexes rest ps) :
    Lexes (cs ++ rest) (behindGap cs ps) := by
  induction cs with
  | nil => exact h
  | cons c cs ih =>
    obtain ⟨hc, hcs⟩ := List.forall_mem_cons.1 hcs
    unfold behindGap
    rw [List.cons_append]
    split
    · next kind hmark => exact ⟨cs ++ rest, heads_mark hmark _, ih hcs⟩
    · next hmark =>
      split
      · next hbreak => exact lexes_onNewLine hbreak hps.behindGap (ih hcs)
      · next hbreak =>
        exact lexes_cons_blank (gapChars_blank hc hmark) (Bool.eq_false_iff.2 hbreak) (ih hcs)

theorem map_kind_onNewLine (ps : List Piece) :
    (onNewLine ps).map Piece.kind = ps.map Piece.kind := by
  cases ps <;> rfl

theorem mem_kinds_behindGap (h : kind ∈ ps.map Piece.kind) :
    kind ∈ (behindGap cs ps).map Piece.kind := by
  induction cs with
  | nil => exact h
  | cons c cs ih =>
    unfold behindGap
    split
    · exact List.mem_cons_of_mem _ ih
    · split
      · rwa [map_kind_onNewLine]
      · exact ih

end Gaps

/-! ### Rows -/

/-- A member with the text in front of it. -/
structure Row where
  gap : String
  member : MemberForm

namespace Row

def text (row : Row) : String := row.gap ++ row.member.text

/-- The pieces of rows and of what stands behind them. -/
def pieces (rows : List Row) (ps : List Piece) : List Piece :=
  rows.foldr (fun row ps ↦ behindGap row.gap.toList (row.member.pieces ++ ps)) ps

variable {rows : List Row} {rest : List Char} {ps : List Piece} {kind : TokenKind}

theorem isApart_join (hgaps : ∀ row ∈ rows, isGap row.gap = true)
    (hseparated : ∀ row ∈ rows, isSeparator row.gap = true) (hrest : Text.IsApart rest) :
    Text.IsApart ((String.join (rows.map text)).toList ++ rest) := by
  cases rows with
  | nil => exact hrest
  | cons row rows =>
    obtain ⟨c, hc, -⟩ := isSeparator_iff.1 (hseparated row List.mem_cons_self)
    obtain ⟨d, cs, hgap⟩ := List.exists_cons_of_ne_nil (List.ne_nil_of_mem hc)
    have hd : d ∈ gapChars :=
      isGap_iff.1 (hgaps row List.mem_cons_self) d (hgap ▸ List.mem_cons_self)
    simp only [List.map_cons, String.join_cons, text, String.toList_append, List.append_assoc, hgap,
      List.cons_append]
    exact isApart_of_gapChars hd

theorem startsLine_pieces (hps : StartsLine ps) : StartsLine (pieces rows ps) := by
  induction rows with
  | nil => exact hps
  | cons row rows ih => exact ((StatementForm.startsLine_memberForm row.member).append ih).behindGap

/-- Rows are read as their pieces, if all but the first are set apart. -/
theorem lexes_pieces (hgaps : ∀ row ∈ rows, isGap row.gap = true)
    (hseparated : ∀ row ∈ rows.tail, isSeparator row.gap = true)
    (hspells : ∀ row ∈ rows, Spells row.member.text row.member.pieces)
    (hrest : Text.IsApart rest) (hps : StartsLine ps) (h : Lexes rest ps) :
    Lexes ((String.join (rows.map text)).toList ++ rest) (pieces rows ps) := by
  induction rows with
  | nil => exact h
  | cons row rows ih =>
    obtain ⟨hgap, hgaps⟩ := List.forall_mem_cons.1 hgaps
    obtain ⟨hspell, hspells⟩ := List.forall_mem_cons.1 hspells
    have hrows := ih hgaps (fun r hr ↦ hseparated r (List.mem_of_mem_tail hr)) hspells
    simp only [List.map_cons, String.join_cons, text, String.toList_append, List.append_assoc]
    exact lexes_behindGap (isGap_iff.1 hgap)
      ((StatementForm.startsLine_memberForm row.member).append (startsLine_pieces hps))
      (hspell _ _ (isApart_join hgaps hseparated hrest) hrows)

theorem mem_kinds_pieces (h : kind ∈ ps.map Piece.kind) :
    kind ∈ (pieces rows ps).map Piece.kind := by
  induction rows with
  | nil => exact h
  | cons row rows ih =>
    refine mem_kinds_behindGap ?_
    rw [List.map_append]
    exact List.mem_append_right _ ih

end Row

/-! ### Blocks -/

/-- The text of a block: members, each but the first set apart from the one in front of it. -/
structure Block where
  rows : List Row
  /-- What stands behind the last member. -/
  closing : String
  isGap_row : ∀ row ∈ rows, isGap row.gap = true
  isGap_closing : isGap closing = true
  isSeparator_row : ∀ row ∈ rows.tail, isSeparator row.gap = true

namespace Block

variable {b : Block} {name : String}

def members (b : Block) : List MemberForm := b.rows.map Row.member

def text (b : Block) : String := String.join (b.rows.map Row.text) ++ b.closing

/-- An interface with the block as its body. -/
def interfaceText (b : Block) (name : String) : String :=
  "interface " ++ name ++ " \x7b" ++ b.text ++ "\x7d"

/-- The pieces of an interface behind the brace that opens the block. -/
def pieces (b : Block) : List Piece :=
  Row.pieces b.rows (behindGap b.closing.toList [.mark .closeBrace, .ending])

theorem lexes_interfaceText (hname : Lexeme.isWord name.toList = true)
    (hspells : ∀ m ∈ b.members, Spells m.text m.pieces) :
    Lexes (b.interfaceText name).toList
      (.word "interface" :: .word name :: .mark .openBrace :: b.pieces) := by
  have hbrace : Lexes "\x7d".toList [.mark .closeBrace, .ending] := by
    have hcloses := closes_mark (rfl : marks? "\x7d".toList = some [.closeBrace])
    exact List.append_nil "\x7d".toList ▸ hcloses [] [.ending] lexes_ending
  have hstarts : StartsLine [Piece.mark .closeBrace, .ending] := by simp [StartsLine, Piece.mark]
  have hclosing : Lexes (b.closing.toList ++ "\x7d".toList)
      (behindGap b.closing.toList [.mark .closeBrace, .ending]) :=
    lexes_behindGap (isGap_iff.1 b.isGap_closing) hstarts hbrace
  have hapart : Text.IsApart (b.closing.toList ++ "\x7d".toList) := by
    cases hchars : b.closing.toList with
    | nil => exact Text.isApart_cons (by decide) (by decide)
    | cons c cs =>
      exact isApart_of_gapChars (isGap_iff.1 b.isGap_closing c (hchars ▸ List.mem_cons_self))
  have hrows := Row.lexes_pieces b.isGap_row b.isSeparator_row
    (fun row hrow ↦ hspells _ (List.mem_map_of_mem hrow)) hapart hstarts.behindGap hclosing
  have hword : Closes "interface " [.word "interface"] := closes_word rfl (by decide)
  have hhead : Closes ("interface " ++ name ++ " \x7b") _ :=
    (hword.append (spells_word hname)).append_mark rfl
  have hall := hhead _ _ hrows
  rw [interfaceText, text]
  simp only [String.toList_append, List.append_assoc] at hall ⊢
  exact hall

theorem ending_mem_pieces (b : Block) : .endOfFile ∈ b.pieces.map Piece.kind :=
  Row.mem_kinds_pieces (mem_kinds_behindGap (by simp [Piece.ending]))

end Block
end TypeSurface
