import TypeSurface.Proofs.Syntax.Lexeme
import TypeSurface.Syntax.Scanner

/-!
# Pieces

A piece is what a printer writes for one token: its kind, its value, and whether it has to stand on
the line of the piece before or below it.  `Lexes` says which pieces a text starts with, `Spells` that
a printed text is read as its pieces wherever it stands.
-/

namespace TypeSurface

namespace Trivia

theorem readAll_of_read_eq_none {cs : List Char} (h : read cs = none) : readAll cs = ([], cs) := by
  rw [readAll]
  split
  · rfl
  · next found =>
    rw [h] at found
    cases found

theorem readAll_of_read_eq_some {cs rest : List Char} {t : Trivia} (h : read cs = some (t, rest)) :
    readAll cs = (t :: (readAll rest).1, (readAll rest).2) := by
  rw [readAll]
  split
  · next found =>
    rw [h] at found
    cases found
  · next found =>
    rw [h] at found
    cases found
    rfl

theorem length_readAll_le (cs : List Char) : (readAll cs).2.length ≤ cs.length := by
  have hsplit := congrArg List.length (flatMap_text_append_readAll cs)
  rw [List.length_append] at hsplit
  omega

/-- Without a slash at its head a text starts with a blank or with no trivia. -/
theorem read_cons {c : Char} {cs : List Char} (hslash : c ≠ '/') :
    read (c :: cs) = if isBlank c then some (.blank c, cs) else none := by
  unfold read
  split
  · next heq => cases heq
  · next heq => exact absurd (List.cons.inj heq).1 hslash
  · next heq => exact absurd (List.cons.inj heq).1 hslash
  · next heq => exact absurd (List.cons.inj heq).1 hslash
  · next heq =>
    obtain ⟨rfl, rfl⟩ := List.cons.inj heq
    rfl

theorem read_eq_none {c : Char} {cs : List Char} (hslash : c ≠ '/') (hblank : isBlank c = false) :
    read (c :: cs) = none := by
  rw [read_cons hslash, hblank]
  rfl

theorem read_blank {c : Char} {cs : List Char} (hblank : isBlank c = true) :
    read (c :: cs) = some (.blank c, cs) := by
  have hslash : c ≠ '/' := by
    rintro rfl
    exact absurd hblank (by decide)
  rw [read_cons hslash, if_pos hblank]

end Trivia

structure Piece where
  kind : TokenKind
  value : String
  /-- Whether no line break may stand in front. -/
  isJoined : Bool
  /-- Whether a line break stands in front. -/
  isBroken : Bool
deriving DecidableEq

namespace Piece

def word (text : String) : Piece := ⟨.identifier, text, false, false⟩

def string (text : String) : Piece := ⟨.stringLiteral, text, false, false⟩

def number (text : String) : Piece := ⟨.numericLiteral, text, false, false⟩

/-- Punctuation. -/
def mark (kind : TokenKind) : Piece := ⟨kind, "", false, false⟩

def joined (p : Piece) : Piece := { p with isJoined := true }

def broken (p : Piece) : Piece := { p with isBroken := true }

/-- The end of a file. -/
def ending : Piece := ⟨.endOfFile, "", false, false⟩

/-- Whether the token is the piece. -/
structure Matches (p : Piece) (t : Token) : Prop where
  kind : t.kind = p.kind
  value : t.value = p.value
  afterLineBreak : p.isJoined = true → t.afterLineBreak = false
  broken : p.isBroken = true → t.afterLineBreak = true

/-- Whether the piece, with nothing but blanks in front of it, stands in a text in front of
`rest`. -/
structure Heads (p : Piece) (cs rest : List Char) : Prop where
  kind : p.kind ≠ .directive
  blanks : ∀ t ∈ (Trivia.readAll cs).1, ∃ c, t = .blank c
  lineBreak : p.isJoined = true → (Trivia.readAll cs).1.any Trivia.hasLineBreak = false
  broken : p.isBroken = true → (Trivia.readAll cs).1.any Trivia.hasLineBreak = true
  lexeme : ∃ text,
    Lexeme.read (Trivia.readAll cs).2 = ⟨p.kind, p.value.toList, text, rest, none⟩

end Piece

/-- Whether a text starts with the pieces. -/
def Lexes : List Char → List Piece → Prop
  | _, [] => True
  | cs, p :: ps => ∃ rest, p.Heads cs rest ∧ Lexes rest ps

namespace Piece

variable {p : Piece} {cs rest : List Char}

theorem heads_of_read {text : List Char} (hkind : p.kind ≠ .directive) (hbroken : p.isBroken = false)
    (htrivia : Trivia.read cs = none)
    (hlexeme : Lexeme.read cs = ⟨p.kind, p.value.toList, text, rest, none⟩) : p.Heads cs rest := by
  have hall := Trivia.readAll_of_read_eq_none htrivia
  refine ⟨hkind, ?_, ?_, ?_, text, ?_⟩ <;> rw [hall]
  · simp
  · simp
  · simp [hbroken]
  · exact hlexeme

/-- A blank changes nothing, unless it is a line break in front of a joined piece. -/
theorem heads_blank {c : Char} (hblank : Trivia.isBlank c = true)
    (hbreak : p.isJoined = true → Text.isLineBreak c = false) (h : p.Heads cs rest) :
    p.Heads (c :: cs) rest := by
  have hread : Trivia.read (c :: cs) = some (.blank c, cs) := Trivia.read_blank hblank
  have hall := Trivia.readAll_of_read_eq_some hread
  refine ⟨h.kind, ?_, ?_, ?_, ?_⟩ <;> rw [hall]
  · intro t ht
    rcases List.mem_cons.1 ht with rfl | ht
    · exact ⟨c, rfl⟩
    · exact h.blanks t ht
  · intro hjoined
    rw [List.any_cons, h.lineBreak hjoined, Bool.or_false]
    exact hbreak hjoined
  · intro hbroken
    rw [List.any_cons, h.broken hbroken, Bool.or_true]
  · exact h.lexeme

/-- Behind a line break a piece is broken. -/
theorem heads_broken {c : Char} (hbreak : Text.isLineBreak c = true) (hp : p.isJoined = false)
    (h : p.Heads cs rest) : p.broken.Heads (c :: cs) rest := by
  have hblank : Trivia.isBlank c = true := by simp [Trivia.isBlank, hbreak]
  have hread : Trivia.read (c :: cs) = some (.blank c, cs) := Trivia.read_blank hblank
  have hall := Trivia.readAll_of_read_eq_some hread
  have hhead : p.Heads (c :: cs) rest :=
    heads_blank hblank (fun hjoined ↦ by rw [hp] at hjoined; cases hjoined) h
  refine ⟨hhead.kind, hhead.blanks, hhead.lineBreak, fun _ ↦ ?_, hhead.lexeme⟩
  rw [hall, List.any_cons, Bool.or_eq_true]
  exact Or.inl hbreak

theorem Matches.of_broken {t : Token} (h : p.broken.Matches t) : p.Matches t :=
  ⟨h.kind, h.value, h.afterLineBreak, fun _ ↦ h.broken rfl⟩

end Piece

namespace Scanner

variable {s : Scanner} {p : Piece} {rest : List Char}

theorem scan_of_heads (h : p.Heads s.ahead rest) :
    p.Matches s.scan.token ∧ s.scan.ahead = rest ∧ s.scan.problems = s.problems := by
  obtain ⟨text, hlexeme⟩ := h.lexeme
  have htrivia : triviaProblems s.file
      (s.token.span.stop + Text.byteLength ((Trivia.readAll s.ahead).1.flatMap Trivia.text))
      (Trivia.readAll s.ahead).1 = [] := by
    unfold triviaProblems
    split
    · next body hlast =>
      obtain ⟨c, hc⟩ := h.blanks _ (List.mem_of_getLast? hlast)
      cases hc
    · rfl
  unfold scan
  dsimp only
  rw [hlexeme, htrivia]
  exact ⟨⟨rfl, String.ofList_toList, h.lineBreak, h.broken⟩, rfl, by simp [lexemeProblems]⟩

/-- A token takes something of the text ahead, or there is nothing behind it. -/
theorem remaining_scan_le_length (s : Scanner) : s.scan.remaining ≤ s.ahead.length := by
  have hle := Trivia.length_readAll_le s.ahead
  have hfront := Lexeme.isFront_read (Trivia.readAll s.ahead).2
  have hahead : s.scan.ahead = (Lexeme.read (Trivia.readAll s.ahead).2).rest := rfl
  have hkind : s.scan.token.kind = (Lexeme.read (Trivia.readAll s.ahead).2).kind := rfl
  unfold remaining
  rw [hahead, hkind]
  by_cases hnil : (Trivia.readAll s.ahead).2 = []
  · rw [hnil]
    simp [Lexeme.read]
  · have hlt := hfront.shorter hnil
    split <;> omega

/-- Every token but the last leaves less to read. -/
theorem remaining_scan_lt (h : s.token.kind ≠ .endOfFile) : s.scan.remaining < s.remaining := by
  rw [remaining.eq_def s, if_neg h]
  exact Nat.lt_succ_of_le s.remaining_scan_le_length

end Scanner
/-! ### Printed texts -/

theorem lexes_cons_blank {c : Char} {cs : List Char} {ps : List Piece}
    (hblank : Trivia.isBlank c = true) (hbreak : Text.isLineBreak c = false) (h : Lexes cs ps) :
    Lexes (c :: cs) ps :=
  match ps, h with
  | [], _ => trivial
  | _ :: _, ⟨rest, hhead, htail⟩ =>
    ⟨rest, Piece.heads_blank hblank (fun _ ↦ hbreak) hhead, htail⟩

theorem lexes_blank {cs : List Char} {ps : List Piece} (h : Lexes cs ps) : Lexes (' ' :: cs) ps :=
  lexes_cons_blank (by decide) (by decide) h

/-- A line break may stand in front of a piece that is not joined to the one before. -/
theorem lexes_lineBreak {cs : List Char} {p : Piece} {ps : List Piece} (hp : p.isJoined = false)
    (h : Lexes cs (p :: ps)) : Lexes ('\n' :: cs) (p :: ps) := by
  obtain ⟨rest, hhead, htail⟩ := h
  refine ⟨rest, Piece.heads_blank (by decide) (fun hjoined ↦ ?_) hhead, htail⟩
  rw [hp] at hjoined
  cases hjoined

/-- Whether a text in front of others that stand apart is read as the pieces. -/
def Spells (text : String) (ps : List Piece) : Prop :=
  ∀ rest qs, Text.IsApart rest → Lexes rest qs → Lexes (text.toList ++ rest) (ps ++ qs)

/-- Whether a text in front of any other is read as the pieces. -/
def Closes (text : String) (ps : List Piece) : Prop :=
  ∀ rest qs, Lexes rest qs → Lexes (text.toList ++ rest) (ps ++ qs)

/-- Whether the text stands apart from what is in front of it. -/
def Opens (text : String) : Prop := ∀ rest, Text.IsApart (text.toList ++ rest)

/-- Whether the text stands apart from what is in front of it, or is empty. -/
def KeepsApart (text : String) : Prop :=
  ∀ rest, Text.IsApart rest → Text.IsApart (text.toList ++ rest)

section Texts

variable {a b text : String} {ps qs : List Piece}

theorem Closes.spells (h : Closes a ps) : Spells a ps := fun rest qs _ ↦ h rest qs

theorem Opens.keepsApart (h : Opens a) : KeepsApart a := fun rest _ ↦ h rest

theorem Opens.append (h : Opens a) (b : String) : Opens (a ++ b) := by
  intro rest
  rw [String.toList_append, List.append_assoc]
  exact h _

theorem Spells.append (ha : Spells a ps) (hb : Spells b qs) (hapart : KeepsApart b) :
    Spells (a ++ b) (ps ++ qs) := by
  intro rest rs hrest h
  rw [String.toList_append, List.append_assoc, List.append_assoc]
  exact ha _ _ (hapart _ hrest) (hb _ _ hrest h)

theorem Spells.append_closes (ha : Spells a ps) (hb : Closes b qs) (hopens : Opens b) :
    Closes (a ++ b) (ps ++ qs) := by
  intro rest rs h
  rw [String.toList_append, List.append_assoc, List.append_assoc]
  exact ha _ _ (hopens _) (hb _ _ h)

theorem Closes.append (ha : Closes a ps) (hb : Spells b qs) : Spells (a ++ b) (ps ++ qs) := by
  intro rest rs hrest h
  rw [String.toList_append, List.append_assoc, List.append_assoc]
  exact ha _ _ (hb _ _ hrest h)

theorem Closes.append_closes (ha : Closes a ps) (hb : Closes b qs) :
    Closes (a ++ b) (ps ++ qs) := by
  intro rest rs h
  rw [String.toList_append, List.append_assoc, List.append_assoc]
  exact ha _ _ (hb _ _ h)

theorem spells_empty : Spells "" [] := fun _ _ _ h ↦ h

theorem closes_empty : Closes "" [] := fun _ _ h ↦ h

theorem keepsApart_empty : KeepsApart "" := fun _ h ↦ h

theorem opens_of_toList {c : Char} {cs : List Char} (htext : text.toList = c :: cs)
    (hpart : CharClass.isIdentifierPart c = false) (hdot : c ≠ '.') : Opens text := by
  intro rest
  rw [htext]
  exact Text.isApart_cons hpart hdot

end Texts

/-! ### Punctuation -/

/-- The kind of a punctuation character that means the same whatever stands behind it. -/
def mark? (c : Char) : Option TokenKind :=
  if c = '.' ∨ c = '=' then none else TokenKind.ofPunctuation? c

/-- The kinds of such characters with blanks between them. -/
def marks? : List Char → Option (List TokenKind)
  | [] => some []
  | c :: cs =>
    if c = ' ' then marks? cs
    else
      match mark? c, marks? cs with
      | some kind, some kinds => some (kind :: kinds)
      | _, _ => none

theorem mark?_cases {c : Char} {kind : TokenKind} (h : mark? c = some kind) :
    kind ≠ .directive ∧ Trivia.isBlank c = false ∧ c ≠ '/' ∧ c ≠ '.' ∧ c ≠ '=' ∧
      ¬(c = '\x22' ∨ c = '\x27') ∧ CharClass.isIdentifierPart c = false := by
  unfold mark? at h
  split at h
  · cases h
  next hno =>
    unfold TokenKind.ofPunctuation? at h
    split at h <;> cases h <;> first | decide | simp at hno

theorem heads_mark {c : Char} {kind : TokenKind} (h : mark? c = some kind) (rest : List Char) :
    (Piece.mark kind).Heads (c :: rest) rest := by
  obtain ⟨hkind, hblank, hslash, hdot, hequals, hquote, hpart⟩ := mark?_cases h
  have hdigit : c.isDigit = false :=
    Bool.eq_false_iff.2 fun hc ↦ by simp [CharClass.isIdentifierPart_of_isDigit hc] at hpart
  have hstart : CharClass.isIdentifierStart c = false :=
    Bool.eq_false_iff.2 fun hc ↦ by simp [CharClass.isIdentifierPart_of_start hc] at hpart
  have hnumber : Lexeme.startsNumber (c :: rest) = false := by
    simp [Lexeme.startsNumber, hdigit, hdot]
  have hsymbol : TokenKind.ofPunctuation? c = some kind := by
    unfold mark? at h
    rwa [if_neg (by simp [hdot, hequals])] at h
  have hlexeme : Lexeme.read (c :: rest) = ⟨kind, [], [c], rest, none⟩ := by
    rw [Lexeme.read_cons hslash (fun h ↦ absurd h hdot) hequals, if_neg hquote,
      if_neg (by simp [hnumber]), if_neg (by simp [hstart]), Lexeme.ofSymbol, hsymbol]
  exact Piece.heads_of_read hkind rfl (Trivia.read_eq_none hslash hblank) hlexeme

/-- Marks and blanks are read as the marks. -/
theorem closes_marks {text : String} {kinds : List TokenKind} (h : marks? text.toList = some kinds) :
    Closes text (kinds.map Piece.mark) := by
  intro rest qs hrest
  generalize text.toList = cs at h
  induction cs generalizing kinds with
  | nil =>
    cases h
    exact hrest
  | cons c cs ih =>
    rw [marks?] at h
    split at h
    · next hblank =>
      rw [hblank, List.cons_append]
      exact lexes_blank (ih h)
    · split at h
      · next kind kinds hmark hmarks =>
        cases h
        exact ⟨cs ++ rest, heads_mark hmark _, ih hmarks⟩
      · cases h

theorem opens_marks {text : String} {kind : TokenKind} {kinds : List TokenKind}
    (h : marks? text.toList = some (kind :: kinds)) : Opens text := by
  intro rest
  cases htext : text.toList with
  | nil =>
    rw [htext] at h
    cases h
  | cons c cs =>
    rw [htext, marks?] at h
    split at h
    · next hblank =>
      subst hblank
      exact Text.isApart_cons (by decide) (by decide)
    · split at h
      · next found _ hmark _ =>
        obtain ⟨-, -, -, hdot, -, -, hpart⟩ := mark?_cases hmark
        exact Text.isApart_cons hpart hdot
      · cases h

section Texts

variable {a b text : String} {p : Piece} {ps qs : List Piece} {kind : TokenKind}

theorem closes_mark (h : marks? text.toList = some [kind]) : Closes text [.mark kind] :=
  closes_marks h

theorem Spells.append_mark (ha : Spells a ps) (h : marks? b.toList = some [kind]) :
    Closes (a ++ b) (ps ++ [.mark kind]) :=
  ha.append_closes (closes_mark h) (opens_marks h)

theorem Closes.append_mark (ha : Closes a ps) (h : marks? b.toList = some [kind]) :
    Closes (a ++ b) (ps ++ [.mark kind]) :=
  ha.append_closes (closes_mark h)

/-- The first piece of a text that starts with no trivia stands on the line of the piece before. -/
theorem Closes.joined {c : Char} {cs : List Char} (htext : text.toList = c :: cs)
    (hslash : c ≠ '/') (hblank : Trivia.isBlank c = false) (h : Closes text (p :: ps)) :
    Closes text (p.joined :: ps) := by
  intro rest qs hrest
  obtain ⟨behind, hhead, htail⟩ := h rest qs hrest
  refine ⟨behind, ⟨hhead.kind, hhead.blanks, fun _ ↦ ?_, hhead.broken, hhead.lexeme⟩, htail⟩
  rw [htext, List.cons_append, Trivia.readAll_of_read_eq_none (Trivia.read_eq_none hslash hblank)]
  rfl

theorem Closes.blank (htext : text.toList = ' ' :: a.toList) (h : Closes a ps) :
    Closes text ps := by
  intro rest qs hrest
  rw [htext]
  exact lexes_blank (h rest qs hrest)

/-! ### Other texts -/

theorem lexes_cons {cs rest front : List Char} (hkind : p.kind ≠ .directive)
    (hbroken : p.isBroken = false) (htrivia : Trivia.read cs = none)
    (hlexeme : Lexeme.read cs = ⟨p.kind, p.value.toList, front, rest, none⟩) (h : Lexes rest ps) :
    Lexes cs (p :: ps) :=
  ⟨rest, Piece.heads_of_read hkind hbroken htrivia hlexeme, h⟩

theorem lexes_ending : Lexes [] [.ending] :=
  lexes_cons (by simp [Piece.ending]) rfl rfl rfl trivial

theorem not_isBlank_of_start {c : Char} (h : CharClass.isIdentifierStart c = true) :
    Trivia.isBlank c = false := by
  by_contra hblank
  simp only [Bool.not_eq_false, Trivia.isBlank, Text.isLineBreak, Bool.or_eq_true, beq_iff_eq]
    at hblank
  have hno : ∀ d : Char, CharClass.isIdentifierStart d = false → c ≠ d :=
    fun d ↦ CharClass.ne_of_start h
  rcases hblank with ((((hc | hc) | hc) | hc) | hc | hc) | hc
  · exact hno _ (by decide) hc
  · exact hno _ (by decide) hc
  · exact hno _ (by decide) hc
  · exact hno _ (by decide) hc
  · exact hno _ (by decide) hc
  · exact hno _ (by decide) hc
  · exact hno _ CharClass.not_start_byteOrderMark hc

theorem trivia_read_word {cs : List Char} (rest : List Char) (h : Lexeme.isWord cs = true) :
    Trivia.read (cs ++ rest) = none := by
  cases cs with
  | nil => cases h
  | cons c cs =>
    simp only [Lexeme.isWord, Bool.and_eq_true] at h
    exact Trivia.read_eq_none (CharClass.ne_of_start h.1 (by decide)) (not_isBlank_of_start h.1)

theorem spells_word (h : Lexeme.isWord text.toList = true) : Spells text [.word text] :=
  fun rest _ hrest hqs ↦
    lexes_cons (by simp [Piece.word]) rfl (trivia_read_word rest h)
      (Lexeme.read_word h fun c hc ↦ (hrest c hc).1) hqs

theorem trivia_read_numeral {cs : List Char} (rest : List Char) (h : Lexeme.isNumeral cs = true) :
    Trivia.read (cs ++ rest) = none := by
  cases cs with
  | nil => cases h
  | cons c cs =>
    simp only [Lexeme.isNumeral, Lexeme.startsNumber, Bool.and_eq_true, Bool.or_eq_true,
      beq_iff_eq] at h
    rcases h.1 with hc | ⟨rfl, -⟩
    · have hclass := CharClass.of_ascii
        (P := fun c ↦ c.isDigit = true → c ≠ '/' ∧ Trivia.isBlank c = false) (by decide)
        (CharClass.toNat_lt_of_isDigit hc) hc
      exact Trivia.read_eq_none hclass.1 hclass.2
    · exact Trivia.read_eq_none (by decide) (by decide)

theorem spells_number (h : Lexeme.isNumeral text.toList = true) : Spells text [.number text] :=
  fun rest _ hrest hqs ↦ lexes_cons (by simp [Piece.number]) rfl (trivia_read_numeral rest h)
    (Lexeme.read_numeral h hrest) hqs

theorem closes_quoted (h : ∀ c ∈ text.toList, Lexeme.isShownChar c = true) :
    Closes (Text.quoted text) [.string text] := by
  intro rest qs hqs
  have hquoted : (Text.quoted text).toList =
      '"' :: (text.toList.flatMap Text.quotedChar ++ ['"']) := by
    simp [Text.quoted]
  refine lexes_cons (by simp [Piece.string]) rfl ?_ (Lexeme.read_quoted h) hqs
  rw [hquoted]
  exact Trivia.read_eq_none (by decide) (by decide)

theorem closes_arrow : Closes " => " [.mark .arrow] := by
  intro rest qs hqs
  change Lexes (' ' :: '=' :: '>' :: ' ' :: rest) (.mark .arrow :: qs)
  exact lexes_blank (lexes_cons (by decide) rfl (Trivia.read_eq_none (by decide) (by decide)) rfl
    (lexes_blank hqs))

theorem closes_equals : Closes " = " [.mark .equals] := by
  intro rest qs hqs
  change Lexes (' ' :: '=' :: ' ' :: rest) (.mark .equals :: qs)
  exact lexes_blank (lexes_cons (by decide) rfl (Trivia.read_eq_none (by decide) (by decide)) rfl
    (lexes_blank hqs))

theorem closes_ellipsis : Closes "..." [.mark .ellipsis] := by
  intro rest qs hqs
  change Lexes ('.' :: '.' :: '.' :: rest) (.mark .ellipsis :: qs)
  exact lexes_cons (by decide) rfl (Trivia.read_eq_none (by decide) (by decide)) rfl hqs

theorem closes_word {a : String} (htext : text.toList = a.toList ++ [' '])
    (h : Lexeme.isWord a.toList = true) : Closes text [.word a] := by
  intro rest qs hqs
  rw [htext, List.append_assoc]
  exact spells_word h _ _ (Text.isApart_cons (by decide) (by decide)) (lexes_blank hqs)

/-! ### Lists -/

/-- Lists of pieces with a separator between them. -/
def separated (separator : Piece) : List (List Piece) → List Piece
  | [] => []
  | [ps] => ps
  | ps :: qs :: rest => ps ++ ([separator] ++ separated separator (qs :: rest))

theorem separated_cons (separator : Piece) (ps : List Piece) (pss : List (List Piece)) :
    separated separator (ps :: pss) = ps ++ pss.flatMap (separator :: ·) := by
  induction pss generalizing ps with
  | nil => simp [separated]
  | cons qs pss ih => simp [separated, ih]

/-- A separated list is read item by item. -/
theorem spells_intercalate {α : Type} {separator : String} {p : Piece} {f : α → String}
    {g : α → List Piece} {items : List α} (hseparator : Closes separator [p])
    (hopens : Opens separator) (hitems : ∀ a ∈ items, Spells (f a) (g a)) :
    Spells (separator.intercalate (items.map f)) (separated p (items.map g)) := by
  match items with
  | [] => exact spells_empty
  | [a] => exact hitems a (by simp)
  | a :: b :: items =>
    have htail : Spells (separator.intercalate ((b :: items).map f))
        (separated p ((b :: items).map g)) :=
      spells_intercalate hseparator hopens fun c hc ↦ hitems c (List.mem_cons_of_mem a hc)
    have hfront := (hitems a (by simp)).append_closes hseparator hopens
    have hall := hfront.append htail
    rw [List.append_assoc] at hall
    simpa only [List.map_cons, String.intercalate_cons_cons, separated] using hall

end Texts
end TypeSurface
