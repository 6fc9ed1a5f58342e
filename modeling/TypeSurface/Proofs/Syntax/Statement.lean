import TypeSurface.Proofs.Syntax.Spelling
import TypeSurface.Surface.Printer

/-!
# The pieces of a statement

A statement without its places: its canonical text, the pieces of the text, and the conditions on
which the text is read as these pieces.
-/

namespace TypeSurface

/-! ### Whole lines -/

/-- Whether the first of the pieces may stand on a line of its own. -/
def StartsLine (ps : List Piece) : Prop := ∀ p ∈ ps.head?, p.isJoined = false

theorem StartsLine.append {ps qs : List Piece} (hps : StartsLine ps) (hqs : StartsLine qs) :
    StartsLine (ps ++ qs) := by
  cases ps with
  | nil => exact hqs
  | cons p ps => exact hps

/-- Whether a text of whole lines is read as the pieces. -/
structure Lines (text : String) (ps : List Piece) : Prop where
  starts : StartsLine ps
  lexes : ∀ rest qs, StartsLine qs → Lexes rest qs → Lexes (text.toList ++ rest) (ps ++ qs)

theorem lexes_lineBreak_of_starts {cs : List Char} {ps : List Piece} (hps : StartsLine ps)
    (h : Lexes cs ps) : Lexes ('\n' :: cs) ps := by
  cases ps with
  | nil => trivial
  | cons p ps => exact lexes_lineBreak (hps p rfl) h

section Lines

variable {a b text : String} {ps qs : List Piece}

theorem lines_empty : Lines "" [] := ⟨nofun, fun _ _ _ h ↦ h⟩

theorem Lines.append (ha : Lines a ps) (hb : Lines b qs) : Lines (a ++ b) (ps ++ qs) := by
  refine ⟨ha.starts.append hb.starts, fun rest rs hrs h ↦ ?_⟩
  rw [String.toList_append, List.append_assoc, List.append_assoc]
  exact ha.lexes _ _ (hb.starts.append hrs) (hb.lexes _ _ hrs h)

/-- A text that ends with a line break. -/
theorem Closes.line (ha : Closes a ps) (hps : StartsLine ps) : Lines (lineOf a) ps := by
  refine ⟨hps, fun rest qs hqs h ↦ ?_⟩
  rw [lineOf, String.toList_append, List.append_assoc]
  exact ha _ _ (lexes_lineBreak_of_starts hqs h)

theorem Lines.line (ha : Lines a ps) : Lines (lineOf a) ps := by
  have hempty : Lines "\n" [] := closes_empty.line nofun
  have hall := ha.append hempty
  rwa [List.append_nil] at hall

theorem lines_join {α : Type} {f : α → String} {g : α → List Piece} {items : List α}
    (h : ∀ a ∈ items, Lines (f a) (g a)) : Lines (String.join (items.map f)) (items.flatMap g) := by
  induction items with
  | nil => exact lines_empty
  | cons a items ih =>
    rw [List.forall_mem_cons] at h
    rw [List.map_cons, String.join_cons, List.flatMap_cons]
    exact h.1.append (ih h.2)

end Lines

/-! ### Forms of statements -/

/-- What a statement says, wherever it stands. -/
inductive StatementForm where
  | interface (name : String) (typeParams : List TypeParam) (heritage : List TypeExpr)
      (members : List MemberForm)
  | typeAlias (name : String) (typeParams : List TypeParam) (type : TypeExpr)
  | var (name : String) (kind : VariableKind) (type : TypeExpr)
  | function (name : String) (signature : Signature)

def Statement.form (s : Statement) : StatementForm :=
  match s.body with
  | .interface typeParams heritage members =>
    .interface s.name typeParams heritage (members.map (·.form))
  | .typeAlias typeParams type => .typeAlias s.name typeParams type
  | .variable kind type => .var s.name kind type
  | .function signature => .function s.name signature

namespace StatementForm

/-- The text of an interface up to its block. -/
def headText (name : String) (typeParams : List TypeParam) (heritage : List TypeExpr) : String :=
  "interface " ++ name ++ Text.angled (typeParams.map TypeParam.text) ++
    (if heritage.isEmpty then ""
      else " extends " ++ Text.commaSeparated (heritage.map TypeExpr.text))

/-- The text of a statement, with the line break and the empty line behind it. -/
def text : StatementForm → String
  | .interface name typeParams heritage [] => lineOf (lineOf (headText name typeParams heritage ++ " \x7b\x7d"))
  | .interface name typeParams heritage members =>
    lineOf (lineOf (headText name typeParams heritage ++ " \x7b") ++
      String.join (members.map fun m ↦ lineOf (Member.indent ++ (m.text ++ ";"))) ++ lineOf "\x7d")
  | .typeAlias name typeParams type =>
    lineOf (lineOf ("type " ++ name ++ Text.angled (typeParams.map TypeParam.text) ++ " = " ++
      type.text ++ ";"))
  | .var name kind type => lineOf ("declare " ++ kind.text ++ " " ++ name ++ ": " ++ type.text ++ ";")
  | .function name signature => lineOf ("declare function " ++ name ++ signature.text ++ ";")

def heritagePieces (heritage : List TypeExpr) : List Piece :=
  if heritage.isEmpty then []
  else [.word "extends"] ++ separated (.mark .comma) (heritage.map TypeExpr.pieces)

def headPieces (name : String) (typeParams : List TypeParam) (heritage : List TypeExpr) :
    List Piece :=
  [.word "interface"] ++ [.word name] ++
    angledPieces (.mark .lessThan) (typeParams.map TypeParam.pieces) ++ heritagePieces heritage

def pieces : StatementForm → List Piece
  | .interface name typeParams heritage members =>
    headPieces name typeParams heritage ++ blockPieces members
  | .typeAlias name typeParams type =>
    [.word "type"] ++ [.word name] ++
      angledPieces (.mark .lessThan) (typeParams.map TypeParam.pieces) ++ [.mark .equals] ++
      type.pieces ++ [.mark .semicolon]
  | .var name kind type =>
    [.word "declare"] ++ [.word kind.text] ++ [.word name] ++ [.mark .colon] ++ type.pieces ++
      [.mark .semicolon]
  | .function name signature =>
    [.word "declare"] ++ [.word "function"] ++ [.word name] ++ signature.pieces (.mark .colon) ++
      [.mark .semicolon]

/-- The types that a statement is directly made of. -/
def types : StatementForm → List TypeExpr
  | .interface _ typeParams heritage members =>
    typeParams.flatMap TypeParam.types ++ heritage ++ members.flatMap MemberForm.types
  | .typeAlias _ typeParams type => typeParams.flatMap TypeParam.types ++ [type]
  | .var _ _ type => [type]
  | .function _ signature => signature.types

/-- The types of a statement that stand in no other type of it.  An extended reference is no type of
its own here, its arguments are. -/
def outermost : StatementForm → List TypeExpr
  | .interface _ typeParams heritage members =>
    typeParams.flatMap TypeParam.types ++ heritage.flatMap TypeExpr.children ++
      members.flatMap MemberForm.types
  | .typeAlias _ typeParams type => typeParams.flatMap TypeParam.types ++ [type]
  | .var _ _ type => [type]
  | .function _ signature => signature.types

/-- The results of the signatures that a statement is directly made of. -/
def results : StatementForm → List TypeExpr
  | .interface _ _ _ members => members.flatMap MemberForm.results
  | .typeAlias .. | .var .. => []
  | .function _ signature => [signature.result]

theorem all_outermost {f : StatementForm} {P : TypeExpr → Prop} (h : ∀ t ∈ f.types, t.All P) :
    ∀ t ∈ f.outermost, t.All P := by
  cases f with
  | interface name typeParams heritage members =>
    intro t ht
    simp only [types, outermost, List.mem_append, List.mem_flatMap] at h ht
    rcases ht with (ht | ⟨u, hu, ht⟩) | ht
    · exact h t (Or.inl (Or.inl ht))
    · exact (h u (Or.inl (Or.inr hu))).child ht
    · exact h t (Or.inr ht)
  | _ => exact h

theorem mem_types_of_mem_results {f : StatementForm} {t : TypeExpr} (h : t ∈ f.results) :
    t ∈ f.types := by
  cases f with
  | interface name typeParams heritage members =>
    obtain ⟨m, hm, ht⟩ := List.mem_flatMap.1 h
    exact List.mem_append_right _
      (List.mem_flatMap.2 ⟨m, hm, MemberForm.mem_types_of_mem_results ht⟩)
  | function name signature => exact List.mem_append_right _ h
  | _ => cases h

/-- Whether the names are such as a reader finds, only results of signatures are predicates, and an
interface extends references. -/
def isWritten : StatementForm → Bool
  | .interface name typeParams heritage members =>
    Lexeme.isWord name.toList && typeParams.all TypeParam.isWritten &&
      heritage.all TypeExpr.isReference && members.all MemberForm.isWritten
  | .typeAlias name typeParams type =>
    Lexeme.isWord name.toList && typeParams.all TypeParam.isWritten && type.isProper
  | .var name _ type => Lexeme.isWord name.toList && type.isProper
  | .function name signature => Lexeme.isWord name.toList && signature.isWritten

def members : StatementForm → List MemberForm
  | .interface _ _ _ members => members
  | _ => []

/-- Whether the text of the statement is read as its pieces. -/
structure IsSpelt (f : StatementForm) : Prop where
  written : f.isWritten = true
  shown : f.members.all MemberForm.isShown = true
  types : ∀ t ∈ f.types, t.IsSpelt

section Spelling

variable {name : String} {typeParams : List TypeParam} {heritage : List TypeExpr}

theorem spells_typeParams (hwritten : typeParams.all TypeParam.isWritten = true)
    (htypes : ∀ t ∈ typeParams.flatMap TypeParam.types, t.IsSpelt) :
    Spells (Text.angled (typeParams.map TypeParam.text))
      (angledPieces (.mark .lessThan) (typeParams.map TypeParam.pieces)) := by
  rw [List.all_eq_true] at hwritten
  refine spells_angled (closes_mark rfl) fun p hp ↦ spells_typeParam (hwritten p hp) fun t ht ↦ ?_
  exact (htypes t (List.mem_flatMap.2 ⟨p, hp, ht⟩)).spells

theorem spells_heritage (h : ∀ t ∈ heritage, t.IsSpelt) :
    Spells (if heritage.isEmpty then ""
        else " extends " ++ Text.commaSeparated (heritage.map TypeExpr.text))
      (heritagePieces heritage) := by
  unfold heritagePieces
  cases heritage with
  | nil => exact spells_empty
  | cons t heritage =>
    have hword : Closes " extends " [.word "extends"] :=
      (closes_word (rfl : "extends ".toList = "extends".toList ++ [' ']) (by decide)).blank rfl
    exact hword.append (spells_commaSeparated fun u hu ↦ (h u hu).spells)

theorem keepsApart_heritage : KeepsApart (if heritage.isEmpty then ""
    else " extends " ++ Text.commaSeparated (heritage.map TypeExpr.text)) := by
  cases heritage with
  | nil => exact keepsApart_empty
  | cons t heritage => exact ((opens_blank rfl).append _).keepsApart

theorem spells_head (hname : Lexeme.isWord name.toList = true)
    (htypeParams : Spells (Text.angled (typeParams.map TypeParam.text))
      (angledPieces (.mark .lessThan) (typeParams.map TypeParam.pieces)))
    (hheritage : ∀ t ∈ heritage, t.IsSpelt) :
    Spells (headText name typeParams heritage) (headPieces name typeParams heritage) := by
  have hword : Closes "interface " [.word "interface"] := closes_word rfl (by decide)
  exact ((hword.append (spells_word hname)).append htypeParams keepsApart_angled).append
    (spells_heritage hheritage) keepsApart_heritage

theorem startsLine_signature (signature : Signature) (separator : Piece) :
    StartsLine (signature.pieces separator) := by
  obtain ⟨typeParams, params, result⟩ := signature
  rw [Signature.pieces]
  cases typeParams with
  | nil => simp [StartsLine, angledPieces, Piece.mark]
  | cons p typeParams => simp [StartsLine, angledPieces, Piece.mark]

theorem startsLine_propertyName (name : PropertyName) (ps : List Piece) :
    StartsLine (name.pieces ++ ps) := by
  cases name <;> simp [StartsLine, PropertyName.pieces, Piece.word, Piece.string, Piece.number,
    Piece.mark]

theorem startsLine_memberForm (m : MemberForm) : StartsLine m.pieces := by
  rw [MemberForm.pieces.eq_def]
  cases m with
  | property name isReadonly isOptional type =>
    cases isReadonly with
    | true => simp [StartsLine, optionally, Piece.word]
    | false =>
      simp only [List.append_assoc, optionally, Bool.false_eq_true, if_false, List.nil_append]
      exact startsLine_propertyName name _
  | method name isOptional signature =>
    simp only [List.append_assoc]
    exact startsLine_propertyName name _
  | index isReadonly keyName keyType type =>
    cases isReadonly <;> simp [StartsLine, optionally, Piece.word, Piece.mark]
  | call signature => exact startsLine_signature signature _
  | construct signature => simp [StartsLine, Piece.word]

/-- A member on a line of its own. -/
theorem lines_member {m : MemberForm} (hwritten : m.isWritten = true) (hshown : m.isShown = true)
    (htypes : ∀ t ∈ m.types, t.IsSpelt) :
    Lines (lineOf (Member.indent ++ (m.text ++ ";"))) (m.pieces ++ [.mark .semicolon]) := by
  have hmember := spells_memberForm hwritten hshown fun t ht ↦ (htypes t ht).spells
  have hline : Closes (m.text ++ ";") (m.pieces ++ [.mark .semicolon]) := hmember.append_mark rfl
  have hindent : Closes Member.indent [] :=
    closes_marks (rfl : marks? Member.indent.toList = some [])
  have hstarts : StartsLine (m.pieces ++ [.mark .semicolon]) := by
    refine (startsLine_memberForm m).append ?_
    simp [StartsLine, Piece.mark]
  have hall := hindent.append_closes hline
  rw [List.nil_append] at hall
  exact hall.line hstarts

theorem lines_interface {members : List MemberForm}
    (h : (StatementForm.interface name typeParams heritage members).IsSpelt) :
    Lines (StatementForm.interface name typeParams heritage members).text
      (StatementForm.interface name typeParams heritage members).pieces := by
  obtain ⟨hwritten, hshown, htypes⟩ := h
  simp only [isWritten, types, StatementForm.members, Bool.and_eq_true, List.all_eq_true,
    List.mem_append] at hwritten hshown htypes
  obtain ⟨⟨⟨hname, htypeParams⟩, -⟩, hmembers⟩ := hwritten
  have hhead : Spells (headText name typeParams heritage) (headPieces name typeParams heritage) :=
    spells_head hname (spells_typeParams (List.all_eq_true.2 htypeParams) fun t ht ↦
      htypes t (Or.inl (Or.inl ht))) fun t ht ↦ htypes t (Or.inl (Or.inr ht))
  have hstarts : StartsLine (headPieces name typeParams heritage ++ [.mark .openBrace]) := by
    simp [StartsLine, headPieces, Piece.word]
  rw [pieces, blockPieces]
  cases members with
  | nil =>
    have hbraces : Closes " \x7b\x7d" [.mark .openBrace, .mark .closeBrace] :=
      closes_marks (rfl : marks? " \x7b\x7d".toList = some [.openBrace, .closeBrace])
    have hopens := opens_marks (rfl : marks? " \x7b\x7d".toList = some [.openBrace, .closeBrace])
    exact ((hhead.append_closes hbraces hopens).line (by
      simp [StartsLine, headPieces, Piece.word])).line
  | cons m members =>
    have hopening : Closes (headText name typeParams heritage ++ " \x7b")
        (headPieces name typeParams heritage ++ [.mark .openBrace]) := hhead.append_mark rfl
    have hbody := lines_join fun u hu ↦ lines_member (hmembers u hu) (hshown u hu) fun t ht ↦
      htypes t (Or.inr (List.mem_flatMap.2 ⟨u, hu, ht⟩))
    have hclosing : Lines (lineOf "\x7d") [.mark .closeBrace] :=
      (closes_mark rfl).line (by simp [StartsLine, Piece.mark])
    have hall := (((hopening.line hstarts).append hbody).append hclosing).line
    simpa only [text, List.append_assoc, List.flatMap] using hall

theorem closes_typeAlias {type : TypeExpr}
    (h : (StatementForm.typeAlias name typeParams type).IsSpelt) :
    Closes ("type " ++ name ++ Text.angled (typeParams.map TypeParam.text) ++ " = " ++ type.text ++ ";")
      (StatementForm.typeAlias name typeParams type).pieces := by
  obtain ⟨hwritten, -, htypes⟩ := h
  simp only [isWritten, StatementForm.types, Bool.and_eq_true, List.mem_append,
    List.mem_singleton] at hwritten htypes
  obtain ⟨⟨hname, htypeParams⟩, -⟩ := hwritten
  have hword : Closes "type " [.word "type"] := closes_word rfl (by decide)
  have hhead := (hword.append (spells_word hname)).append
    (spells_typeParams htypeParams fun t ht ↦ htypes t (Or.inl ht)) keepsApart_angled
  have hfront := hhead.append_closes closes_equals (opens_blank rfl)
  exact (hfront.append (htypes type (Or.inr rfl)).spells).append_mark rfl

theorem IsSpelt.lines {f : StatementForm} (h : f.IsSpelt) : Lines f.text f.pieces := by
  cases f with
  | interface name typeParams heritage members => exact lines_interface h
  | typeAlias name typeParams type =>
    exact ((closes_typeAlias h).line (by simp [StartsLine, StatementForm.pieces, Piece.word])).line
  | var name kind type =>
    obtain ⟨hwritten, -, htypes⟩ := h
    simp only [isWritten, StatementForm.types, Bool.and_eq_true, List.mem_singleton]
      at hwritten htypes
    have hword : Closes "declare " [.word "declare"] := closes_word rfl (by decide)
    have hkind : Spells kind.text [.word kind.text] := by
      cases kind <;> exact spells_word (by decide)
    have hblank : Closes " " [] := closes_marks (rfl : marks? " ".toList = some [])
    have hfront := ((hword.append hkind).append_closes hblank (opens_blank rfl)).append
      (spells_word hwritten.1)
    have hall := ((hfront.append_mark (b := ": ") rfl).append (htypes type rfl).spells).append_mark
      (b := ";") rfl
    rw [List.append_nil] at hall
    exact hall.line (by simp [StartsLine, Piece.word])
  | function name signature =>
    obtain ⟨hwritten, -, htypes⟩ := h
    simp only [isWritten, StatementForm.types, Bool.and_eq_true] at hwritten htypes
    have hdeclare : Closes "declare " [.word "declare"] := closes_word rfl (by decide)
    have hfunction : Closes "function " [.word "function"] := closes_word rfl (by decide)
    have hword := hdeclare.append_closes hfunction
    rw [show "declare " ++ "function " = "declare function " by decide] at hword
    have hsignature := spells_signature (closes_mark (rfl : marks? ": ".toList = some [.colon]))
      hwritten.2 fun t ht ↦ (htypes t ht).spells
    have hall := ((hword.append (spells_word hwritten.1)).append hsignature
      (opens_signature signature ": ").keepsApart).append_mark (b := ";") rfl
    exact hall.line (by simp [StartsLine, Piece.word])

end Spelling

end StatementForm
end TypeSurface
