import TypeSurface.Proofs.Syntax.Clear

/-!
# The pieces of a type

What the printer writes for a type, piece by piece, and that the printed text of a written type is read
as these pieces if no character of a string is printed by its code point.
-/

namespace TypeSurface

/-- Pieces in parentheses if they are loose. -/
def enclosed (isLoose : Bool) (ps : List Piece) : List Piece :=
  if isLoose then [.mark .openParen] ++ ps ++ [.mark .closeParen] else ps

/-- Pieces that are there if a flag is set. -/
def optionally (flag : Bool) (ps : List Piece) : List Piece := if flag then ps else []

/-- A list between angle brackets, and nothing for an empty list. -/
def angledPieces (opening : Piece) (items : List (List Piece)) : List Piece :=
  if items.isEmpty then []
  else [opening] ++ separated (.mark .comma) items ++ [.mark .greaterThan]

def numberPieces (text : String) : List Piece :=
  match text.toList with
  | '-' :: cs => [.mark .minus, .number (String.ofList cs)]
  | _ => [.number text]

def Literal.pieces : Literal → List Piece
  | .string value => [.string value]
  | .number text => numberPieces text
  | .boolean true => [.word "true"]
  | .boolean false => [.word "false"]

def PropertyName.pieces : PropertyName → List Piece
  | .identifier name => [.word name]
  | .numeric name => [.number name]
  | .string name => [.string name]
  | .computed name =>
    [.mark .openBracket] ++ dotted (Text.segments name) ++ [.mark .closeBracket]

mutual

def TypeExpr.pieces : TypeExpr → List Piece
  | .keyword word => [.word word.text]
  | .reference name args =>
    dotted (Text.segments name) ++
      angledPieces (Piece.mark .lessThan).joined (args.map TypeExpr.pieces)
  | .literal value => value.pieces
  | .array element =>
    enclosed element.isLoosePostfixOperand element.pieces ++
      [(Piece.mark .openBracket).joined, .mark .closeBracket]
  | .tuple elements =>
    [.mark .openBracket] ++ separated (.mark .comma) (elements.map TupleElement.pieces) ++
      [.mark .closeBracket]
  | .union members =>
    separated (.mark .bar) (members.map fun m ↦ enclosed m.isLooseUnionMember m.pieces)
  | .intersection members =>
    separated (.mark .ampersand)
      (members.map fun m ↦ enclosed m.isLooseIntersectionMember m.pieces)
  | .function signature => signature.pieces (.mark .arrow)
  | .construct signature => [.word "new"] ++ signature.pieces (.mark .arrow)
  | .object members =>
    [.mark .openBrace] ++ (members.map fun m ↦ m.pieces ++ [.mark .semicolon]).flatten ++
      [.mark .closeBrace]
  | .keyOf operand => [.word "keyof"] ++ enclosed operand.isLoosePrefixOperand operand.pieces
  | .readonly operand => [.word "readonly"] ++ enclosed operand.isLoosePrefixOperand operand.pieces
  | .predicate parameter type =>
    [.word parameter] ++ [(Piece.word "is").joined] ++ type.pieces
termination_by t => sizeOf t

def TypeParam.pieces : TypeParam → List Piece
  | ⟨name, bound, default⟩ =>
    [.word name] ++ (match bound with | none => [] | some t => [.word "extends"] ++ t.pieces) ++
      (match default with | none => [] | some t => [.mark .equals] ++ t.pieces)
termination_by p => sizeOf p

def Param.pieces : Param → List Piece
  | ⟨name, type, isOptional, isRest⟩ =>
    optionally isRest [.mark .ellipsis] ++ [.word name] ++ optionally isOptional [.mark .question] ++
      [.mark .colon] ++ type.pieces
termination_by p => sizeOf p

/-- The pieces of a signature with one piece between its parameters and its result. -/
def Signature.pieces (separator : Piece) : Signature → List Piece
  | ⟨typeParams, params, result⟩ =>
    angledPieces (.mark .lessThan) (typeParams.map TypeParam.pieces) ++ [.mark .openParen] ++
      separated (.mark .comma) (params.map Param.pieces) ++ [.mark .closeParen] ++ [separator] ++
      result.pieces
termination_by s => sizeOf s

def TupleElement.pieces : TupleElement → List Piece
  | ⟨type, isOptional, isRest⟩ =>
    optionally isRest [.mark .ellipsis] ++
      enclosed (isOptional && type.isLoosePostfixOperand) type.pieces ++
      optionally isOptional [.mark .question]
termination_by e => sizeOf e

def MemberForm.pieces : MemberForm → List Piece
  | .property name isReadonly isOptional type =>
    optionally isReadonly [.word "readonly"] ++ name.pieces ++
      optionally isOptional [.mark .question] ++ [.mark .colon] ++ type.pieces
  | .method name isOptional signature =>
    name.pieces ++ optionally isOptional [.mark .question] ++ signature.pieces (.mark .colon)
  | .index isReadonly keyName keyType type =>
    optionally isReadonly [.word "readonly"] ++ [.mark .openBracket] ++ [.word keyName] ++
      [.mark .colon] ++ keyType.pieces ++ [.mark .closeBracket, .mark .colon] ++ type.pieces
  | .call signature => signature.pieces (.mark .colon)
  | .construct signature => [.word "new"] ++ signature.pieces (.mark .colon)
termination_by m => sizeOf m

end

/-- The pieces of a block of members. -/
def blockPieces (forms : List MemberForm) : List Piece :=
  [.mark .openBrace] ++ (forms.map fun m ↦ m.pieces ++ [.mark .semicolon]).flatten ++
    [.mark .closeBrace]

/-! ### Parts of types -/

theorem opens_blank {text : String} {cs : List Char} (htext : text.toList = ' ' :: cs) : Opens text :=
  opens_of_toList htext (by decide) (by decide)

theorem spells_enclosed {text : String} {ps : List Piece} (isLoose : Bool) (h : Spells text ps) :
    Spells (Text.parenthesized isLoose text) (enclosed isLoose ps) := by
  cases isLoose with
  | false => exact h
  | true => exact (((closes_mark rfl).append h).append_mark rfl).spells

theorem closes_ifSet {text : String} {ps : List Piece} (flag : Bool) (h : Closes text ps) :
    Closes (Text.ifSet flag text) (optionally flag ps) := by
  cases flag with
  | false => exact closes_empty
  | true => exact h

theorem keepsApart_ifSet {text : String} (flag : Bool) (h : KeepsApart text) :
    KeepsApart (Text.ifSet flag text) := by
  cases flag with
  | false => exact keepsApart_empty
  | true => exact h

section Lists

variable {α : Type} {f : α → String} {g : α → List Piece} {items : List α}

theorem spells_commaSeparated (h : ∀ a ∈ items, Spells (f a) (g a)) :
    Spells (Text.commaSeparated (items.map f)) (separated (.mark .comma) (items.map g)) :=
  spells_intercalate (closes_mark rfl) (opens_marks (rfl : marks? ", ".toList = some [.comma])) h

theorem spells_angled {opening : Piece} (hopening : Closes "<" [opening])
    (h : ∀ a ∈ items, Spells (f a) (g a)) :
    Spells (Text.angled (items.map f)) (angledPieces opening (items.map g)) := by
  cases items with
  | nil => exact spells_empty
  | cons a items =>
    exact ((hopening.append (spells_commaSeparated h)).append_mark rfl).spells

theorem keepsApart_angled {items : List String} : KeepsApart (Text.angled items) := by
  cases items with
  | nil => exact keepsApart_empty
  | cons a items =>
    have hopens := opens_marks (rfl : marks? "<".toList = some [.lessThan])
    exact ((hopens.append _).append _).keepsApart

end Lists

theorem spells_propertyName {name : PropertyName} (hwritten : name.isWritten = true)
    (hshown : name.isShown = true) : Spells name.text name.pieces := by
  cases name with
  | identifier name => exact spells_word hwritten
  | numeric name => exact spells_number hwritten
  | string name => exact (closes_quoted (List.all_eq_true.1 hshown)).spells
  | computed name =>
    exact (((closes_mark rfl).append (spells_dottedName hwritten)).append_mark rfl).spells

theorem spells_numberText {text : String} (h : Lexeme.isSignedNumeral text.toList = true) :
    Spells text (numberPieces text) := by
  unfold numberPieces
  cases hchars : text.toList with
  | nil =>
    rw [hchars] at h
    cases h
  | cons c cs =>
    by_cases hc : c = '-'
    · subst hc
      rw [hchars] at h
      have htext : text = "-" ++ String.ofList cs := by
        apply String.toList_inj.1
        simp [hchars]
      have hnumber : Spells (String.ofList cs) [.number (String.ofList cs)] :=
        spells_number (by simpa [Lexeme.isSignedNumeral] using h)
      have hspells : Spells ("-" ++ String.ofList cs) _ :=
        (closes_mark (rfl : marks? "-".toList = some [.minus])).append hnumber
      rw [← htext] at hspells
      exact hspells
    · have hnumeral : Lexeme.isNumeral text.toList = true := by
        rw [hchars] at h ⊢
        unfold Lexeme.isSignedNumeral at h
        split at h
        · next heq => exact absurd (List.cons.inj heq).1 hc
        · exact h
      have hspells := spells_number hnumeral
      split
      · next heq => exact absurd (List.cons.inj heq).1 hc
      · exact hspells

theorem spells_literal {value : Literal} (hwritten : value.isWritten = true)
    (hshown : (TypeExpr.literal value).isShownNode = true) : Spells value.text value.pieces := by
  cases value with
  | string text => exact (closes_quoted (List.all_eq_true.1 hshown)).spells
  | number text => exact spells_numberText hwritten
  | boolean value =>
    cases value with
    | true => exact spells_word (by decide)
    | false => exact spells_word (by decide)

theorem spells_keyword (word : Keyword) : Spells word.text [.word word.text] := by
  cases word <;> exact spells_word (by decide)

/-! ### Types -/

/-- Whether the text of a type is read as its pieces. -/
def TypeExpr.IsSpelt (t : TypeExpr) : Prop :=
  t.All fun u ↦ u.isWrittenNode = true ∧ u.isShownNode = true

theorem TypeExpr.IsReadable.isSpelt {t : TypeExpr} (h : t.IsReadable) : t.IsSpelt :=
  h.imp fun _ hu ↦ ⟨hu.written, hu.clear.shown⟩

theorem spells_typeParam {p : TypeParam} (hp : p.isWritten = true)
    (htypes : ∀ t ∈ p.types, Spells t.text t.pieces) : Spells p.text p.pieces := by
  obtain ⟨name, bound, default⟩ := p
  simp only [TypeParam.isWritten, Bool.and_eq_true] at hp
  have hname : Spells name [.word name] := spells_word hp.1
  have hbound : ∀ b : Option TypeExpr, (∀ t ∈ b, Spells t.text t.pieces) →
      Spells (match b with | none => "" | some t => " extends " ++ t.text)
          (match b with | none => [] | some t => [.word "extends"] ++ t.pieces) ∧
        KeepsApart (match b with | none => "" | some t => " extends " ++ t.text) := by
    rintro (_ | t) ht
    · exact ⟨spells_empty, keepsApart_empty⟩
    · have hword : Closes " extends " [.word "extends"] :=
        (closes_word (rfl : "extends ".toList = "extends".toList ++ [' ']) (by decide)).blank rfl
      exact ⟨hword.append (ht t rfl), ((opens_blank rfl).append t.text).keepsApart⟩
  have hdefault : ∀ d : Option TypeExpr, (∀ t ∈ d, Spells t.text t.pieces) →
      Spells (match d with | none => "" | some t => " = " ++ t.text)
          (match d with | none => [] | some t => [.mark .equals] ++ t.pieces) ∧
        KeepsApart (match d with | none => "" | some t => " = " ++ t.text) := by
    rintro (_ | t) ht
    · exact ⟨spells_empty, keepsApart_empty⟩
    · exact ⟨closes_equals.append (ht t rfl), ((opens_blank rfl).append t.text).keepsApart⟩
  have hb := hbound bound fun t ht ↦ htypes t (by simp [TypeParam.types, Option.mem_def.1 ht])
  have hd := hdefault default fun t ht ↦ htypes t (by simp [TypeParam.types, Option.mem_def.1 ht])
  rw [TypeParam.text.eq_def, TypeParam.pieces.eq_def]
  exact (hname.append hb.1 hb.2).append hd.1 hd.2

theorem spells_param {p : Param} (hp : p.isWritten = true)
    (htype : Spells p.type.text p.type.pieces) : Spells p.text p.pieces := by
  obtain ⟨name, type, isOptional, isRest⟩ := p
  simp only [Param.isWritten, Bool.and_eq_true] at hp
  have hname : Spells name [.word name] := spells_word hp.1
  have hquestion := closes_mark (rfl : marks? "?".toList = some [.question])
  have hopens := opens_marks (rfl : marks? "?".toList = some [.question])
  have hfront := (closes_ifSet isRest closes_ellipsis).append hname
  have hmiddle := hfront.append (closes_ifSet isOptional hquestion).spells
    (keepsApart_ifSet isOptional hopens.keepsApart)
  rw [Param.text, Param.pieces]
  exact (hmiddle.append_mark rfl).append htype

theorem spells_signature {s : Signature} {separator : String} {p : Piece}
    (hseparator : Closes separator [p]) (hs : s.isWritten = true)
    (htypes : ∀ t ∈ s.types, Spells t.text t.pieces) :
    Spells (s.textWith separator) (s.pieces p) := by
  obtain ⟨typeParams, params, result⟩ := s
  simp only [Signature.isWritten, Bool.and_eq_true, List.all_eq_true] at hs
  simp only [Signature.types, List.mem_append, List.mem_flatMap, List.mem_map,
    List.mem_singleton] at htypes
  have htypeParams : Spells (Text.angled (typeParams.map TypeParam.text))
      (angledPieces (.mark .lessThan) (typeParams.map TypeParam.pieces)) :=
    spells_angled (closes_mark rfl) fun q hq ↦
      spells_typeParam (hs.1.1 q hq) fun t ht ↦ htypes t (Or.inl (Or.inl ⟨q, hq, ht⟩))
  have hparams : Spells (Text.commaSeparated (params.map Param.text))
      (separated (.mark .comma) (params.map Param.pieces)) :=
    spells_commaSeparated fun q hq ↦
      spells_param (hs.1.2 q hq) (htypes _ (Or.inl (Or.inr ⟨q, hq, rfl⟩)))
  have hhead := ((htypeParams.append_mark (b := "(") rfl).append hparams).append_mark (b := ")") rfl
  rw [Signature.textWith, Signature.pieces]
  exact (hhead.append_closes hseparator).append (htypes result (Or.inr rfl))

theorem spells_tupleElement {e : TupleElement} (htype : Spells e.type.text e.type.pieces) :
    Spells e.text e.pieces := by
  obtain ⟨type, isOptional, isRest⟩ := e
  have hquestion := closes_mark (rfl : marks? "?".toList = some [.question])
  have hopens := opens_marks (rfl : marks? "?".toList = some [.question])
  have hfront := (closes_ifSet isRest closes_ellipsis).append
    (spells_enclosed (isOptional && type.isLoosePostfixOperand) htype)
  rw [TupleElement.text, TupleElement.pieces]
  exact hfront.append (closes_ifSet isOptional hquestion).spells
    (keepsApart_ifSet isOptional hopens.keepsApart)

theorem closes_readonly (isReadonly : Bool) :
    Closes (Text.ifSet isReadonly "readonly ") (optionally isReadonly [.word "readonly"]) :=
  closes_ifSet isReadonly (closes_word rfl (by decide))

/-- A mark behind a name. -/
theorem Spells.append_optional {text : String} {ps : List Piece} (isOptional : Bool)
    (h : Spells text ps) :
    Spells (text ++ Text.ifSet isOptional "?") (ps ++ optionally isOptional [.mark .question]) := by
  have hopens := opens_marks (rfl : marks? "?".toList = some [.question])
  exact h.append (closes_ifSet isOptional (closes_mark rfl)).spells
    (keepsApart_ifSet isOptional hopens.keepsApart)

theorem opens_signature (s : Signature) (separator : String) : Opens (s.textWith separator) := by
  obtain ⟨typeParams, params, result⟩ := s
  have hparen := opens_marks (rfl : marks? "(".toList = some [.openParen])
  have hhead : Opens (Text.angled (typeParams.map TypeParam.text) ++ "(") := by
    intro rest
    rw [String.toList_append, List.append_assoc]
    exact keepsApart_angled _ (hparen rest)
  rw [Signature.textWith]
  exact (((hhead.append _).append _).append _).append _

theorem spells_memberForm {m : MemberForm} (hwritten : m.isWritten = true)
    (hshown : m.isShown = true) (htypes : ∀ t ∈ m.types, Spells t.text t.pieces) :
    Spells m.text m.pieces := by
  have hcolon := closes_mark (rfl : marks? ": ".toList = some [.colon])
  cases m with
  | property name isReadonly isOptional type =>
    simp only [MemberForm.isWritten, Bool.and_eq_true] at hwritten
    have hname := (closes_readonly isReadonly).append (spells_propertyName hwritten.1 hshown)
    rw [MemberForm.text, MemberForm.pieces]
    exact ((hname.append_optional isOptional).append_mark rfl).append
      (htypes type (by simp [MemberForm.types]))
  | method name isOptional signature =>
    simp only [MemberForm.isWritten, Bool.and_eq_true] at hwritten
    have hname := (spells_propertyName hwritten.1 hshown).append_optional isOptional
    rw [MemberForm.text, MemberForm.pieces]
    exact hname.append (spells_signature hcolon hwritten.2 htypes)
      (opens_signature signature ": ").keepsApart
  | index isReadonly keyName keyType type =>
    simp only [MemberForm.isWritten, Bool.and_eq_true] at hwritten
    have hopening := (closes_readonly isReadonly).append_mark (b := "[") rfl
    have hkey := (hopening.append (spells_word hwritten.1.1)).append_mark (b := ": ") rfl
    have hkeyType := hkey.append (htypes keyType (by simp [MemberForm.types]))
    have hclosing : Closes "]: " [.mark .closeBracket, .mark .colon] :=
      closes_marks (rfl : marks? "]: ".toList = some [.closeBracket, .colon])
    have hopens := opens_marks (rfl : marks? "]: ".toList = some [.closeBracket, .colon])
    rw [MemberForm.text, MemberForm.pieces]
    exact (hkeyType.append_closes hclosing hopens).append
      (htypes type (by simp [MemberForm.types]))
  | call signature =>
    rw [MemberForm.text, MemberForm.pieces]
    exact spells_signature hcolon hwritten htypes
  | construct signature =>
    rw [MemberForm.text, MemberForm.pieces]
    exact (closes_word rfl (by decide)).append (spells_signature hcolon hwritten htypes)

theorem closes_members {ms : List MemberForm} (h : ∀ m ∈ ms, Spells m.text m.pieces) :
    Closes (String.join (ms.map fun m ↦ m.text ++ "; "))
      (ms.map fun m ↦ m.pieces ++ [.mark .semicolon]).flatten := by
  induction ms with
  | nil => exact closes_empty
  | cons m ms ih =>
    rw [List.forall_mem_cons] at h
    simp only [List.map_cons, String.join_cons, List.flatten_cons]
    exact (h.1.append_mark rfl).append_closes (ih h.2)

theorem TypeExpr.IsSpelt.spells {t : TypeExpr} (h : t.IsSpelt) : Spells t.text t.pieces := by
  -- The cases follow the printer: what it encloses is joined to the brackets around it.
  induction t using TypeExpr.induction_on_children with
  | h t ih =>
    have hchildren : ∀ u ∈ t.children, Spells u.text u.pieces := fun u hu ↦ ih u hu (h.child hu)
    obtain ⟨hwritten, hshown⟩ := h.self
    cases t with
    | keyword word =>
      rw [TypeExpr.text, TypeExpr.pieces]
      exact spells_keyword word
    | reference name args =>
      simp only [TypeExpr.isWrittenNode, Bool.and_eq_true] at hwritten
      have hopening : Closes "<" [(Piece.mark .lessThan).joined] :=
        (closes_mark rfl).joined rfl (by decide) (by decide)
      rw [TypeExpr.text, TypeExpr.pieces]
      exact (spells_dottedName hwritten.1).append (spells_angled hopening hchildren)
        keepsApart_angled
    | literal value =>
      rw [TypeExpr.text, TypeExpr.pieces]
      exact spells_literal hwritten hshown
    | array element =>
      have hbrackets : Closes "[]" [(Piece.mark .openBracket).joined, .mark .closeBracket] :=
        (closes_marks (rfl : marks? "[]".toList = some [.openBracket, .closeBracket])).joined rfl
          (by decide) (by decide)
      rw [TypeExpr.text, TypeExpr.pieces]
      exact ((spells_enclosed _ (hchildren element (by simp [children]))).append_closes hbrackets
        (opens_marks (rfl : marks? "[]".toList = some [.openBracket, .closeBracket]))).spells
    | tuple elements =>
      have helements : ∀ e ∈ elements, Spells e.text e.pieces := fun e he ↦
        spells_tupleElement (hchildren _ (List.mem_map_of_mem he))
      rw [TypeExpr.text, TypeExpr.pieces]
      exact (((closes_mark rfl).append (spells_commaSeparated helements)).append_mark rfl).spells
    | union members =>
      rw [TypeExpr.text, TypeExpr.pieces]
      exact spells_intercalate (closes_mark rfl)
        (opens_marks (rfl : marks? " | ".toList = some [.bar]))
        fun m hm ↦ spells_enclosed _ (hchildren m hm)
    | intersection members =>
      rw [TypeExpr.text, TypeExpr.pieces]
      exact spells_intercalate (closes_mark rfl)
        (opens_marks (rfl : marks? " & ".toList = some [.ampersand]))
        fun m hm ↦ spells_enclosed _ (hchildren m hm)
    | function signature =>
      rw [TypeExpr.text, TypeExpr.pieces]
      exact spells_signature closes_arrow hwritten hchildren
    | construct signature =>
      rw [TypeExpr.text, TypeExpr.pieces]
      exact (closes_word rfl (by decide)).append
        (spells_signature closes_arrow hwritten hchildren)
    | object members =>
      simp only [TypeExpr.isWrittenNode, TypeExpr.isShownNode, List.all_eq_true]
        at hwritten hshown
      have hmembers : ∀ m ∈ members, Spells m.text m.pieces := fun m hm ↦
        spells_memberForm (hwritten m hm) (hshown m hm) fun u hu ↦
          hchildren u (List.mem_flatMap.2 ⟨m, hm, hu⟩)
      cases members with
      | nil =>
        rw [TypeExpr.text, TypeExpr.pieces]
        exact (closes_marks (rfl : marks? "\x7b\x7d".toList = some [.openBrace, .closeBrace])).spells
      | cons m ms =>
        rw [List.forall_mem_cons] at hmembers
        have hopening : Closes "\x7b " [.mark .openBrace] := closes_mark rfl
        have hfirst := (hopening.append hmembers.1).append_mark (b := "; ") rfl
        have hall := ((hfirst.append_closes (closes_members hmembers.2)).append_mark
          (b := "\x7d") rfl).spells
        rw [TypeExpr.text, TypeExpr.pieces]
        simpa only [List.map_cons, List.flatten_cons, List.append_assoc] using hall
    | keyOf operand =>
      rw [TypeExpr.text, TypeExpr.pieces]
      exact (closes_word rfl (by decide)).append
        (spells_enclosed _ (hchildren operand (by simp [children])))
    | readonly operand =>
      rw [TypeExpr.text, TypeExpr.pieces]
      exact (closes_word rfl (by decide)).append
        (spells_enclosed _ (hchildren operand (by simp [children])))
    | predicate parameter type =>
      simp only [TypeExpr.isWrittenNode, Bool.and_eq_true] at hwritten
      have his : Closes " is " [(Piece.word "is").joined] :=
        ((closes_word (rfl : "is ".toList = "is".toList ++ [' ']) (by decide)).joined rfl
          (by decide) (by decide)).blank rfl
      rw [TypeExpr.text, TypeExpr.pieces]
      exact ((spells_word hwritten.1).append_closes his (opens_blank rfl)).append
        (hchildren type (by simp [children]))

end TypeSurface
