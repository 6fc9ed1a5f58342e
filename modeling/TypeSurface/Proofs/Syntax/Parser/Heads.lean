import TypeSurface.Proofs.Syntax.Spelling
import TypeSurface.Syntax.Parser.Types

/-!
# How types start

The first pieces of a type tell the reader which rule applies.  `TypeExpr.Opening` says what the first
two pieces of a type can be, `IsHead` what they have in common for every type, and `IsOperandHead` that
no function type starts with them.
-/

namespace TypeSurface

/-- The pieces other than words that a type may start with. -/
def symbolStarts : List TokenKind :=
  [.stringLiteral, .numericLiteral, .minus, .openParen, .openBrace, .openBracket, .lessThan]

/-- What may stand behind the first word of a type within the type. -/
def wordFollowers : List TokenKind :=
  [.dot, .lessThan, .openBracket, .bar, .ampersand, .identifier, .openParen, .openBrace]

/-- What may stand behind the front of a type within the type. -/
def frontEnds : List TokenKind := [.openBracket, .bar, .ampersand]

/-- Whether pieces start as a type does. -/
inductive IsHead : List Piece → Prop
  | symbol {p : Piece} {ps : List Piece} (hp : p.kind ∈ symbolStarts) : IsHead (p :: ps)
  | word (w : String) : IsHead [.word w]
  | words (w : String) {q : Piece} {qs : List Piece} (hq : q.kind ∈ wordFollowers) :
      IsHead (.word w :: q :: qs)

theorem IsHead.ne_nil {ps : List Piece} (h : IsHead ps) : ps ≠ [] := by
  cases h <;> simp

theorem isHead_of_followers {w : String} {ps : List Piece}
    (h : ∀ q ∈ ps.head?, q.kind ∈ wordFollowers) : IsHead (.word w :: ps) := by
  cases ps with
  | nil => exact .word w
  | cons q qs => exact .words w (h q rfl)

/-- Operands that stand in parentheses may be anything. -/
theorem isHead_enclosed {isLoose : Bool} {ps : List Piece} (h : isLoose = false → IsHead ps) :
    IsHead (enclosed isLoose ps) := by
  cases isLoose with
  | true => exact .symbol (by simp [Piece.mark, symbolStarts])
  | false => exact h rfl

namespace Parser

/-- The word of an operator. -/
def Operator.word : Operator → String
  | .keyOf => "keyof"
  | .readonly => "readonly"

/-- What an operator may stand in front of. -/
def Operator.operandStarts : Operator → List TokenKind
  | .keyOf => [.identifier, .openParen, .openBrace, .openBracket]
  | .readonly => [.identifier, .openBracket, .openParen]

end Parser

namespace TypeExpr

variable {t : TypeExpr}

/-- The pieces of a reference start with its first segment, behind which a dot or the arguments
stand. -/
theorem pieces_reference (name : String) (args : List TypeExpr) :
    ∃ w ps, (reference name args).pieces = .word w :: ps ∧ (Text.segments name).head? = some w ∧
      (∀ q ∈ ps.head?, q.kind = .dot ∨ q.kind = .lessThan ∧ name = w ∧ args ≠ []) ∧
      (ps = [] → name = w ∧ args = []) := by
  have hname := Text.intercalate_segments name
  obtain ⟨w, words, hwords⟩ := List.exists_cons_of_ne_nil (Text.segments_ne_nil name)
  rw [hwords] at hname
  rw [pieces, hwords, dotted, List.map_cons, separated_cons]
  refine ⟨w, _, rfl, rfl, ?_⟩
  cases words with
  | cons v words => simp [Piece.mark]
  | nil =>
    obtain rfl : w = name := by simpa using hname
    cases args with
    | nil => simp [angledPieces]
    | cons a args => simp [angledPieces, Piece.mark, Piece.joined]

/-- A list of pieces with at least two items goes on behind the first. -/
theorem separated_cons_cons (separator : Piece) (ps qs : List Piece) (pss : List (List Piece)) :
    ∃ rest, separated separator (ps :: qs :: pss) = ps ++ separator :: rest := by
  rw [separated_cons, List.flatMap_cons]
  exact ⟨_, rfl⟩

theorem pieces_signature_cons (s : Signature) (separator : Piece) :
    ∃ p ps, s.pieces separator = p :: ps ∧ (p = .mark .lessThan ∨ p = .mark .openParen) := by
  obtain ⟨typeParams, params, result⟩ := s
  rw [Signature.pieces]
  cases typeParams with
  | nil => exact ⟨_, _, rfl, Or.inr rfl⟩
  | cons p typeParams => exact ⟨_, _, rfl, Or.inl rfl⟩

theorem numberPieces_cons (text : String) : ∃ p ps, numberPieces text = p :: ps ∧
    (p.kind = .minus ∨ p.kind = .numericLiteral) := by
  unfold numberPieces
  split
  · exact ⟨_, _, rfl, Or.inl rfl⟩
  · exact ⟨_, _, rfl, Or.inr rfl⟩

/-- The pieces of a type start with those of its front. -/
theorem pieces_front (t : TypeExpr) :
    ∃ rest, t.pieces = t.front.pieces ++ rest ∧ ∀ q ∈ rest.head?, q.kind ∈ frontEnds := by
  -- What stands behind the front of a part of the type, or else behind that part.
  have happend : ∀ {ps qs rest : List Piece}, (∀ q ∈ rest.head?, q.kind ∈ frontEnds) →
      (∀ q ∈ qs.head?, q.kind ∈ frontEnds) → ps ++ rest ++ qs = ps ++ (rest ++ qs) ∧
        ∀ q ∈ (rest ++ qs).head?, q.kind ∈ frontEnds := by
    intro ps qs rest hrest hqs
    refine ⟨List.append_assoc _ _ _, ?_⟩
    cases rest with
    | nil => exact hqs
    | cons p rest => exact hrest
  have hseparated : ∀ {separator : Piece} (pss : List (List Piece)), separator.kind ∈ frontEnds →
      ∀ q ∈ (pss.flatMap (separator :: ·)).head?, q.kind ∈ frontEnds := by
    intro separator pss hseparator q hq
    cases pss with
    | nil => cases hq
    | cons ps pss =>
      cases hq
      exact hseparator
  fun_induction front t with
  | case1 t hloose => exact ⟨[], by simp⟩
  | case2 t hloose ih =>
    obtain ⟨rest, hps, hrest⟩ := ih
    rw [pieces, enclosed, if_neg hloose, hps]
    exact ⟨_, happend hrest (by simp [Piece.mark, Piece.joined, frontEnds])⟩
  | case3 t ts hloose => exact ⟨[], by simp⟩
  | case4 t ts hloose ih =>
    obtain ⟨rest, hps, hrest⟩ := ih
    rw [pieces, List.map_cons, separated_cons, enclosed, if_neg hloose, hps]
    exact ⟨_, happend hrest (hseparated _ (by simp [Piece.mark, frontEnds]))⟩
  | case5 t ts hloose => exact ⟨[], by simp⟩
  | case6 t ts hloose ih =>
    obtain ⟨rest, hps, hrest⟩ := ih
    rw [pieces, List.map_cons, separated_cons, enclosed, if_neg hloose, hps]
    exact ⟨_, happend hrest (hseparated _ (by simp [Piece.mark, frontEnds]))⟩
  | case7 t => exact ⟨[], by simp⟩

theorem enclosed_ne_nil {isLoose : Bool} {ps : List Piece} (h : ps ≠ []) :
    enclosed isLoose ps ≠ [] := by
  cases isLoose <;> simp [enclosed, h]

theorem pieces_ne_nil (h : t.All (·.isWrittenNode = true)) : t.pieces ≠ [] := by
  -- Only unions and intersections start with the pieces of a type and nothing else.
  induction t using TypeExpr.induction_on_children with
  | h t ih =>
    have hwritten := h.self
    cases t with
    | reference name args =>
      obtain ⟨w, ps, hps, -⟩ := pieces_reference name args
      simp [hps]
    | literal value =>
      rw [pieces]
      cases value with
      | number text =>
        obtain ⟨p, ps, hps, -⟩ := numberPieces_cons text
        simp [Literal.pieces, hps]
      | string text => simp [Literal.pieces]
      | boolean value => cases value <;> simp [Literal.pieces]
    | union ts =>
      cases ts with
      | nil => cases hwritten
      | cons t ts =>
        rw [pieces, List.map_cons, separated_cons]
        have ht : enclosed t.isLooseUnionMember t.pieces ≠ [] :=
          enclosed_ne_nil (ih t (by simp [children]) (h.child (by simp [children])))
        simp [ht]
    | intersection ts =>
      cases ts with
      | nil => cases hwritten
      | cons t ts =>
        rw [pieces, List.map_cons, separated_cons]
        have ht : enclosed t.isLooseIntersectionMember t.pieces ≠ [] :=
          enclosed_ne_nil (ih t (by simp [children]) (h.child (by simp [children])))
        simp [ht]
    | function signature =>
      obtain ⟨p, ps, hps, -⟩ := pieces_signature_cons signature (.mark .arrow)
      simp [pieces, hps]
    | _ => simp [pieces]

/-- How what `keyof` and `readonly` may stand in front of starts. -/
theorem head_operand (h : t.IsReadable) (hproper : t.isProper = true)
    (hloose : t.isLoosePrefixOperand = false) (hroot : t.root.isTextOrNumber = false) :
    ∃ p ps, t.pieces = p :: ps ∧
      (p.kind = .identifier ∨ p.kind = .openParen ∨ p.kind = .openBracket ∨
        p.kind = .openBrace ∧ t.root.isObject = true) := by
  obtain ⟨rest, hps, -⟩ := pieces_front t
  have hfrontNode := isFrontNode_front t
  have hprefix := isLoosePrefixOperand_front hloose
  have hfrontProper := isProper_front (h.imp fun _ hu ↦ hu.written) hproper
  rw [hps]
  cases hfront : t.front with
  | keyword word =>
    rw [pieces]
    exact ⟨_, _, rfl, Or.inl rfl⟩
  | reference name args =>
    obtain ⟨w, ps, hps, -⟩ := pieces_reference name args
    rw [hps]
    exact ⟨_, _, rfl, Or.inl rfl⟩
  | literal value =>
    rw [root_eq_front hloose (by simp [hfront]), hfront] at hroot
    rw [pieces]
    cases value with
    | string text => cases hroot
    | number text => cases hroot
    | boolean value => cases value <;> exact ⟨_, _, rfl, Or.inl rfl⟩
  | array u =>
    rw [hfront] at hfrontNode
    have hu : u.isLoosePostfixOperand = true := hfrontNode
    rw [pieces, enclosed, if_pos hu]
    exact ⟨_, _, rfl, Or.inr (Or.inl rfl)⟩
  | tuple elements =>
    rw [pieces]
    exact ⟨_, _, rfl, Or.inr (Or.inr (Or.inl rfl))⟩
  | object members =>
    rw [root_eq_front hloose (by simp [hfront]), hfront, pieces]
    exact ⟨_, _, rfl, Or.inr (Or.inr (Or.inr ⟨rfl, rfl⟩))⟩
  | keyOf u =>
    rw [pieces]
    exact ⟨_, _, rfl, Or.inl rfl⟩
  | readonly u =>
    rw [pieces]
    exact ⟨_, _, rfl, Or.inl rfl⟩
  | predicate parameter u =>
    rw [hfront] at hfrontProper
    cases hfrontProper
  | _ =>
    rw [hfront] at hprefix
    cases hprefix

/-- An operator that is applied to its operand may stand in front of it. -/
theorem operandStarts_of_applied {op : Parser.Operator} {u : TypeExpr} (h : u.IsReadable)
    (hproper : u.isProper = true) (happlied : (op.apply u).isAppliedNode = true) :
    ∃ q qs, enclosed u.isLoosePrefixOperand u.pieces = q :: qs ∧ q.kind ∈ op.operandStarts ∧
      (u.isLoosePrefixOperand = true → q = .mark .openParen) := by
  cases hloose : u.isLoosePrefixOperand with
  | true =>
    refine ⟨_, _, rfl, ?_, fun _ ↦ rfl⟩
    cases op <;> simp [Piece.mark, Parser.Operator.operandStarts]
  | false =>
    rw [enclosed, if_neg (by simp)]
    cases op with
    | keyOf =>
      simp only [Parser.Operator.apply, isAppliedNode, Bool.not_eq_true'] at happlied
      obtain ⟨p, ps, hps, hp⟩ := head_operand h hproper hloose happlied
      refine ⟨p, ps, hps, ?_, fun h ↦ by cases h⟩
      rcases hp with hp | hp | hp | ⟨hp, -⟩ <;> simp [hp, Parser.Operator.operandStarts]
    | readonly =>
      simp only [Parser.Operator.apply, isAppliedNode, Bool.and_eq_true, Bool.not_eq_true']
        at happlied
      obtain ⟨p, ps, hps, hp⟩ := head_operand h hproper hloose happlied.1
      refine ⟨p, ps, hps, ?_, fun h ↦ by cases h⟩
      rcases hp with hp | hp | hp | ⟨-, hobject⟩
      · simp [hp, Parser.Operator.operandStarts]
      · simp [hp, Parser.Operator.operandStarts]
      · simp [hp, Parser.Operator.operandStarts]
      · rw [happlied.2] at hobject
        cases hobject

/-- The words that stand for a type by themselves. -/
def typeWords : List String := Keyword.all.map Keyword.text ++ ["true", "false"]

/-- The pieces that only literals, tuples and object types start with. -/
def plainStarts : List TokenKind :=
  [.stringLiteral, .numericLiteral, .minus, .openBrace, .openBracket]

/-- How a type can start: what its first pieces are, and what they say about its front. -/
inductive Opening (t : TypeExpr) : List Piece → Prop
  | symbol {p : Piece} {ps : List Piece} (hp : p.kind ∈ plainStarts) : Opening t (p :: ps)
  | enclosed {u : TypeExpr} {ps : List Piece} (hu : u ∈ t.front.children)
      (hproper : u.isProper = true) (hloose : u.isLoosePostfixOperand = true) :
      Opening t (TypeSurface.enclosed true u.pieces ++ ps)
  | function {s : Signature} {p : Piece} {ps : List Piece} (hfront : t.front = .function s)
      (hp : p = .mark .lessThan ∨ p = .mark .openParen) : Opening t (p :: ps)
  | word {w : String} {ps : List Piece} (hw : w ∈ typeWords)
      (hps : ∀ q ∈ ps.head?, q.kind ∈ frontEnds) : Opening t (.word w :: ps)
  | name {name w : String} {args : List TypeExpr} {ps : List Piece}
      (hfront : t.front = .reference name args) (hw : (Text.segments name).head? = some w)
      (hps : ∀ q ∈ ps.head?, q.kind = .dot ∨ (q.kind = .lessThan ∧ name = w ∧ args ≠ []) ∨
        q.kind ∈ frontEnds ∧ name = w ∧ args = [] ∧ t.front ≠ t) : Opening t (.word w :: ps)
  | operator {op : Parser.Operator} {u : TypeExpr} {q : Piece} {qs : List Piece}
      (hfront : t.front = op.apply u) (hq : q.kind ∈ op.operandStarts)
      (hloose : u.isLoosePrefixOperand = true → q = .mark .openParen)
      (hu : u.isLoosePrefixOperand = false → q ∈ u.pieces.head?) :
      Opening t (.word op.word :: q :: qs)
  | construct {s : Signature} {q : Piece} {qs : List Piece} (hfront : t.front = .construct s)
      (hq : q = .mark .lessThan ∨ q = .mark .openParen) : Opening t (.word "new" :: q :: qs)

theorem opening (h : t.IsReadable) (hproper : t.isProper = true) : t.Opening t.pieces := by
  obtain ⟨rest, hps, hrest⟩ := pieces_front t
  have hfrontNode := isFrontNode_front t
  have hfrontProper := isProper_front (h.imp fun _ hu ↦ hu.written) hproper
  have hreadable := All.front h
  have hwritten := hreadable.self.written
  have hself : t.front = t → rest = [] := by
    intro heq
    rw [heq] at hps
    simpa using hps
  have hoperator : ∀ (op : Parser.Operator) (u : TypeExpr), t.front = op.apply u → u.IsReadable →
      u.isProper = true → (op.apply u).isAppliedNode = true →
      Opening t (.word op.word :: (enclosed u.isLoosePrefixOperand u.pieces ++ rest)) := by
    intro op u hfront hu huproper happlied
    obtain ⟨q, qs, hqs, hq, hloose⟩ := operandStarts_of_applied hu huproper happlied
    rw [hqs]
    refine .operator hfront hq hloose fun hfalse ↦ ?_
    rw [hfalse, enclosed, if_neg (by simp)] at hqs
    rw [hqs]
    rfl
  rw [hps]
  cases hfront : t.front with
  | keyword word =>
    rw [pieces]
    exact .word (List.mem_append_left _ (List.mem_map_of_mem (Keyword.mem_all word))) hrest
  | reference name args =>
    obtain ⟨w, ps, hname, hw, hfollow, hnil⟩ := pieces_reference name args
    rw [hname]
    refine .name hfront hw fun q hq ↦ ?_
    cases ps with
    | nil =>
      obtain ⟨hsame, hargs⟩ := hnil rfl
      refine Or.inr (Or.inr ⟨hrest q hq, hsame, hargs, fun heq ↦ ?_⟩)
      rw [hself heq] at hq
      cases hq
    | cons p ps => exact (hfollow q hq).imp_right Or.inl
  | literal value =>
    rw [pieces]
    cases value with
    | string text => exact .symbol (by simp [Piece.string, plainStarts])
    | number text =>
      obtain ⟨p, ps, hnumber, hp⟩ := numberPieces_cons text
      rw [Literal.pieces, hnumber]
      rcases hp with hp | hp
      · exact .symbol (by simp [hp, plainStarts])
      · exact .symbol (by simp [hp, plainStarts])
    | boolean value => cases value <;> exact .word (by decide) hrest
  | array u =>
    rw [hfront] at hfrontNode hwritten
    have hloose : u.isLoosePostfixOperand = true := hfrontNode
    rw [pieces, hloose, List.append_assoc]
    exact .enclosed (by simp [hfront, children]) hwritten hloose
  | tuple elements =>
    rw [pieces]
    exact .symbol (by simp [Piece.mark, plainStarts])
  | object members =>
    rw [pieces]
    exact .symbol (by simp [Piece.mark, plainStarts])
  | union us =>
    rw [hfront] at hfrontNode hwritten
    cases us with
    | nil => cases hwritten
    | cons u us =>
      have hloose : u.isLooseUnionMember = true := hfrontNode
      simp only [isWrittenNode, Bool.and_eq_true, List.all_cons] at hwritten
      rw [pieces, List.map_cons, separated_cons, hloose, List.append_assoc]
      exact .enclosed (by simp [hfront, children]) hwritten.2.1
        (isLoosePostfixOperand_of_unionMember hloose)
  | intersection us =>
    rw [hfront] at hfrontNode hwritten
    cases us with
    | nil => cases hwritten
    | cons u us =>
      have hloose : u.isLooseIntersectionMember = true := hfrontNode
      simp only [isWrittenNode, Bool.and_eq_true, List.all_cons] at hwritten
      rw [pieces, List.map_cons, separated_cons, hloose, List.append_assoc]
      exact .enclosed (by simp [hfront, children]) hwritten.2.1
        (isLoosePostfixOperand_of_intersectionMember hloose)
  | function signature =>
    obtain ⟨p, ps, hsignature, hp⟩ := pieces_signature_cons signature (.mark .arrow)
    rw [pieces, hsignature]
    exact .function hfront hp
  | construct signature =>
    obtain ⟨p, ps, hsignature, hp⟩ := pieces_signature_cons signature (.mark .arrow)
    rw [pieces, hsignature]
    exact .construct hfront hp
  | keyOf u =>
    rw [hfront] at hwritten hreadable
    rw [pieces]
    exact hoperator .keyOf u hfront (hreadable.child (by simp [children])) hwritten
      hreadable.self.clear.applied
  | readonly u =>
    rw [hfront] at hwritten hreadable
    rw [pieces]
    exact hoperator .readonly u hfront (hreadable.child (by simp [children])) hwritten
      hreadable.self.clear.applied
  | predicate parameter u =>
    rw [hfront] at hfrontProper
    cases hfrontProper

theorem isHead_pieces (h : t.IsReadable) (hproper : t.isProper = true) : IsHead t.pieces := by
  have hends : ∀ kind ∈ frontEnds, kind ∈ wordFollowers := by decide
  have hopening := opening h hproper
  generalize t.pieces = ps at hopening
  have hstarts : ∀ kind ∈ plainStarts, kind ∈ symbolStarts := by decide
  cases hopening with
  | symbol hp => exact .symbol (hstarts _ hp)
  | enclosed hu hproper hloose => exact .symbol (by simp [Piece.mark, symbolStarts])
  | function hfront hp => rcases hp with rfl | rfl <;> exact .symbol (by simp [Piece.mark, symbolStarts])
  | word hw hps => exact isHead_of_followers fun q hq ↦ hends _ (hps q hq)
  | name hfront hw hps =>
    refine isHead_of_followers fun q hq ↦ ?_
    rcases hps q hq with hq | ⟨hq, -⟩ | ⟨hq, -⟩
    · simp [hq, wordFollowers]
    · simp [hq, wordFollowers]
    · exact hends _ hq
  | @operator op u q qs hfront hq =>
    have hstarts : ∀ kind ∈ op.operandStarts, kind ∈ wordFollowers := by
      cases op <;> decide
    exact .words _ (hstarts _ hq)
  | construct hfront hq => rcases hq with rfl | rfl <;> exact .words _ (by decide)

/-! ### Operands -/

theorem separated_length {separator : Piece} {pss : List (List Piece)} (h : 2 ≤ pss.length)
    (hne : ∀ ps ∈ pss, ps ≠ []) : 1 < (separated separator pss).length := by
  match pss, h with
  | ps :: qs :: pss, _ =>
    have := List.length_pos_iff.2 (hne ps (by simp))
    obtain ⟨rest, hrest⟩ := separated_cons_cons separator ps qs pss
    rw [hrest, List.length_append, List.length_cons]
    omega

/-- What stands in parentheses is more than one piece. -/
theorem one_lt_length_pieces (h : t.All (·.isWrittenNode = true)) (hproper : t.isProper = true)
    (hloose : t.isLoosePostfixOperand = true) : 1 < t.pieces.length := by
  have hwritten := h.self
  have hsignature : ∀ (s : Signature) (p : Piece), 1 < (s.pieces p).length := by
    rintro ⟨typeParams, params, result⟩ p
    simp only [Signature.pieces, List.length_append, List.length_cons, List.length_nil]
    omega
  have hchild : ∀ u ∈ t.children, ∀ isLoose, enclosed isLoose u.pieces ≠ [] :=
    fun u hu _ ↦ enclosed_ne_nil (pieces_ne_nil (h.child hu))
  cases t with
  | union members =>
    simp only [isWrittenNode, Bool.and_eq_true, decide_eq_true_eq] at hwritten
    rw [pieces]
    refine separated_length (by simpa using hwritten.1) fun ps hps ↦ ?_
    obtain ⟨m, hm, rfl⟩ := List.mem_map.1 hps
    exact hchild m hm _
  | intersection members =>
    simp only [isWrittenNode, Bool.and_eq_true, decide_eq_true_eq] at hwritten
    rw [pieces]
    refine separated_length (by simpa using hwritten.1) fun ps hps ↦ ?_
    obtain ⟨m, hm, rfl⟩ := List.mem_map.1 hps
    exact hchild m hm _
  | function signature =>
    rw [pieces]
    exact hsignature signature _
  | construct signature =>
    have := hsignature signature (.mark .arrow)
    rw [pieces, List.length_append]
    omega
  | keyOf operand =>
    have := List.length_pos_iff.2 (hchild operand (by simp [children]) operand.isLoosePrefixOperand)
    rw [pieces, List.length_append, List.length_singleton]
    omega
  | readonly operand =>
    have := List.length_pos_iff.2 (hchild operand (by simp [children]) operand.isLoosePrefixOperand)
    rw [pieces, List.length_append, List.length_singleton]
    omega
  | predicate parameter type => cases hproper
  | _ => cases hloose

end TypeExpr

/-- Whether pieces start as a type does that is no function type. -/
inductive IsOperandHead : List Piece → Prop
  | plain {p : Piece} {ps : List Piece} (hparen : p.kind ≠ .openParen) (hangle : p.kind ≠ .lessThan) :
      IsOperandHead (p :: ps)
  | enclosed {ps rest : List Piece} (h : IsHead ps) (hlong : 1 < ps.length) :
      IsOperandHead (.mark .openParen :: (ps ++ .mark .closeParen :: rest))

section Operands

variable {ps qs : List Piece} {t : TypeExpr}

/-- An operand in parentheses, or one that needs none. -/
theorem isOperandHead_enclosed {isLoose : Bool} (h : t.IsReadable) (hproper : t.isProper = true)
    (hloose : isLoose = true → t.isLoosePostfixOperand = true)
    (hplain : isLoose = false → IsOperandHead (t.pieces ++ qs)) :
    IsOperandHead (enclosed isLoose t.pieces ++ qs) := by
  cases isLoose with
  | true =>
    have hlength := TypeExpr.one_lt_length_pieces (h.imp fun _ hu ↦ hu.written) hproper (hloose rfl)
    rw [enclosed, if_pos rfl, List.append_assoc, List.append_assoc]
    exact .enclosed (TypeExpr.isHead_pieces h hproper) hlength
  | false => exact hplain rfl

/-- What a type starts with that needs no parentheses in a union. -/
theorem isOperandHead_pieces (h : t.IsReadable) (hproper : t.isProper = true)
    (hloose : t.isLooseUnionMember = false) : IsOperandHead (t.pieces ++ qs) := by
  have hopening := TypeExpr.opening h hproper
  have hfrontLoose := TypeExpr.isLooseUnionMember_front hloose
  generalize t.pieces = ps at hopening
  cases hopening with
  | symbol hp =>
    have hstarts : ∀ kind ∈ TypeExpr.plainStarts, kind ≠ .openParen ∧ kind ≠ .lessThan := by decide
    exact .plain (hstarts _ hp).1 (hstarts _ hp).2
  | enclosed hu huproper huloose =>
    rw [List.append_assoc]
    exact isOperandHead_enclosed ((TypeExpr.All.front h).child hu) huproper (fun _ ↦ huloose)
      fun h ↦ by cases h
  | function hfront hp =>
    rw [hfront] at hfrontLoose
    cases hfrontLoose
  | word hw hps => exact .plain (by simp [Piece.word]) (by simp [Piece.word])
  | name hfront hw hps => exact .plain (by simp [Piece.word]) (by simp [Piece.word])
  | operator hfront hq => exact .plain (by simp [Piece.word]) (by simp [Piece.word])
  | construct hfront hq => exact .plain (by simp [Piece.word]) (by simp [Piece.word])

end Operands
end TypeSurface
