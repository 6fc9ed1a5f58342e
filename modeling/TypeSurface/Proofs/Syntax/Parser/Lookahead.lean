import TypeSurface.Proofs.Syntax.Parser.Heads
import TypeSurface.Proofs.Syntax.Parser.Reading
import TypeSurface.Syntax.Parser.Types

/-!
# Looking ahead

What the reader sees at the pieces of a type, of a signature or of a member when it has to choose a
rule.
-/

namespace TypeSurface
namespace Parser
namespace State

variable {s : State} {p q r k : Piece} {ps ks : List Piece}

theorem isWord_of_at (h : s.At (p :: ps)) (text : String) :
    s.isWord text = (p.kind = .identifier && p.value == text) := by
  unfold State.isWord Token.isWord
  rw [h.here.kind, h.here.value]

theorem isNextIn_of_at (h : s.At (p :: q :: ps)) (kinds : List TokenKind) :
    s.isNextIn kinds = kinds.contains q.kind := by
  unfold isNextIn
  rw [h.next.kind]

theorem isConstruct_of_at (h : s.At (p :: q :: ps)) :
    s.isConstruct = (p.kind = .identifier && p.value == "new" && startsSignature q.kind) := by
  unfold isConstruct
  rw [isWord_of_at h, h.next.kind]

/-! ### Types -/

variable {t : TypeExpr}

/-- The second piece is the one behind the first, or the one behind them all. -/
theorem at_second (h : s.At (p :: ps ++ k :: ks)) :
    ∃ q qs, s.At (p :: q :: qs) ∧ (q ∈ ps.head? ∨ ps = [] ∧ q = k) := by
  cases ps with
  | nil => exact ⟨k, ks, h, Or.inr ⟨rfl, rfl⟩⟩
  | cons q qs => exact ⟨q, qs ++ k :: ks, h, Or.inl rfl⟩

theorem not_isFunctionStart_of_isOperandHead (hps : IsOperandHead ps) (h : s.At ps) :
    s.kind ≠ .lessThan ∧ s.isFunctionStart = false := by
  cases hps with
  | plain hparen hangle =>
    rw [h.kind]
    refine ⟨hangle, ?_⟩
    unfold isFunctionStart
    simp [h.kind, hparen]
  | enclosed hps hlong =>
    rw [h.kind]
    refine ⟨by simp [Piece.mark], ?_⟩
    unfold isFunctionStart
    cases hps with
    | symbol hp =>
      have hfirst := h.first.1.kind
      simp only [symbolStarts, List.mem_cons, List.not_mem_nil, or_false] at hp
      rcases hp with hp | hp | hp | hp | hp | hp | hp <;> simp [hfirst, hp]
    | word w => simp at hlong
    | words w hq =>
      have hfirst := h.first.1.kind
      have hsecond := h.second.1.kind
      simp only [wordFollowers, List.mem_cons, List.not_mem_nil, or_false] at hq
      rcases hq with hq | hq | hq | hq | hq | hq | hq | hq <;>
        simp [hfirst, hsecond, hq, Piece.word]

theorem not_isWord_of_kind (h : s.At (p :: ps)) (hp : p.kind ≠ .identifier) (text : String) :
    s.isWord text = false := by
  rw [isWord_of_at h]
  simp [hp]

theorem not_isWord_of_ne {w text : String} (h : s.At (.word w :: ps)) (hw : w ≠ text) :
    s.isWord text = false := by
  rw [isWord_of_at h]
  simp [Piece.word, hw]

theorem plainStarts_ne_identifier {kind : TokenKind} (h : kind ∈ TypeExpr.plainStarts) :
    kind ≠ .identifier := by
  revert kind
  decide

theorem not_isConstruct_of_kind (h : s.At (p :: ps)) (hp : p.kind ≠ .identifier) :
    s.isConstruct = false := by
  unfold isConstruct
  rw [not_isWord_of_kind h hp, Bool.false_and]

/-- A type that is read by itself is not taken for a construct type. -/
theorem not_isConstruct_of_type (ht : t.IsReadable) (hproper : t.isProper = true)
    (hnew : t.startsNew = false) (hloose : t.isLooseUnionMember = false)
    (hk : startsSignature k.kind = true → t.All (·.isPlainNode = true))
    (h : s.At (t.pieces ++ k :: ks)) :
    s.isConstruct = false := by
  have hopening := TypeExpr.opening ht hproper
  have hfrontLoose := TypeExpr.isLooseUnionMember_front hloose
  generalize t.pieces = ps at hopening h
  have hother : s.isWord "new" = false → s.isConstruct = false := by
    intro hword
    unfold isConstruct
    rw [hword, Bool.false_and]
  cases hopening with
  | symbol hp => exact not_isConstruct_of_kind h (plainStarts_ne_identifier hp)
  | enclosed hu huproper huloose =>
    exact not_isConstruct_of_kind (p := .mark .openParen) h (by simp [Piece.mark])
  | function hfront hp =>
    rw [hfront] at hfrontLoose
    cases hfrontLoose
  | @word w ps hw hps =>
    have hwords : ∀ w ∈ TypeExpr.typeWords, w ≠ "new" := by decide
    exact hother (not_isWord_of_ne h (hwords w hw))
  | @name name w args ps hfront hw hps =>
    obtain ⟨q, qs, hat, hq⟩ := at_second h
    have hnext : startsSignature q.kind = false → s.isConstruct = false := by
      intro hq
      unfold isConstruct
      rw [hat.next.kind, hq, Bool.and_false]
    rcases hq with hq | ⟨-, rfl⟩
    · rcases hps q hq with hq | ⟨-, rfl, hargs⟩ | ⟨hq, -⟩
      · exact hnext (by rw [hq]; rfl)
      · refine hother (not_isWord_of_ne h ?_)
        rintro rfl
        simp [TypeExpr.startsNew, TypeExpr.isAppliedNew, hfront, hargs] at hnew
      · have hends : ∀ kind ∈ frontEnds, startsSignature kind = false := by decide
        exact hnext (hends _ hq)
    · cases hstarts : startsSignature q.kind with
      | false => exact hnext hstarts
      | true =>
        refine hother (not_isWord_of_ne h ?_)
        rintro rfl
        exact TypeExpr.not_reserved_front (hk hstarts) hfront hw (by decide)
  | @operator op u q qs hfront hq hmark hu =>
    exact hother (not_isWord_of_ne h (by cases op <;> decide))
  | construct hfront hq =>
    rw [hfront] at hfrontLoose
    cases hfrontLoose

/-- What the name of an operator stands in front of when it is one. -/
theorem operator?_of_not_isNextIn
    (hkeyOf : s.isWord "keyof" = false ∨ s.isNextIn Operator.keyOf.operandStarts = false)
    (hreadonly : s.isWord "readonly" = false ∨ s.isNextIn Operator.readonly.operandStarts = false) :
    s.operator? = none := by
  unfold operator?
  unfold Operator.operandStarts at hkeyOf hreadonly
  rw [if_neg, if_neg]
  · rcases hreadonly with h | h <;> simp [h]
  · rcases hkeyOf with h | h <;> simp [h]

theorem operator?_of_kind (h : s.At (p :: ps)) (hp : p.kind ≠ .identifier) : s.operator? = none :=
  operator?_of_not_isNextIn (Or.inl (not_isWord_of_kind h hp _)) (Or.inl (not_isWord_of_kind h hp _))

/-- An operand that is read without parentheses is not taken for one with an operator. -/
theorem operator?_of_operand (ht : t.IsReadable) (hproper : t.isProper = true)
    (hloose : t.isLoosePostfixOperand = false)
    (hk : k.kind ∈ Operator.keyOf.operandStarts → t.All (·.isPlainNode = true))
    (h : s.At (t.pieces ++ k :: ks)) : s.operator? = none := by
  have hopening := TypeExpr.opening ht hproper
  have hfrontLoose := TypeExpr.isLoosePostfixOperand_front hloose
  generalize t.pieces = ps at hopening h
  cases hopening with
  | symbol hp => exact operator?_of_kind h (plainStarts_ne_identifier hp)
  | enclosed hu huproper huloose =>
    exact operator?_of_kind (p := .mark .openParen) h (by simp [Piece.mark])
  | function hfront hp =>
    rw [hfront] at hfrontLoose
    cases hfrontLoose
  | @word w ps hw hps =>
    have hwords : ∀ w ∈ TypeExpr.typeWords, w ≠ "keyof" ∧ w ≠ "readonly" := by decide
    exact operator?_of_not_isNextIn (Or.inl (not_isWord_of_ne h (hwords w hw).1))
      (Or.inl (not_isWord_of_ne h (hwords w hw).2))
  | @name name w args ps hfront hw hps =>
    obtain ⟨q, qs, hat, hq⟩ := at_second h
    have hnext : q.kind ∉ Operator.keyOf.operandStarts → s.operator? = none := by
      intro hq
      simp only [Operator.operandStarts, List.mem_cons, List.not_mem_nil, or_false, not_or] at hq
      refine operator?_of_not_isNextIn (Or.inr ?_) (Or.inr ?_)
      · rw [isNextIn_of_at hat]
        simp [Operator.operandStarts, hq]
      · rw [isNextIn_of_at hat]
        simp [Operator.operandStarts, hq]
    rcases hq with hq | ⟨-, rfl⟩
    · rcases hps q hq with hq | ⟨hq, -⟩ | ⟨hq, rfl, rfl, hne⟩
      · exact hnext (by simp [hq, Operator.operandStarts])
      · exact hnext (by simp [hq, Operator.operandStarts])
      · -- Brackets stand behind the name, which is then no operator's.
        have hname := TypeExpr.not_isOperatorName_front (ht.imp fun _ hu ↦ hu.clear) hloose hne
        rw [hfront] at hname
        simp only [TypeExpr.isOperatorName, Bool.or_eq_false_iff, beq_eq_false_iff_ne] at hname
        exact operator?_of_not_isNextIn (Or.inl (not_isWord_of_ne h hname.1))
          (Or.inl (not_isWord_of_ne h hname.2))
    · by_cases hstarts : q.kind ∈ Operator.keyOf.operandStarts
      · have hword : ∀ op ∈ ["keyof", "readonly"], w ≠ op := by
          rintro op hop rfl
          have hwords : ∀ op ∈ ["keyof", "readonly"], op ∈ reservedWords := by decide
          exact TypeExpr.not_reserved_front (hk hstarts) hfront hw (hwords _ hop)
        exact operator?_of_not_isNextIn (Or.inl (not_isWord_of_ne h (hword _ (by simp))))
          (Or.inl (not_isWord_of_ne h (hword _ (by simp))))
      · exact hnext hstarts
  | @operator op u q qs hfront hq hmark hu =>
    rw [hfront] at hfrontLoose
    cases op <;> cases hfrontLoose
  | construct hfront hq =>
    rw [hfront] at hfrontLoose
    cases hfrontLoose

/-- A type that starts with the word `is` starts with a name. -/
theorem startsIs_of_pieces (ht : t.IsReadable) (hproper : t.isProper = true)
    (hp : p ∈ t.pieces.head?) (hkind : p.kind = .identifier) (his : p.value = "is") :
    t.startsIs = true := by
  have hopening := TypeExpr.opening ht hproper
  generalize t.pieces = ps at hopening hp
  cases hopening with
  | symbol hq =>
    cases hp
    exact absurd hkind (plainStarts_ne_identifier hq)
  | enclosed hu huproper huloose =>
    cases hp
    cases hkind
  | function hfront hq =>
    cases hp
    rcases hq with rfl | rfl <;> cases hkind
  | @word w ps hw hps =>
    cases hp
    have hwords : ∀ w ∈ TypeExpr.typeWords, w ≠ "is" := by decide
    exact absurd his (hwords w hw)
  | @name name w args ps hfront hw hps =>
    cases hp
    obtain rfl : w = "is" := his
    simp [TypeExpr.startsIs, TypeExpr.isNamedIs, hfront, hw]
  | @operator op u q qs hfront hq hmark hu =>
    cases hp
    cases op <;> simp [Piece.word, Operator.word] at his
  | construct hfront hq =>
    cases hp
    simp [Piece.word] at his

/-- A result that is no predicate is not taken for one. -/
theorem not_isPredicate_of_type (ht : t.IsReadable) (hproper : t.isProper = true)
    (hpredicate : t.startsPredicate = false) (hk : k.kind = .identifier → k.isBroken = true)
    (h : s.At (t.pieces ++ k :: ks)) : s.isPredicate = false := by
  have hopening := TypeExpr.opening ht hproper
  generalize t.pieces = ps at hopening h
  have hfirst : ∀ {p ps}, s.At (p :: ps) → p.kind ≠ .identifier → s.isPredicate = false := by
    intro p ps hat hp
    unfold isPredicate
    simp [hat.kind, hp]
  have hsecond : ∀ {p q ps}, s.At (p :: q :: ps) → ¬(q.kind = .identifier ∧ q.value = "is") →
      s.isPredicate = false := by
    intro p q ps hat hq
    unfold isPredicate Token.isWord
    rw [hat.next.kind, hat.next.value]
    by_cases hkind : q.kind = .identifier
    · have hvalue : q.value ≠ "is" := fun hvalue ↦ hq ⟨hkind, hvalue⟩
      simp [hvalue]
    · simp [hkind]
  have hends : ∀ kind ∈ frontEnds, kind ≠ .identifier := by decide
  have hbehind : ∀ {p ps}, s.At (p :: k :: ps) → s.isPredicate = false := by
    intro p ps hat
    by_cases hkind : k.kind = .identifier
    · unfold isPredicate
      simp [hat.next.broken (hk hkind)]
    · exact hsecond hat fun h ↦ hkind h.1
  cases hopening with
  | symbol hp => exact hfirst h (plainStarts_ne_identifier hp)
  | enclosed hu huproper huloose => exact hfirst (p := .mark .openParen) h (by simp [Piece.mark])
  | function hfront hp => exact hfirst h (by rcases hp with rfl | rfl <;> simp [Piece.mark])
  | @word w ps hw hps =>
    obtain ⟨q, qs, hat, hq⟩ := at_second h
    rcases hq with hq | ⟨-, rfl⟩
    · exact hsecond hat fun hkind ↦ hends _ (hps q hq) hkind.1
    · exact hbehind hat
  | @name name w args ps hfront hw hps =>
    obtain ⟨q, qs, hat, hq⟩ := at_second h
    rcases hq with hq | ⟨-, rfl⟩
    · refine hsecond hat fun hkind ↦ ?_
      rcases hps q hq with hq | ⟨hq, -⟩ | ⟨hq, -⟩
      · simp [hq] at hkind
      · simp [hq] at hkind
      · exact hends _ hq hkind.1
    · exact hbehind hat
  | @operator op u q qs hfront hq hmark hu =>
    have hreadable : t.front.IsReadable := TypeExpr.All.front ht
    rw [hfront] at hreadable
    have huproper : u.isProper = true := by
      have hwritten := hreadable.written
      cases op <;> exact hwritten
    refine hsecond h fun hkind ↦ ?_
    cases huloose : u.isLoosePrefixOperand with
    | true =>
      rw [hmark huloose] at hkind
      cases hkind.1
    | false =>
      have his : u.startsIs = true := startsIs_of_pieces
        (hreadable.child (by cases op <;> simp [Operator.apply, TypeExpr.children])) huproper
        (hu huloose) hkind.1 hkind.2
      rw [TypeExpr.startsPredicate, hfront] at hpredicate
      cases op <;> simp [Operator.apply, TypeExpr.isOperatorOnIs, huloose, his] at hpredicate
  | construct hfront hq =>
    refine hsecond h fun hkind ↦ ?_
    rcases hq with rfl | rfl <;> cases hkind.1

/-- A parenthesis in front of parameters starts a function type. -/
theorem isFunctionStart_of_params {params : List Param} {rest : List Piece}
    (h : s.At (.mark .openParen ::
      (separated (.mark .comma) (params.map Param.pieces) ++ .mark .closeParen :: rest))) :
    s.isFunctionStart = true := by
  unfold isFunctionStart
  rw [h.kind]
  cases params with
  | nil =>
    have hfirst := h.first.1.kind
    simp [hfirst, Piece.mark]
  | cons p params =>
    obtain ⟨name, type, isOptional, isRest⟩ := p
    rw [List.map_cons, separated_cons, Param.pieces] at h
    cases isRest with
    | true =>
      have hfirst := h.first.1.kind
      simp [hfirst, Piece.mark]
    | false =>
      cases isOptional with
      | true =>
        have hfirst := h.first.1.kind
        have hsecond := h.second.1.kind
        simp [hfirst, hsecond, Piece.mark, Piece.word]
      | false =>
        have hfirst := h.first.1.kind
        have hsecond := h.second.1.kind
        simp [hfirst, hsecond, Piece.mark, Piece.word]

end State

/-- The word `new` in front of a signature is seen as such. -/
theorem reads_isConstruct {p : Piece} {ps : List Piece}
    (hp : p = .mark .lessThan ∨ p = .mark .openParen) :
    Reads (view State.isConstruct) (.word "new" :: p :: ps) true (.word "new" :: p :: ps) := by
  refine reads_view fun s hs ↦ ?_
  rw [State.isConstruct_of_at hs]
  rcases hp with rfl | rfl <;> rfl
end Parser
end TypeSurface
