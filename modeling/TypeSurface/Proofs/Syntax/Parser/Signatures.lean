import TypeSurface.Proofs.Syntax.Parser.Lookahead

/-!
# Reading signatures and members

What the rules for signatures and members give at their pieces, provided that the types inside are
read.
-/

namespace TypeSurface
namespace Parser

/-- What may stand behind a whole type. -/
def typeEnds : List TokenKind :=
  [.comma, .greaterThan, .closeParen, .closeBracket, .closeBrace, .semicolon, .question, .equals]

/-- What the name of a member may start with. -/
def nameStarts : List TokenKind := [.identifier, .stringLiteral, .numericLiteral, .openBracket]

/-- What a member may start with. -/
def memberStarts : List TokenKind := .lessThan :: .openParen :: nameStarts

/-- Whether the type ends in front of the piece: types end at the piece, or the type is plain and a
member starts with the piece on a line below. -/
inductive EndsAt (ends : List TokenKind) (t : TypeExpr) (k : Piece) : Prop
  | mark (hk : k.kind ∈ ends)
  | line (hbroken : k.isBroken = true) (hk : k.kind ∈ memberStarts)
      (hplain : t.All (·.isPlainNode = true))

section EndsAt

variable {ends ends' : List TokenKind} {t u : TypeExpr} {k : Piece} {kind : TokenKind}

theorem EndsAt.child (h : EndsAt ends t k) (hu : u ∈ t.children) : EndsAt ends u k := by
  cases h with
  | mark hk => exact .mark hk
  | line hbroken hk hplain => exact .line hbroken hk (hplain.child hu)

theorem EndsAt.mono (h : EndsAt ends t k) (hends : ends ⊆ ends') : EndsAt ends' t k := by
  cases h with
  | mark hk => exact .mark (hends hk)
  | line hbroken hk hplain => exact .line hbroken hk hplain

theorem EndsAt.ne (h : EndsAt ends t k) (hends : kind ∉ ends) (hstarts : kind ∉ memberStarts) :
    k.kind ≠ kind := by
  rintro rfl
  cases h with
  | mark hk => exact hends hk
  | line hbroken hk hplain => exact hstarts hk

/-- What types do not end at stands on a line below. -/
theorem EndsAt.broken (h : EndsAt ends t k) (hends : k.kind ∉ ends) : k.isBroken = true := by
  cases h with
  | mark hk => exact absurd hk hends
  | line hbroken hk hplain => exact hbroken

theorem EndsAt.plain (h : EndsAt ends t k) (hends : k.kind ∉ ends) :
    t.All (·.isPlainNode = true) := by
  cases h with
  | mark hk => exact absurd hk hends
  | line hbroken hk hplain => exact hplain

end EndsAt

/-- Whether a parser of nested types reads the type. -/
structure Nests (type : Parser TypeExpr) (t : TypeExpr) : Prop where
  head : IsHead t.pieces
  reads : ∀ k ks, EndsAt typeEnds t k → Reads type (t.pieces ++ k :: ks) t (k :: ks)

section Rules

variable {type : Parser TypeExpr} {k : Piece} {ks : List Piece}

/-- The pieces of the bound of a type parameter. -/
def boundPieces : Option TypeExpr → List Piece
  | none => []
  | some t => [.word "extends"] ++ t.pieces

/-- The pieces of the default of a type parameter. -/
def defaultPieces : Option TypeExpr → List Piece
  | none => []
  | some t => [.mark .equals] ++ t.pieces

theorem pieces_typeParam (p : TypeParam) :
    p.pieces = .word p.name :: (boundPieces p.bound ++ defaultPieces p.default) := by
  obtain ⟨name, bound, default⟩ := p
  rw [TypeParam.pieces.eq_def]
  cases bound <;> cases default <;> simp [boundPieces, defaultPieces]

theorem reads_default {default : Option TypeExpr} (name : String) (bound : Option TypeExpr)
    (hdefault : ∀ t ∈ default, Nests type t) (hk : k.kind = .comma ∨ k.kind = .greaterThan) :
    Reads (do
        let default ← if ← accept .equals then attempt type else pure none
        return (⟨name, bound, default⟩ : TypeParam))
      (defaultPieces default ++ k :: ks) ⟨name, bound, default⟩ (k :: ks) := by
  have hends : k.kind ∈ typeEnds := by
    rcases hk with hk | hk <;> simp [hk, typeEnds]
  cases default with
  | none =>
    refine Reads.bind (reads_accept_none ?_) ?_
    · rcases hk with hk | hk <;> simp [hk]
    · exact Reads.bind (reads_pure none _) (reads_pure _ _)
  | some t =>
    refine Reads.bind (reads_accept rfl (by decide) (by simp)) ?_
    exact Reads.bind (reads_attempt ((hdefault t rfl).reads k ks (.mark hends))) (reads_pure _ _)

theorem reads_typeParam {p : TypeParam} (k : Piece) (ks : List Piece) (hp : ∀ t ∈ p.types, Nests type t)
    (hk : k.kind = .comma ∨ k.kind = .greaterThan) :
    Reads (typeParam type) (p.pieces ++ k :: ks) p (k :: ks) := by
  obtain ⟨name, bound, default⟩ := p
  have hbound : ∀ t ∈ bound, Nests type t := fun t ht ↦
    hp t (by simp [TypeParam.types, Option.mem_def.1 ht])
  have hdefault : ∀ t ∈ default, Nests type t := fun t ht ↦
    hp t (by simp [TypeParam.types, Option.mem_def.1 ht])
  have htail : ∀ b, Reads _ (defaultPieces default ++ k :: ks) _ (k :: ks) :=
    fun b ↦ reads_default name b hdefault hk
  have hbehind : ∃ q qs, defaultPieces default ++ k :: ks = q :: qs ∧ q.kind ∈ typeEnds := by
    cases default with
    | none => exact ⟨k, ks, rfl, by rcases hk with hk | hk <;> simp [hk, typeEnds]⟩
    | some t => exact ⟨_, _, rfl, by simp [Piece.mark, typeEnds]⟩
  obtain ⟨q, qs, hqs, hq⟩ := hbehind
  unfold typeParam
  rw [pieces_typeParam, List.cons_append, List.append_assoc, hqs]
  rw [hqs] at htail
  refine Yields.bind (yields_identifier (by simp)) ?_
  rintro ⟨_, span⟩ rfl
  cases bound with
  | none =>
    refine Reads.bind (reads_view (a := false) fun s hs ↦ ?_) ?_
    · have hq' : q.kind ≠ .identifier := by
        rintro h
        simp [h, typeEnds] at hq
      rw [boundPieces, List.nil_append] at hs
      rw [State.isWord_of_at hs]
      simp [hq']
    · exact Reads.bind (reads_pure none _) (htail none)
  | some t =>
    refine Reads.bind (reads_view (a := true) fun s hs ↦ ?_) ?_
    · rw [State.isWord_of_at hs]
      rfl
    · refine Reads.bind (reads_advance (by simp [Piece.word]) (by simp)) ?_
      exact Reads.bind (reads_attempt ((hbound t rfl).reads q qs (.mark hq))) (htail (some t))

/-- A list of type parameters, which may be missing. -/
theorem reads_typeParams {params : List TypeParam} (hparams : ∀ p ∈ params, ∀ t ∈ p.types, Nests type t)
    (hk : k.kind ≠ .lessThan) :
    Reads (typeParams type)
      (angledPieces (.mark .lessThan) (params.map TypeParam.pieces) ++ k :: ks) params (k :: ks) := by
  unfold typeParams
  cases params with
  | nil =>
    refine Reads.bind (reads_accept_none hk) ?_
    exact reads_pure _ _
  | cons p params =>
    have hpieces : angledPieces (.mark .lessThan) ((p :: params).map TypeParam.pieces) ++ k :: ks =
        .mark .lessThan :: (separated (.mark .comma) ((p :: params).map TypeParam.pieces) ++
          .mark .greaterThan :: k :: ks) := by
      simp [angledPieces]
    rw [hpieces]
    refine Reads.bind (reads_accept rfl (by decide) (by simp)) ?_
    rw [if_pos rfl]
    refine Reads.bind (reads_list_loop (fun read ↦ ?_) (fun p hp read ↦ ?_)
      (fun p hp read us hus ↦ ?_) []) ?_
    · refine Reads.bind reads_kind ?_
      exact reads_pure _ _
    · have hread := reads_typeParam (.mark .greaterThan) (k :: ks) (hparams p hp) (Or.inr rfl)
      rw [pieces_typeParam] at hread ⊢
      refine Reads.bind reads_kind ?_
      rw [if_neg (by simp [Piece.word])]
      refine Reads.bind (reads_attempt hread) ?_
      refine Reads.bind (reads_accept_none (by simp [Piece.mark])) ?_
      exact reads_pure _ _
    · have hread := reads_typeParam (.mark .comma) us (hparams p hp) (Or.inl rfl)
      rw [pieces_typeParam] at hread ⊢
      refine Reads.bind reads_kind ?_
      rw [if_neg (by simp [Piece.word])]
      refine Reads.bind (reads_attempt hread) ?_
      refine Reads.bind (reads_accept rfl (by decide) hus) ?_
      exact reads_pure _ _
    · refine Reads.bind (reads_expect rfl (by decide) (by simp)) ?_
      exact reads_pure _ _

theorem reads_annotatedType {t : TypeExpr} (ht : Nests type t) (hk : EndsAt typeEnds t k) :
    Reads (annotatedType type) (.mark .colon :: (t.pieces ++ k :: ks)) t (k :: ks) := by
  unfold annotatedType
  refine Reads.bind (reads_accept rfl (by decide) (by simp)) ?_
  exact ht.reads k ks hk

theorem reads_param {p : Param} (hp : Nests type p.type) (hk : EndsAt typeEnds p.type k) :
    Reads (param type) (p.pieces ++ k :: ks) p (k :: ks) := by
  obtain ⟨name, t, isOptional, isRest⟩ := p
  unfold param
  rw [Param.pieces]
  simp only [List.append_assoc, List.cons_append]
  refine Reads.bind (reads_accept_optionally (by decide) (by simp [Piece.word])) ?_
  refine Yields.bind (yields_identifier ?_) ?_
  · cases isOptional <;> simp [optionally]
  rintro ⟨_, span⟩ rfl
  refine Reads.bind (reads_accept_optionally (by decide) (by simp [Piece.mark])) ?_
  refine Reads.bind (reads_annotatedType hp hk) ?_
  exact reads_pure _ _

/-- Whether the result of a signature is read. -/
def NestsResult (type : Parser TypeExpr) (t : TypeExpr) : Prop :=
  ∀ k ks, EndsAt typeEnds t k → Reads (resultType type) (t.pieces ++ k :: ks) t (k :: ks)

/-- A result that is no predicate. -/
theorem Nests.result {t : TypeExpr} (h : Nests type t) (ht : t.IsReadable)
    (hproper : t.isProper = true) (hpredicate : t.startsPredicate = false) : NestsResult type t := by
  intro k ks hk
  have hword : k.kind = .identifier → k.isBroken = true :=
    fun hkind ↦ hk.broken (by simp [hkind, typeEnds])
  unfold resultType
  refine Reads.bind (reads_view (a := false) fun s hs ↦
    State.not_isPredicate_of_type ht hproper hpredicate hword hs) ?_
  exact h.reads k ks hk

theorem Nests.predicate {t : TypeExpr} (h : Nests type t) (parameter : String) :
    NestsResult type (.predicate parameter t) := by
  intro k ks hk
  unfold resultType
  rw [TypeExpr.pieces]
  simp only [List.append_assoc, List.cons_append]
  refine Reads.bind (reads_view (a := true) fun s hs ↦ ?_) ?_
  · have hjoined := hs.next.afterLineBreak rfl
    unfold State.isPredicate Token.isWord
    rw [hs.kind, hs.next.kind, hs.next.value, hjoined]
    rfl
  · refine Reads.bind (reads_view (a := parameter) fun s hs ↦ hs.value) ?_
    refine Reads.bind (reads_commit (by simp [Piece.word])) ?_
    refine Reads.bind (reads_advance (by simp [Piece.word, Piece.joined]) (by simp)) ?_
    refine Reads.bind (h.reads k ks (hk.child (List.mem_singleton.2 rfl))) ?_
    exact reads_pure _ _

theorem reads_memberResult {t : TypeExpr} (ht : NestsResult type t) (hk : EndsAt typeEnds t k) :
    Reads (memberResult type) (.mark .colon :: (t.pieces ++ k :: ks)) t (k :: ks) := by
  unfold memberResult
  refine Reads.bind (reads_accept rfl (by decide) (by simp)) ?_
  exact ht k ks hk

theorem reads_arrowResult {t : TypeExpr} (ht : NestsResult type t) (hk : EndsAt typeEnds t k) :
    Reads (arrowResult type) (.mark .arrow :: (t.pieces ++ k :: ks)) t (k :: ks) := by
  unfold arrowResult
  refine Reads.bind (reads_require rfl (by decide) (by simp)) ?_
  exact ht k ks hk

/-- Whether the types of a signature are read. -/
structure NestsSignature (type : Parser TypeExpr) (s : Signature) : Prop where
  typeParams : ∀ p ∈ s.typeParams, ∀ t ∈ p.types, Nests type t
  params : ∀ p ∈ s.params, Nests type p.type
  result : NestsResult type s.result

theorem isItem_param {p : Param} (hp : Nests type p.type) :
    IsItem (param type) .closeParen p.pieces p := by
  have hreads : ∀ k ks, k.kind = .comma ∨ k.kind = .closeParen →
      Reads (param type) (p.pieces ++ k :: ks) p (k :: ks) := by
    intro k ks hk
    refine reads_param hp (.mark ?_)
    rcases hk with hk | hk <;> simp [hk, typeEnds]
  obtain ⟨q, qs, hqs, hq⟩ : ∃ q qs, p.pieces = q :: qs ∧ q.kind ≠ .closeParen := by
    obtain ⟨name, t, isOptional, isRest⟩ := p
    rw [Param.pieces]
    cases isRest <;> exact ⟨_, _, rfl, by simp [Piece.mark, Piece.word]⟩
  rw [hqs] at hreads ⊢
  exact IsItem.of_cons hq hreads

theorem reads_signature {s : Signature} {separator : Piece} {result : Parser TypeExpr}
    (hs : NestsSignature type s)
    (hresult : Reads result (separator :: (s.result.pieces ++ k :: ks)) s.result (k :: ks)) :
    Reads (signature type result) (s.pieces separator ++ k :: ks) s (k :: ks) := by
  obtain ⟨params, args, t⟩ := s
  unfold signature
  rw [Signature.pieces]
  simp only [List.append_assoc, List.cons_append]
  refine Reads.bind (reads_typeParams hs.typeParams (by simp [Piece.mark])) ?_
  refine Reads.bind (reads_require rfl (by decide) (by simp)) ?_
  refine Reads.bind (reads_commaList (.mark .closeParen) (by simp [Piece.mark])
    fun p hp ↦ isItem_param (hs.params p hp)) ?_
  refine Reads.bind (reads_require rfl (by decide) (by simp)) ?_
  exact Reads.bind hresult (reads_pure _ _)

theorem reads_memberSignature {s : Signature} (ks : List Piece) (hs : NestsSignature type s)
    (hk : EndsAt typeEnds s.result k) :
    Reads (memberSignature type) (s.pieces (.mark .colon) ++ k :: ks) s (k :: ks) :=
  reads_signature hs (reads_memberResult hs.result hk)

theorem reads_arrowSignature {s : Signature} (ks : List Piece) (hs : NestsSignature type s)
    (hk : EndsAt typeEnds s.result k) :
    Reads (arrowSignature type) (s.pieces (.mark .arrow) ++ k :: ks) s (k :: ks) :=
  reads_signature hs (reads_arrowResult hs.result hk)

end Rules
end Parser
end TypeSurface
