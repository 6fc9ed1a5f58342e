import TypeSurface.Proofs.Syntax.Parser.Signatures

/-!
# Reading members

What the rules for members and for blocks of members give at their pieces.
-/

namespace TypeSurface
namespace Parser

section Rules

variable {type : Parser TypeExpr} {k : Piece} {ks : List Piece}

theorem pieces_propertyName (name : PropertyName) : ∃ p ps, name.pieces = p :: ps ∧
    (p.kind = .identifier ∨ p.kind = .stringLiteral ∨ p.kind = .numericLiteral ∨
      p.kind = .openBracket) := by
  cases name with
  | identifier name => exact ⟨_, _, rfl, Or.inl rfl⟩
  | string name => exact ⟨_, _, rfl, Or.inr (Or.inl rfl)⟩
  | numeric name => exact ⟨_, _, rfl, Or.inr (Or.inr (Or.inl rfl))⟩
  | computed name => exact ⟨_, _, rfl, Or.inr (Or.inr (Or.inr rfl))⟩

theorem reads_propertyName (name : PropertyName) (k : Piece) (ks : List Piece) :
    Reads propertyName (name.pieces ++ k :: ks) name (k :: ks) := by
  unfold propertyName
  cases name with
  | identifier name =>
    refine Yields.bind yields_token ?_
    rintro _ ⟨span, afterLineBreak, rfl⟩
    exact Reads.bind (reads_advance (by simp [Piece.word]) (by simp)) (reads_pure _ _)
  | string name =>
    refine Yields.bind yields_token ?_
    rintro _ ⟨span, afterLineBreak, rfl⟩
    exact Reads.bind (reads_advance (by simp [Piece.string]) (by simp)) (reads_pure _ _)
  | numeric name =>
    refine Yields.bind yields_token ?_
    rintro _ ⟨span, afterLineBreak, rfl⟩
    exact Reads.bind (reads_advance (by simp [Piece.number]) (by simp)) (reads_pure _ _)
  | computed name =>
    have hname := reads_dottedName (k :: ks) (Text.segments_ne_nil name)
      (by simp [Piece.mark] : (Piece.mark .closeBracket).kind ≠ .dot)
    rw [Text.intercalate_segments] at hname
    rw [PropertyName.pieces]
    simp only [List.append_assoc, List.cons_append, List.nil_append]
    refine Yields.bind yields_token ?_
    rintro _ ⟨span, afterLineBreak, rfl⟩
    refine Reads.bind (reads_advance (by simp [Piece.mark]) (by simp)) ?_
    refine Reads.bind hname ?_
    exact Reads.bind (reads_require rfl (by decide) (by simp)) (reads_pure _ _)

/-- A name with its question mark, in front of whatever else a member goes on with. -/
theorem Reads.name {β : Type} {name : PropertyName} {isOptional : Bool} {p : Piece}
    {ps rest : List Piece} {f : PropertyName → Bool → Parser β} {b : β}
    (hp : p.kind ≠ .question) (h : Reads (f name isOptional) (p :: ps) b rest) :
    Reads (propertyName >>= fun n ↦ accept .question >>= f n)
      (name.pieces ++ (optionally isOptional [.mark .question] ++ p :: ps)) b rest := by
  obtain ⟨q, qs, hqs⟩ : ∃ q qs, optionally isOptional [.mark .question] ++ p :: ps = q :: qs := by
    cases isOptional <;> exact ⟨_, _, rfl⟩
  have hread := reads_propertyName name q qs
  rw [← hqs] at hread
  exact Reads.bind hread (Reads.bind (reads_accept_optionally (by decide) hp) h)

theorem reads_namedProperty {name : PropertyName} {isReadonly isOptional : Bool} {t : TypeExpr}
    (ht : Nests type t) (hk : EndsAt typeEnds t k) :
    Reads (namedMember type isReadonly)
      (name.pieces ++ (optionally isOptional [.mark .question] ++
        .mark .colon :: (t.pieces ++ k :: ks)))
      (.property name isReadonly isOptional t) (k :: ks) := by
  unfold namedMember
  refine Reads.name (by simp [Piece.mark]) ?_
  refine Reads.bind reads_kind ?_
  rw [if_neg (by simp [Piece.mark, State.startsSignature])]
  refine Reads.bind (reads_annotatedType ht hk) ?_
  exact reads_pure _ _

theorem reads_namedMethod (name : PropertyName) (isOptional : Bool) {s : Signature}
    (ks : List Piece) (hs : NestsSignature type s) (hk : EndsAt typeEnds s.result k) :
    Reads (namedMember type false)
      (name.pieces ++ (optionally isOptional [.mark .question] ++
        (s.pieces (.mark .colon) ++ k :: ks)))
      (.method name isOptional s) (k :: ks) := by
  obtain ⟨p, ps, hps, hp⟩ := TypeExpr.pieces_signature_cons s (.mark .colon)
  have hstarts : State.startsSignature p.kind = true := by
    rcases hp with rfl | rfl <;> rfl
  have hquestion : p.kind ≠ .question := by
    rcases hp with rfl | rfl <;> simp [Piece.mark]
  have hsignature := reads_memberSignature ks hs hk
  rw [hps, List.cons_append] at hsignature ⊢
  unfold namedMember
  refine Reads.name hquestion ?_
  refine Reads.bind reads_kind ?_
  rw [if_pos (by simp [hstarts])]
  refine Reads.bind hsignature ?_
  exact reads_pure _ _

theorem reads_indexMember {isReadonly : Bool} {keyName : String} {keyType t : TypeExpr}
    (hkey : Nests type keyType) (ht : Nests type t) (hk : EndsAt typeEnds t k) :
    Reads (indexMember type isReadonly)
      (.mark .openBracket :: .word keyName :: .mark .colon ::
        (keyType.pieces ++ .mark .closeBracket :: .mark .colon :: (t.pieces ++ k :: ks)))
      (.index isReadonly keyName keyType t) (k :: ks) := by
  unfold indexMember
  refine Reads.bind (reads_advance (by simp [Piece.mark]) (by simp)) ?_
  refine Yields.bind (yields_identifier (by simp)) ?_
  rintro ⟨_, span⟩ rfl
  refine Reads.bind (reads_expect rfl (by decide) (by simp)) ?_
  refine Reads.bind (hkey.reads _ _ (.mark (by simp [Piece.mark, typeEnds]))) ?_
  refine Reads.bind (reads_require rfl (by decide) (by simp)) ?_
  refine Reads.bind (reads_require rfl (by decide) (by simp)) ?_
  refine Reads.bind (ht.reads k ks hk) ?_
  exact reads_pure _ _

theorem not_isIndexStart {name : PropertyName} {s : State} {ps : List Piece}
    (h : s.At (name.pieces ++ ps)) : s.isIndexStart = false := by
  cases name with
  | computed name =>
    obtain ⟨w, words, hwords⟩ := List.exists_cons_of_ne_nil (Text.segments_ne_nil name)
    have hpieces : ∃ q qs, (PropertyName.computed name).pieces ++ ps =
        .mark .openBracket :: .word w :: q :: qs ∧ q.kind ≠ .colon := by
      rw [PropertyName.pieces, hwords, dotted, List.map_cons, separated_cons]
      cases words with
      | nil => exact ⟨_, _, rfl, by simp [Piece.mark]⟩
      | cons v words => exact ⟨_, _, rfl, by simp [Piece.mark]⟩
    obtain ⟨q, qs, hqs, hq⟩ := hpieces
    rw [hqs] at h
    have hfirst := h.first.1.kind
    have hsecond := h.second.1.kind
    unfold State.isIndexStart
    simp [hfirst, hsecond, hq, Piece.word]
  | identifier name =>
    unfold State.isIndexStart
    rw [h.kind]
    rfl
  | string name =>
    unfold State.isIndexStart
    rw [h.kind]
    rfl
  | numeric name =>
    unfold State.isIndexStart
    rw [h.kind]
    rfl

theorem reads_unmodified {name : PropertyName} {isReadonly : Bool} {m : MemberForm}
    {ps us : List Piece} (h : Reads (namedMember type isReadonly) (name.pieces ++ ps) m us) :
    Reads (plainMember type isReadonly) (name.pieces ++ ps) m us := by
  refine Reads.bind (reads_view (a := false) fun s hs ↦ not_isIndexStart hs) ?_
  exact h

/-- Whether the types of a member are read. -/
def NestsForm (type : Parser TypeExpr) : MemberForm → Prop
  | .property _ _ _ t => Nests type t
  | .method _ _ s | .call s | .construct s => NestsSignature type s
  | .index _ _ keyType t => Nests type keyType ∧ Nests type t

/-- A name with a mark, a colon or a signature behind it is no modifier, and starts no construct
signature if it is not `new`. -/
theorem not_modifier_of_named {name : PropertyName} {q : Piece} {qs : List Piece} {s : State}
    (hq : q.kind ∉ nameStarts)
    (hnew : name = .identifier "new" → State.startsSignature q.kind = false)
    (h : s.At (name.pieces ++ q :: qs)) : s.isConstruct = false ∧ s.isReadonlyModifier = false := by
  obtain ⟨p, ps, hps, hp⟩ := pieces_propertyName name
  cases name with
  | identifier name =>
    have hconstruct := State.isConstruct_of_at h
    have hnext := State.isNextIn_of_at h nameStarts
    refine ⟨?_, ?_⟩
    · rw [hconstruct]
      by_cases hname : name = "new"
      · simp [Piece.word, hnew (by rw [hname])]
      · simp [Piece.word, hname]
    · unfold State.isReadonlyModifier
      unfold nameStarts at hnext hq
      rw [hnext]
      simp [hq]
  | _ =>
    have hword : ∀ text, s.isWord text = false := by
      intro text
      rw [PropertyName.pieces] at h
      rw [State.isWord_of_at h]
      simp [Piece.string, Piece.number, Piece.mark]
    unfold State.isConstruct State.isReadonlyModifier
    simp [hword]

theorem reads_named {name : PropertyName} {q : Piece} {qs : List Piece} {m : MemberForm}
    {us : List Piece} (hq : q.kind ∉ nameStarts)
    (hnew : name = .identifier "new" → State.startsSignature q.kind = false)
    (h : Reads (namedMember type false) (name.pieces ++ q :: qs) m us) :
    Reads (memberForm type) (name.pieces ++ q :: qs) m us := by
  have hlookahead : ∀ s : State, s.At (name.pieces ++ q :: qs) →
      s.isConstruct = false ∧ s.isReadonlyModifier = false :=
    fun s hs ↦ not_modifier_of_named hq hnew hs
  obtain ⟨p, ps, hps, hp⟩ := pieces_propertyName name
  have hstarts : State.startsSignature p.kind = false := by
    rcases hp with hp | hp | hp | hp <;> simp [hp, State.startsSignature]
  have hkind : Reads (view State.kind) (name.pieces ++ q :: qs) p.kind
      (name.pieces ++ q :: qs) := by
    rw [hps]
    exact reads_kind
  unfold memberForm
  refine Reads.bind hkind ?_
  rw [if_neg (by simp [hstarts])]
  refine Reads.bind (reads_view (a := false) fun s hs ↦ (hlookahead s hs).1) ?_
  rw [if_neg (by simp)]
  refine Reads.bind (reads_view (a := false) fun s hs ↦ (hlookahead s hs).2) ?_
  exact reads_unmodified h

theorem reads_readonly {p : Piece} {ps : List Piece} {m : MemberForm} {us : List Piece}
    (hp : p.kind ∈ nameStarts)
    (h : Reads (plainMember type true) (p :: ps) m us) :
    Reads (memberForm type) (.word "readonly" :: p :: ps) m us := by
  unfold memberForm
  refine Reads.bind reads_kind ?_
  rw [if_neg (by simp [Piece.word, State.startsSignature])]
  refine Reads.bind (reads_view (a := false) fun s hs ↦ ?_) ?_
  · rw [State.isConstruct_of_at hs]
    simp [Piece.word]
  rw [if_neg (by simp)]
  refine Reads.bind (reads_view (a := true) fun s hs ↦ ?_) ?_
  · have hnext := State.isNextIn_of_at hs nameStarts
    unfold nameStarts at hnext hp
    unfold State.isReadonlyModifier
    rw [State.isWord_of_at hs, hnext]
    simp [Piece.word, hp]
  rw [if_pos rfl]
  refine Reads.bind (reads_advance (by simp [Piece.word]) (by simp)) ?_
  exact h

theorem reads_index {isReadonly : Bool} {keyName : String} {ps us : List Piece} {m : MemberForm}
    (h : Reads (indexMember type isReadonly)
      (.mark .openBracket :: .word keyName :: .mark .colon :: ps) m us) :
    Reads (plainMember type isReadonly)
      (.mark .openBracket :: .word keyName :: .mark .colon :: ps) m us := by
  refine Reads.bind (reads_view (a := true) fun s hs ↦ ?_) ?_
  · have hfirst := hs.first.1.kind
    have hsecond := hs.second.1.kind
    unfold State.isIndexStart
    rw [hs.kind]
    simp [hfirst, hsecond, Piece.mark, Piece.word]
  · exact h

theorem reads_memberForm {m : MemberForm} (ks : List Piece) (hm : NestsForm type m)
    (hnew : m.isBareNew = false) (hk : ∀ t ∈ m.types, EndsAt typeEnds t k) :
    Reads (memberForm type) (m.pieces ++ k :: ks) m (k :: ks) := by
  cases m with
  | property name isReadonly isOptional t =>
    have hnamed : ∀ flag, Reads (namedMember type flag) _ (.property name flag isOptional t)
        (k :: ks) := fun flag ↦ reads_namedProperty hm (hk t (by simp [MemberForm.types]))
    rw [MemberForm.pieces]
    simp only [List.append_assoc, List.cons_append, List.nil_append]
    cases isReadonly with
    | false =>
      rw [optionally, if_neg (by simp), List.nil_append]
      cases isOptional with
      | false => exact reads_named (by simp [Piece.mark, nameStarts]) (fun _ ↦ rfl) (hnamed false)
      | true => exact reads_named (by simp [Piece.mark, nameStarts]) (fun _ ↦ rfl) (hnamed false)
    | true =>
      obtain ⟨p, ps, hps, hp⟩ := pieces_propertyName name
      have hread := reads_unmodified (hnamed true)
      rw [hps, List.cons_append] at hread ⊢
      refine reads_readonly ?_ hread
      rcases hp with hp | hp | hp | hp <;> simp [hp, nameStarts]
  | method name isOptional s =>
    have hnamed := reads_namedMethod name isOptional ks hm (hk _ (Signature.result_mem_types s))
    rw [MemberForm.pieces]
    simp only [List.append_assoc]
    cases isOptional with
    | true => exact reads_named (by simp [Piece.mark, nameStarts]) (fun _ ↦ rfl) hnamed
    | false =>
      obtain ⟨p, ps, hps, hp⟩ := TypeExpr.pieces_signature_cons s (.mark .colon)
      rw [hps] at hnamed ⊢
      refine reads_named ?_ (fun hname ↦ ?_) hnamed
      · rcases hp with rfl | rfl <;> simp [Piece.mark, nameStarts]
      · subst hname
        cases hnew
  | index isReadonly keyName keyType t =>
    have hindex : ∀ flag, Reads _ _ (MemberForm.index flag keyName keyType t) (k :: ks) :=
      fun flag ↦ reads_index (reads_indexMember hm.1 hm.2 (hk t (by simp [MemberForm.types])))
    rw [MemberForm.pieces]
    simp only [List.append_assoc, List.cons_append, List.nil_append]
    cases isReadonly with
    | true => exact reads_readonly (by simp [Piece.mark, nameStarts]) (hindex true)
    | false =>
      rw [optionally, if_neg (by simp), List.nil_append]
      unfold memberForm
      refine Reads.bind reads_kind ?_
      rw [if_neg (by simp [Piece.mark, State.startsSignature])]
      refine Reads.bind (reads_view (a := false) fun s hs ↦ ?_) ?_
      · rw [State.isConstruct_of_at hs]
        rfl
      rw [if_neg (by simp)]
      refine Reads.bind (reads_view (a := false) fun s hs ↦ ?_) ?_
      · unfold State.isReadonlyModifier
        rw [State.isWord_of_at hs]
        rfl
      exact hindex false
  | call s =>
    have hsignature := reads_memberSignature ks hm (hk _ (Signature.result_mem_types s))
    obtain ⟨p, ps, hps, hp⟩ := TypeExpr.pieces_signature_cons s (.mark .colon)
    unfold memberForm
    rw [MemberForm.pieces]
    rw [hps] at hsignature ⊢
    refine Reads.bind reads_kind ?_
    rw [if_pos (by rcases hp with rfl | rfl <;> rfl)]
    exact Reads.bind hsignature (reads_pure _ _)
  | construct s =>
    have hsignature := reads_memberSignature ks hm (hk _ (Signature.result_mem_types s))
    obtain ⟨p, ps, hps, hp⟩ := TypeExpr.pieces_signature_cons s (.mark .colon)
    unfold memberForm
    rw [MemberForm.pieces]
    rw [hps] at hsignature ⊢
    refine Reads.bind reads_kind ?_
    rw [if_neg (by simp [Piece.word, State.startsSignature])]
    refine Reads.bind (reads_isConstruct hp) ?_
    rw [if_pos rfl]
    refine Reads.bind (reads_advance (by simp [Piece.word]) (by simp)) ?_
    exact Reads.bind hsignature (reads_pure _ _)

/-- What may stand behind a member, apart from another one on a line below. -/
def blockEnds : List TokenKind := [.comma, .closeBrace, .semicolon]

theorem types_ne_nil (m : MemberForm) : m.types ≠ [] := by
  cases m <;> simp [MemberForm.types, Signature.types]

/-- A member in front of a separator, of the end of the block, or of a member on a line below. -/
theorem yields_member {m : MemberForm} (ks : List Piece) (hm : NestsForm type m)
    (hnew : m.isBareNew = false) (hk : ∀ t ∈ m.types, EndsAt blockEnds t k) :
    Yields (member type) (m.pieces ++ k :: ks) (·.form = m) (k :: ks) := by
  have hform := reads_memberForm ks hm hnew fun t ht ↦ (hk t ht).mono (by decide)
  obtain ⟨t, ht⟩ := List.exists_mem_of_ne_nil _ (types_ne_nil m)
  unfold member
  refine Yields.bind (yields_view _ _) fun start _ ↦ ?_
  refine Reads.bind hform ?_
  refine Yields.bind (yields_view _ _) fun span _ ↦ ?_
  refine Yields.bind yields_matches fun token htoken ↦ ?_
  have hend : ([.semicolon, .comma, .closeBrace, .endOfFile].contains token.kind ||
      token.afterLineBreak) = true := by
    rw [htoken.kind]
    cases hk t ht with
    | mark hkind =>
      have hends : ∀ kind ∈ blockEnds,
          [TokenKind.semicolon, .comma, .closeBrace, .endOfFile].contains kind = true := by decide
      rw [hends _ hkind, Bool.true_or]
    | line hbroken hkind hplain => rw [htoken.broken hbroken, Bool.or_true]
  rw [if_pos hend]
  exact yields_pure rfl

/-! ### Blocks -/

theorem pieces_memberForm_cons (m : MemberForm) :
    ∃ p ps, m.pieces = p :: ps ∧ p.kind ∈ memberStarts := by
  have hsignature : ∀ s : Signature, ∃ p ps, s.pieces (.mark .colon) = p :: ps ∧
      p.kind ∈ memberStarts := by
    intro s
    obtain ⟨p, ps, hps, hp⟩ := TypeExpr.pieces_signature_cons s (.mark .colon)
    exact ⟨p, ps, hps, by rcases hp with rfl | rfl <;> simp [Piece.mark, memberStarts]⟩
  have hname : ∀ (name : PropertyName) (us : List Piece), ∃ p ps, name.pieces ++ us = p :: ps ∧
      p.kind ∈ memberStarts := by
    intro name us
    obtain ⟨p, ps, hps, hp⟩ := pieces_propertyName name
    rw [hps]
    refine ⟨p, ps ++ us, rfl, ?_⟩
    rcases hp with hp | hp | hp | hp <;> simp [hp, memberStarts, nameStarts]
  rw [MemberForm.pieces.eq_def]
  cases m with
  | property name isReadonly isOptional t =>
    cases isReadonly with
    | true => exact ⟨_, _, rfl, by simp [Piece.word, memberStarts, nameStarts]⟩
    | false =>
      simp only [List.append_assoc, optionally, Bool.false_eq_true, if_false, List.nil_append]
      exact hname name _
  | method name isOptional s =>
    simp only [List.append_assoc]
    exact hname name _
  | index isReadonly keyName keyType t =>
    cases isReadonly with
    | true => exact ⟨_, _, rfl, by simp [Piece.word, memberStarts, nameStarts]⟩
    | false => exact ⟨_, _, rfl, by simp [Piece.mark, memberStarts, nameStarts]⟩
  | call s => exact hsignature s
  | construct s => exact ⟨_, _, rfl, by simp [Piece.word, memberStarts, nameStarts]⟩

theorem isInBlock_of_at {s : State} {p : Piece} {ps : List Piece} (hp : p.kind ≠ .closeBrace)
    (hending : p.kind ≠ .endOfFile) (h : s.At (p :: ps)) : isInBlock s = true := by
  unfold isInBlock
  rw [h.kind, h.isAbandoned]
  simp [hp, hending]

theorem not_isMemberSeparator {kind : TokenKind} (h : kind ∈ memberStarts) :
    ¬IsMemberSeparator kind := by
  rintro (rfl | rfl) <;> simp [memberStarts, nameStarts] at h

theorem yields_blockRound {m : MemberForm} {members : List PlacedMember} (hm : NestsForm type m)
    (hnew : m.isBareNew = false) (hk : ∀ t ∈ m.types, EndsAt blockEnds t k) :
    Yields (blockRound type members) (m.pieces ++ k :: ks)
      (fun read ↦ read.map (·.form) = members.map (·.form) ++ [m]) (k :: ks) := by
  have hmember := yields_member ks hm hnew hk
  obtain ⟨p, ps, hps, hp⟩ := pieces_memberForm_cons m
  rw [hps] at hmember ⊢
  refine (yields_itemRound (not_isMemberSeparator hp) hmember).imp ?_
  rintro _ ⟨placed, rfl, rfl⟩
  exact List.map_append

section Rounds

variable {members : List PlacedMember} {us : List Piece} {Q : List PlacedMember → Prop}

theorem yields_members_cons {m : MemberForm} (hm : NestsForm type m) (hnew : m.isBareNew = false)
    (hk : ∀ t ∈ m.types, EndsAt blockEnds t k)
    (hnext : ∀ read : List PlacedMember, read.map (·.form) = members.map (·.form) ++ [m] →
      Yields (loopWhile isInBlock (blockRound type) read) (k :: ks) Q us) :
    Yields (loopWhile isInBlock (blockRound type) members) (m.pieces ++ k :: ks) Q us := by
  obtain ⟨p, ps, hps, hp⟩ := pieces_memberForm_cons m
  have hkind : p.kind ≠ .closeBrace ∧ p.kind ≠ .endOfFile := by
    constructor <;>
    · rintro h
      simp [h, memberStarts, nameStarts] at hp
  refine yields_loopWhile_again (fun s hs ↦ ?_) (yields_blockRound hm hnew hk) ?_ hnext
  · rw [hps] at hs
    exact isInBlock_of_at hkind.1 hkind.2 hs
  · simp only [hps, List.length_append, List.length_cons]
    omega

theorem yields_members_separator {kind : TokenKind} (hkind : IsMemberSeparator kind)
    (hks : ks ≠ []) (hnext : Yields (loopWhile isInBlock (blockRound type) members) ks Q us) :
    Yields (loopWhile isInBlock (blockRound type) members) (.mark kind :: ks) Q us := by
  have hends : kind ≠ .closeBrace ∧ kind ≠ .endOfFile := by
    rcases hkind with rfl | rfl <;> decide
  have hround : Reads (blockRound type members) (.mark kind :: ks) members ks := by
    refine Reads.bind reads_kind ?_
    rw [if_pos (show IsMemberSeparator (Piece.mark kind).kind from hkind)]
    exact Reads.bind (reads_advance hends.2 hks) (reads_pure _ _)
  refine yields_loopWhile_again (fun s hs ↦ ?_) hround (Nat.lt_succ_self _) fun _ h ↦ h ▸ hnext
  exact isInBlock_of_at hends.1 hends.2 hs

theorem yields_members_done (hmembers : Q members) :
    Yields (loopWhile isInBlock (blockRound type) members) (.mark .closeBrace :: ks) Q
      (.mark .closeBrace :: ks) := by
  refine yields_loopWhile_done (fun s hs ↦ ?_) hmembers
  unfold isInBlock
  rw [hs.kind]
  rfl

end Rounds

theorem yields_members {forms : List MemberForm} (members : List PlacedMember)
    (hforms : ∀ m ∈ forms, NestsForm type m ∧ m.isBareNew = false) :
    Yields (loopWhile isInBlock (blockRound type) members)
      ((forms.map fun m ↦ m.pieces ++ [.mark .semicolon]).flatten ++ .mark .closeBrace :: ks)
      (fun read ↦ read.map (·.form) = members.map (·.form) ++ forms) (.mark .closeBrace :: ks) := by
  induction forms generalizing members with
  | nil => exact yields_members_done (by simp)
  | cons m forms ih =>
    obtain ⟨⟨hm, hnew⟩, hforms⟩ := List.forall_mem_cons.1 hforms
    simp only [List.map_cons, List.flatten_cons, List.append_assoc, List.cons_append,
      List.nil_append]
    refine yields_members_cons hm hnew (fun t _ ↦ .mark (by simp [Piece.mark, blockEnds])) ?_
    intro read hread
    refine yields_members_separator (Or.inl rfl) (by simp) ?_
    refine Yields.imp (ih read hforms) fun all hall ↦ ?_
    rw [hall, hread, List.append_assoc, List.singleton_append]

theorem yields_memberBlock {forms : List MemberForm} (k : Piece) (ks : List Piece)
    (hforms : ∀ m ∈ forms, NestsForm type m ∧ m.isBareNew = false) :
    Yields (memberBlock type) (blockPieces forms ++ k :: ks) (·.map (·.form) = forms)
      (k :: ks) := by
  rw [memberBlock, blockPieces]
  simp only [List.append_assoc, List.singleton_append]
  refine Reads.bind (reads_require rfl (by decide) (by simp)) ?_
  refine Yields.bind (yields_members [] hforms) fun members hmembers ↦ ?_
  refine Reads.bind (reads_expect rfl (by decide) (by simp)) ?_
  exact yields_pure hmembers

end Rules
end Parser
end TypeSurface
