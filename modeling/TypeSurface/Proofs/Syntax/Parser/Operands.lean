import TypeSurface.Proofs.Syntax.Parser.Members

/-!
# Reading operands

What the rules for types without operators give at their pieces, provided that the types between
brackets are read.
-/

namespace TypeSurface

/-- Whether a type that stands by itself may be read by a reader that goes so deep. -/
structure TypeExpr.IsReadableBelow (depth : Nat) (t : TypeExpr) : Prop where
  readable : t.IsReadable
  start : t.startsNew = false
  shallow : t.depth < depth

namespace Parser

/-- Whether a parser of nested types reads the types that are not too deep, also in parentheses. -/
structure NestsBelow (type : Parser TypeExpr) (depth : Nat) : Prop where
  nests : ∀ t : TypeExpr, t.IsWhole → t.depth < depth → Nests type t
  encloses : ∀ t : TypeExpr, t.IsWhole → t.isLoosePostfixOperand = true → t.depth + 1 < depth →
    ∀ k ks, k.kind ∈ typeEnds → Reads type (enclosed true t.pieces ++ k :: ks) t (k :: ks)

section Nesting

variable {type : Parser TypeExpr} {depth : Nat}

theorem NestsBelow.proper (h : NestsBelow type depth) {t : TypeExpr} (ht : t.IsReadableBelow depth)
    (hproper : t.isProper = true) : Nests type t :=
  h.nests t ⟨ht.readable, hproper, ht.start⟩ ht.shallow

/-- A result, which may be a predicate. -/
theorem NestsBelow.result (h : NestsBelow type depth) {t : TypeExpr} (ht : t.IsReadableBelow depth)
    (hwritten : (t.isPredicate || t.isProper) = true) (hpredicate : t.startsPredicate = false) :
    NestsResult type t := by
  cases hproper : t.isProper with
  | true => exact (h.proper ht hproper).result ht.readable hproper hpredicate
  | false =>
    rw [hproper, Bool.or_false] at hwritten
    cases t with
    | predicate parameter u =>
      have hu := ht.readable.written
      have hdepth := ht.shallow
      simp only [TypeExpr.isWrittenNode, Bool.and_eq_true] at hu
      rw [TypeExpr.depth] at hdepth
      exact (h.nests u (ht.readable.whole (List.mem_singleton.2 rfl) hu.2) hdepth).predicate parameter
    | _ => cases hwritten

theorem NestsBelow.signature (h : NestsBelow type depth) {s : Signature}
    (hwritten : s.isWritten = true)
    (htypes : ∀ t ∈ s.types, t.IsReadableBelow depth)
    (hresult : s.result.startsPredicate = false) : NestsSignature type s := by
  obtain ⟨typeParams, params, result⟩ := s
  simp only [Signature.isWritten, Bool.and_eq_true, List.all_eq_true] at hwritten
  simp only [Signature.types, List.mem_append, List.mem_flatMap, List.mem_map,
    List.mem_singleton] at htypes
  refine ⟨fun p hp t ht ↦ ?_, fun p hp ↦ ?_, ?_⟩
  · have hp' := hwritten.1.1 p hp
    simp only [TypeParam.isWritten, Bool.and_eq_true, List.all_eq_true] at hp'
    exact h.proper (htypes t (Or.inl (Or.inl ⟨p, hp, ht⟩))) (hp'.2 t ht)
  · have hp' := hwritten.1.2 p hp
    simp only [Param.isWritten, Bool.and_eq_true] at hp'
    exact h.proper (htypes p.type (Or.inl (Or.inr ⟨p, hp, rfl⟩))) hp'.2
  · exact h.result (htypes result (Or.inr rfl)) hwritten.2 hresult

theorem NestsBelow.form (h : NestsBelow type depth) {m : MemberForm} (hwritten : m.isWritten = true)
    (htypes : ∀ t ∈ m.types, t.IsReadableBelow depth)
    (hresults : ∀ t ∈ m.results, t.startsPredicate = false) : NestsForm type m := by
  cases m with
  | property name isReadonly isOptional t =>
    simp only [MemberForm.isWritten, Bool.and_eq_true] at hwritten
    exact h.proper (htypes t (by simp [MemberForm.types])) hwritten.2
  | method name isOptional s =>
    simp only [MemberForm.isWritten, Bool.and_eq_true] at hwritten
    exact h.signature hwritten.2 htypes (hresults _ (List.mem_singleton.2 rfl))
  | index isReadonly keyName keyType t =>
    simp only [MemberForm.isWritten, Bool.and_eq_true] at hwritten
    exact ⟨h.proper (htypes keyType (by simp [MemberForm.types])) hwritten.1.2,
      h.proper (htypes t (by simp [MemberForm.types])) hwritten.2⟩
  | call s => exact h.signature hwritten htypes (hresults _ (List.mem_singleton.2 rfl))
  | construct s => exact h.signature hwritten htypes (hresults _ (List.mem_singleton.2 rfl))

end Nesting

/-! ### Operands without operators -/

section Primary

variable {type : Parser TypeExpr} {depth : Nat} {k : Piece} {ks : List Piece}

theorem not_typeEnds_of_isHead {p : Piece} {ps : List Piece} (h : IsHead (p :: ps)) :
    p.kind ∉ typeEnds := by
  cases h with
  | symbol hp =>
    simp only [symbolStarts, List.mem_cons, List.not_mem_nil, or_false] at hp
    rcases hp with hp | hp | hp | hp | hp | hp | hp <;> simp [hp, typeEnds]
  | word hw => simp [Piece.word, typeEnds]
  | words hw => simp [Piece.word, typeEnds]

theorem Nests.isItem {closing : TokenKind} {t : TypeExpr} (h : Nests type t)
    (hclosing : closing ∈ typeEnds) : IsItem type closing t.pieces t := by
  have hreads := h.reads
  obtain ⟨p, ps, hps⟩ := List.exists_cons_of_ne_nil h.head.ne_nil
  have hhead := h.head
  rw [hps] at hreads hhead ⊢
  refine IsItem.of_cons ?_ fun k ks hk ↦ hreads k ks (.mark ?_)
  · rintro rfl
    exact not_typeEnds_of_isHead hhead hclosing
  · rcases hk with hk | hk
    · simp [hk, typeEnds]
    · exact hk ▸ hclosing

theorem reads_typeReference (name : String) {args : List TypeExpr} (ks : List Piece)
    (hargs : ∀ t ∈ args, Nests type t) (hdot : k.kind ≠ .dot)
    (hangle : k.kind = .lessThan → k.isBroken = true) :
    Reads (typeReference type) ((TypeExpr.reference name args).pieces ++ k :: ks)
      (.reference name args) (k :: ks) := by
  unfold typeReference
  rw [TypeExpr.pieces, List.append_assoc]
  cases args with
  | nil =>
    have hname := reads_dottedName ks (Text.segments_ne_nil name) hdot
    rw [Text.intercalate_segments] at hname
    refine Reads.bind hname ?_
    refine Yields.bind yields_matches fun token htoken ↦ ?_
    rw [if_neg ?_]
    · exact reads_pure _ _
    · rw [htoken.kind]
      by_cases hkind : k.kind = .lessThan
      · simp [htoken.broken (hangle hkind)]
      · simp [hkind]
  | cons t args =>
    have hpieces : angledPieces (Piece.mark .lessThan).joined ((t :: args).map TypeExpr.pieces) ++
        k :: ks = (Piece.mark .lessThan).joined ::
          (separated (.mark .comma) ((t :: args).map TypeExpr.pieces) ++
            .mark .greaterThan :: k :: ks) := by
      simp [angledPieces]
    have hname := reads_dottedName
      (separated (.mark .comma) ((t :: args).map TypeExpr.pieces) ++ .mark .greaterThan :: k :: ks)
      (Text.segments_ne_nil name)
      (by simp [Piece.mark, Piece.joined] : (Piece.mark .lessThan).joined.kind ≠ .dot)
    rw [Text.intercalate_segments] at hname
    rw [hpieces]
    refine Reads.bind hname ?_
    refine Yields.bind yields_matches fun token htoken ↦ ?_
    rw [if_pos (by simp [htoken.kind, htoken.afterLineBreak rfl, Piece.mark, Piece.joined])]
    refine Reads.bind (reads_advance (by simp [Piece.mark, Piece.joined]) (by simp)) ?_
    refine Reads.bind (reads_commaList (.mark .greaterThan) (by simp [Piece.mark])
      fun u hu ↦ (hargs u hu).isItem (by simp [Piece.mark, typeEnds])) ?_
    refine Reads.bind (reads_require rfl (by decide) (by simp)) ?_
    exact reads_pure _ _

theorem reads_parenthesized {t : TypeExpr} (ht : Nests type t) :
    Reads (primaryType type) (enclosed true t.pieces ++ k :: ks) t (k :: ks) := by
  unfold primaryType
  rw [enclosed, if_pos rfl]
  simp only [List.append_assoc, List.cons_append, List.nil_append]
  refine Yields.bind yields_token ?_
  rintro _ ⟨span, afterLineBreak, rfl⟩
  refine Reads.bind (reads_advance (by simp [Piece.mark]) (by simp)) ?_
  refine Reads.bind (ht.reads _ _ (.mark (by simp [Piece.mark, typeEnds]))) ?_
  refine Reads.bind (reads_expect rfl (by decide) (by simp)) ?_
  exact reads_pure _ _

/-- A type is not taken for the name of a tuple element. -/
theorem not_isElementName {ps : List Piece} {q : Piece} {qs : List Piece} {s : State}
    (hps : IsHead ps) (hq : q.kind ≠ .colon)
    (hquestion : q.kind = .question → ∃ r rs, qs = r :: rs ∧ r.kind ≠ .colon)
    (h : s.At (ps ++ q :: qs)) : s.isElementName = false := by
  unfold State.isElementName
  cases hps with
  | symbol hp =>
    have hkind : s.kind ≠ .identifier := by
      rw [h.kind]
      rintro hid
      simp [hid, symbolStarts] at hp
    simp [hkind]
  | word hw =>
    have hfirst := h.first.1.kind
    by_cases hkind : q.kind = .question
    · obtain ⟨r, rs, rfl, hr⟩ := hquestion hkind
      have hsecond := h.second.1.kind
      simp [hfirst, hsecond, hkind, hr]
    · cases hkind' : q.kind <;> simp [hfirst, hkind'] <;> contradiction
  | words w hq' =>
    have hfirst := h.first.1.kind
    simp only [wordFollowers, List.mem_cons, List.not_mem_nil, or_false] at hq'
    rcases hq' with hq' | hq' | hq' | hq' | hq' | hq' | hq' | hq' <;> simp [hfirst, hq']

/-- The type of a tuple element, which an optional mark may need in parentheses. -/
theorem reads_elementType (ks : List Piece) (h : NestsBelow type depth) {t : TypeExpr}
    {isOptional isRest : Bool} (ht : t.IsWhole)
    (hdepth : (TupleElement.mk t isOptional isRest).depth ≤ depth) (hk : k.kind ∈ typeEnds) :
    Reads type (enclosed (isOptional && t.isLoosePostfixOperand) t.pieces ++ k :: ks) t
      (k :: ks) := by
  rw [TupleElement.depth] at hdepth
  cases hloose : isOptional && t.isLoosePostfixOperand with
  | true =>
    rw [hloose, if_pos rfl] at hdepth
    rw [Bool.and_eq_true] at hloose
    exact h.encloses t ht hloose.2 (by omega) k ks hk
  | false => exact (h.nests t ht (by omega)).reads k ks (.mark hk)

theorem reads_rest {isRest : Bool} {ps : List Piece} (h : IsHead ps)
    (ks : List Piece) :
    Reads (accept .ellipsis) (optionally isRest [.mark .ellipsis] ++ (ps ++ ks)) isRest
      (ps ++ ks) := by
  cases h with
  | symbol hp =>
    refine reads_accept_optionally (by decide) ?_
    rintro hkind
    simp [hkind, symbolStarts] at hp
  | word hw => exact reads_accept_optionally (by decide) (by simp [Piece.word])
  | words hw => exact reads_accept_optionally (by decide) (by simp [Piece.word])

theorem reads_tupleElement (h : NestsBelow type depth) {e : TupleElement}
    (he : e.type.IsWhole) (hdepth : e.depth ≤ depth)
    (hk : k.kind = .comma ∨ k.kind = .closeBracket) :
    Reads (tupleElement type) (e.pieces ++ k :: ks) e (k :: ks) := by
  obtain ⟨t, isOptional, isRest⟩ := e
  have hends : k.kind ∈ typeEnds := by
    rcases hk with hk | hk <;> simp [hk, typeEnds]
  have hhead : IsHead (enclosed (isOptional && t.isLoosePostfixOperand) t.pieces) :=
    isHead_enclosed fun _ ↦ TypeExpr.isHead_pieces he.readable he.proper
  -- What stands behind the type: the mark, or the end of the element.
  obtain ⟨q, qs, hqs, hq, hquestion⟩ : ∃ q qs,
      optionally isOptional [.mark .question] ++ k :: ks = q :: qs ∧ q.kind ∈ typeEnds ∧
        (q.kind = .question → ∃ r rs, qs = r :: rs ∧ r.kind ≠ .colon) := by
    cases isOptional with
    | true =>
      refine ⟨_, _, rfl, by simp [Piece.mark, typeEnds], fun _ ↦ ⟨k, ks, rfl, ?_⟩⟩
      rcases hk with hk | hk <;> simp [hk]
    | false =>
      refine ⟨_, _, rfl, hends, fun hq ↦ ?_⟩
      rcases hk with hk | hk <;> simp [hk] at hq
  have hcolon : q.kind ≠ .colon := by
    rintro hcolon
    simp [hcolon, typeEnds] at hq
  have hread := reads_elementType qs h he hdepth hq
  have hmark : Reads (accept .question) (q :: qs) isOptional (k :: ks) := by
    rw [← hqs]
    refine reads_accept_optionally (by decide) ?_
    rcases hk with hk | hk <;> simp [hk]
  unfold tupleElement
  rw [TupleElement.pieces, List.append_assoc, List.append_assoc, hqs]
  refine Reads.bind (reads_rest hhead (q :: qs)) ?_
  refine Reads.bind (reads_view (a := false) fun s hs ↦
    not_isElementName hhead hcolon hquestion hs) ?_
  refine Reads.bind (reads_pure false _) ?_
  refine Reads.bind hread ?_
  refine Reads.bind hmark ?_
  exact reads_pure _ _

theorem pieces_tupleElement_cons {e : TupleElement} (he : e.type.IsWhole) :
    ∃ p ps, e.pieces = p :: ps ∧ p.kind ≠ .closeBracket := by
  obtain ⟨t, isOptional, isRest⟩ := e
  rw [TupleElement.pieces]
  cases isRest with
  | true => exact ⟨_, _, rfl, by simp [Piece.mark]⟩
  | false =>
    have hhead : IsHead (enclosed (isOptional && t.isLoosePostfixOperand) t.pieces) :=
      isHead_enclosed fun _ ↦ TypeExpr.isHead_pieces he.readable he.proper
    obtain ⟨p, ps, hps⟩ := List.exists_cons_of_ne_nil hhead.ne_nil
    rw [hps] at hhead ⊢
    refine ⟨p, _, rfl, ?_⟩
    rintro hp
    exact not_typeEnds_of_isHead hhead (by simp [hp, typeEnds])

theorem isItem_tupleElement (h : NestsBelow type depth) {e : TupleElement}
    (he : e.type.IsWhole) (hdepth : e.depth ≤ depth) :
    IsItem (tupleElement type) .closeBracket e.pieces e := by
  have hread : ∀ k ks, k.kind = .comma ∨ k.kind = .closeBracket →
      Reads (tupleElement type) (e.pieces ++ k :: ks) e (k :: ks) :=
    fun k ks hk ↦ reads_tupleElement h he hdepth hk
  obtain ⟨p, ps, hps, hp⟩ := pieces_tupleElement_cons he
  rw [hps] at hread ⊢
  exact IsItem.of_cons hp hread

/-! ### Types that start with a word -/

theorem reads_keyword (word : Keyword) (hdot : k.kind ≠ .dot) :
    Reads (primaryType type) ((TypeExpr.keyword word).pieces ++ k :: ks) (.keyword word)
      (k :: ks) := by
  unfold primaryType wordType
  rw [TypeExpr.pieces]
  refine Yields.bind yields_token ?_
  rintro _ ⟨span, afterLineBreak, rfl⟩
  refine Reads.bind (reads_view (a := word.text) fun s hs ↦ hs.value) ?_
  rw [Keyword.ofText?_text]
  refine Reads.bind (reads_view (a := k.kind) fun s hs ↦ hs.next.kind) ?_
  rw [if_neg hdot]
  refine Reads.bind (reads_advance (by simp [Piece.word]) (by simp)) ?_
  exact reads_pure _ _

theorem reads_boolean (value : Bool) :
    Reads (primaryType type) ((Literal.boolean value).pieces ++ k :: ks)
      (.literal (.boolean value)) (k :: ks) := by
  unfold primaryType wordType
  cases value with
  | true =>
    refine Yields.bind yields_token ?_
    rintro _ ⟨span, afterLineBreak, rfl⟩
    refine Reads.bind (reads_view (a := "true") fun s hs ↦ hs.value) ?_
    rw [show Keyword.ofText? "true" = none by decide]
    refine Reads.bind (reads_advance (by simp [Piece.word]) (by simp)) ?_
    exact reads_pure _ _
  | false =>
    refine Yields.bind yields_token ?_
    rintro _ ⟨span, afterLineBreak, rfl⟩
    refine Reads.bind (reads_view (a := "false") fun s hs ↦ hs.value) ?_
    rw [show Keyword.ofText? "false" = none by decide]
    refine Reads.bind (reads_advance (by simp [Piece.word]) (by simp)) ?_
    exact reads_pure _ _

/-- A name, which a reader takes for one although its first segment may be a keyword. -/
theorem reads_reference {name : String} {args : List TypeExpr} (hname : Text.isTypeName name = true)
    (hargs : ∀ t ∈ args, Nests type t) (hdot : k.kind ≠ .dot)
    (hangle : k.kind = .lessThan → k.isBroken = true) :
    Reads (primaryType type) ((TypeExpr.reference name args).pieces ++ k :: ks)
      (.reference name args) (k :: ks) := by
  have hread := reads_typeReference name ks hargs hdot hangle
  obtain ⟨w, words, hwords⟩ := List.exists_cons_of_ne_nil (Text.segments_ne_nil name)
  simp only [Text.isTypeName, hwords, Bool.and_eq_true, bne_iff_ne] at hname
  obtain ⟨⟨htrue, hfalse⟩, hkeyword⟩ := hname
  unfold primaryType wordType
  rw [TypeExpr.pieces, hwords, dotted, List.map_cons, separated_cons] at hread ⊢
  refine Yields.bind yields_token ?_
  rintro _ ⟨span, afterLineBreak, rfl⟩
  refine Reads.bind (reads_view (a := w) fun s hs ↦ hs.value) ?_
  cases hword : Keyword.ofText? w with
  | none =>
    simp only [htrue, hfalse, decide_false, Bool.or_self, Bool.false_eq_true, if_false]
    exact hread
  | some keyword =>
    cases words with
    | nil => simp [hword] at hkeyword
    | cons v words =>
      refine Reads.bind (reads_view (a := .dot) fun s hs ↦ hs.next.kind) ?_
      rw [if_pos rfl]
      exact hread

theorem reads_number (text : String) :
    Reads (primaryType type) (numberPieces text ++ k :: ks) (.literal (.number text))
      (k :: ks) := by
  have hunsigned : Reads (primaryType type) ([.number text] ++ k :: ks)
      (.literal (.number text)) (k :: ks) := by
    unfold primaryType
    refine Yields.bind yields_token ?_
    rintro _ ⟨span, afterLineBreak, rfl⟩
    refine Reads.bind (reads_advance (by simp [Piece.number]) (by simp)) ?_
    exact reads_pure _ _
  unfold numberPieces
  split
  · next cs hcs =>
    have htext : "-" ++ String.ofList cs = text := by
      apply String.toList_inj.1
      simp [hcs]
    unfold primaryType
    refine Yields.bind yields_token ?_
    rintro _ ⟨span, afterLineBreak, rfl⟩
    refine Reads.bind (reads_view (a := .numericLiteral) fun s hs ↦ hs.next.kind) ?_
    rw [if_pos rfl]
    refine Reads.bind (reads_advance (by simp [Piece.mark]) (by simp)) ?_
    refine Reads.bind (reads_view (a := String.ofList cs) fun s hs ↦ hs.value) ?_
    refine Reads.bind (reads_advance (by simp [Piece.number]) (by simp)) ?_
    rw [htext]
    exact reads_pure _ _
  · exact hunsigned

/-! ### Primary types -/

theorem reads_tuple (h : NestsBelow type depth) {elements : List TupleElement}
    (ht : (TypeExpr.tuple elements).IsReadable)
    (hdepth : (TypeExpr.tuple elements).depth ≤ depth) :
    Reads (primaryType type) ((TypeExpr.tuple elements).pieces ++ k :: ks) (.tuple elements)
      (k :: ks) := by
  have hwritten := ht.written
  simp only [TypeExpr.isWrittenNode, List.all_eq_true] at hwritten
  rw [TypeExpr.depth, greatest_le_iff, List.forall_mem_map] at hdepth
  have hitems : ∀ e ∈ elements, IsItem (tupleElement type) .closeBracket e.pieces e :=
    fun e he ↦ isItem_tupleElement h (ht.whole (List.mem_map_of_mem he) (hwritten e he))
      (hdepth e he)
  unfold primaryType
  rw [TypeExpr.pieces]
  simp only [List.append_assoc, List.cons_append, List.nil_append]
  refine Yields.bind yields_token ?_
  rintro _ ⟨span, afterLineBreak, rfl⟩
  refine Reads.bind (reads_advance (by simp [Piece.mark]) (by simp)) ?_
  refine Reads.bind (reads_commaList (.mark .closeBracket) (by simp [Piece.mark]) hitems) ?_
  refine Reads.bind (reads_require rfl (by decide) (by simp)) ?_
  exact reads_pure _ _

theorem reads_object (h : NestsBelow type depth) {members : List MemberForm}
    (ht : (TypeExpr.object members).IsReadable)
    (hdepth : (TypeExpr.object members).depth ≤ depth) :
    Reads (primaryType type) ((TypeExpr.object members).pieces ++ k :: ks) (.object members)
      (k :: ks) := by
  have hwritten := ht.written
  simp only [TypeExpr.isWrittenNode, List.all_eq_true] at hwritten
  rw [TypeExpr.depth, greatest_le_iff, List.forall_mem_map] at hdepth
  have hforms : ∀ m ∈ members, NestsForm type m ∧ m.isBareNew = false := by
    intro m hm
    refine ⟨h.form (hwritten m hm) (fun u hu ↦ ?_) fun u hu ↦ ?_, ht.isBareNew hm⟩
    · have hmem : u ∈ (TypeExpr.object members).children := List.mem_flatMap.2 ⟨m, hm, hu⟩
      exact ⟨ht.child hmem, ht.clear.wholes u hmem,
        Nat.lt_of_lt_of_le (MemberForm.depth_lt hu) (hdepth m hm)⟩
    · exact ht.clear.results u (List.mem_flatMap.2 ⟨m, hm, hu⟩)
  have hblock := yields_memberBlock k ks hforms
  unfold primaryType
  rw [TypeExpr.pieces]
  unfold blockPieces at hblock
  simp only [List.append_assoc, List.cons_append, List.nil_append] at hblock ⊢
  refine Yields.bind yields_token ?_
  rintro _ ⟨span, afterLineBreak, rfl⟩
  refine Yields.bind hblock fun placed hplaced ↦ ?_
  rw [hplaced]
  exact reads_pure _ _

/-- A type that is neither an array nor in need of parentheses in front of `[]`. -/
theorem reads_primary (h : NestsBelow type depth) {t : TypeExpr} (ht : t.IsReadable)
    (hproper : t.isProper = true) (hloose : t.isLoosePostfixOperand = false)
    (harray : ∀ element, t ≠ .array element) (hdepth : t.depth ≤ depth) (hdot : k.kind ≠ .dot)
    (hangle : k.kind = .lessThan → k.isBroken = true) :
    Reads (primaryType type) (t.pieces ++ k :: ks) t (k :: ks) := by
  cases t with
  | keyword word => exact reads_keyword word hdot
  | reference name args =>
    have hwritten := ht.written
    simp only [TypeExpr.isWrittenNode, Bool.and_eq_true, List.all_eq_true] at hwritten
    rw [TypeExpr.depth, greatest_le_iff, List.forall_mem_map] at hdepth
    have hargs : ∀ u ∈ args, Nests type u :=
      fun u hu ↦ h.nests u (ht.whole hu (hwritten.2 u hu)) (hdepth u hu)
    exact reads_reference hproper hargs hdot hangle
  | literal value =>
    rw [TypeExpr.pieces]
    cases value with
    | string text =>
      unfold primaryType
      refine Yields.bind yields_token ?_
      rintro _ ⟨span, afterLineBreak, rfl⟩
      refine Reads.bind (reads_advance (by simp [Piece.string]) (by simp)) ?_
      exact reads_pure _ _
    | number text => exact reads_number text
    | boolean value => exact reads_boolean value
  | array element => exact absurd rfl (harray element)
  | tuple elements => exact reads_tuple h ht hdepth
  | object members => exact reads_object h ht hdepth
  | _ => cases hloose

/-! ### Arrays -/

theorem reads_brackets {t r : TypeExpr} {us : List Piece}
    (h : Reads (loop bracketRound (.array t)) (k :: ks) r us) :
    Reads (loop bracketRound t)
      ((Piece.mark .openBracket).joined :: .mark .closeBracket :: k :: ks) r us := by
  refine reads_loop_again ?_ (Nat.lt_succ_of_lt (Nat.lt_succ_self _)) h
  unfold bracketRound
  refine Yields.bind yields_matches fun token htoken ↦ ?_
  refine Reads.bind (reads_view (a := .closeBracket) fun s hs ↦ hs.next.kind) ?_
  rw [if_pos (by simp [htoken.kind, htoken.afterLineBreak rfl, Piece.mark, Piece.joined])]
  refine Reads.bind (reads_advance (by simp [Piece.mark, Piece.joined]) (by simp)) ?_
  refine Reads.bind (reads_advance (by simp [Piece.mark]) (by simp)) ?_
  exact reads_pure _ _

theorem reads_brackets_none {t : TypeExpr} (hk : k.kind = .openBracket → k.isBroken = true) :
    Reads (loop bracketRound t) (k :: ks) t (k :: ks) := by
  refine reads_loop_done ?_
  unfold bracketRound
  refine Yields.bind yields_matches fun token htoken ↦ ?_
  refine Yields.bind (yields_view _ _) fun next _ ↦ ?_
  rw [if_neg ?_]
  · exact reads_pure _ _
  · rw [htoken.kind]
    by_cases hkind : k.kind = .openBracket
    · simp [htoken.broken (hk hkind)]
    · simp [hkind]

/-- A type with brackets behind it: what the brackets give is given for the type. -/
theorem reads_postfix_append (h : NestsBelow type depth) {t r : TypeExpr} {us : List Piece}
    (ht : t.IsReadable) (hproper : t.isProper = true) (hloose : t.isLoosePostfixOperand = false)
    (hdepth : t.depth ≤ depth) (hdot : k.kind ≠ .dot)
    (hangle : k.kind = .lessThan → k.isBroken = true)
    (hloop : Reads (loop bracketRound t) (k :: ks) r us) :
    Reads (postfixType type) (t.pieces ++ k :: ks) r us := by
  -- The brackets of an array are the first ones that the loop meets behind its element.
  induction t using TypeExpr.induction_on_children generalizing k ks r us with
  | h t ih =>
    by_cases harray : ∃ element, t = .array element
    · obtain ⟨element, rfl⟩ := harray
      have helement : element.isProper = true := ht.written
      rw [TypeExpr.depth] at hdepth
      have hbrackets := reads_brackets hloop
      rw [TypeExpr.pieces, List.append_assoc]
      cases hlooseElement : element.isLoosePostfixOperand with
      | true =>
        rw [hlooseElement, if_pos rfl] at hdepth
        rw [postfixType]
        have hwhole : element.IsWhole :=
          ht.whole (by simp [TypeExpr.wholes, hlooseElement]) helement
        exact Reads.bind (reads_parenthesized (h.nests element hwhole hdepth)) hbrackets
      | false =>
        rw [hlooseElement, if_neg (by simp), Nat.add_zero] at hdepth
        have hmem : element ∈ (TypeExpr.array element).children := by simp [TypeExpr.children]
        exact ih element hmem (ht.child hmem) helement hlooseElement hdepth
          (by simp [Piece.mark, Piece.joined]) (by simp [Piece.mark, Piece.joined]) hbrackets
    · rw [not_exists] at harray
      rw [postfixType]
      exact Reads.bind (reads_primary h ht hproper hloose harray hdepth hdot hangle) hloop

end Primary

end Parser
end TypeSurface
