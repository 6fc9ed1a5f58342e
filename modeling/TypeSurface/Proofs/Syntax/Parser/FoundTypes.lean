import TypeSurface.Proofs.Syntax.Parser.Found
import TypeSurface.Proofs.Syntax.Parser.Types

/-!
# Types that are found

Every type that the parser of types answers is written, is no predicate, and has no name that is taken
for another type.
-/

namespace TypeSurface
namespace Parser

section Rules

variable {isQuiet : Bool} {type : Parser TypeExpr}

theorem ensures_typeReference (htype : Ensures isQuiet type (TypeExpr.IsFoundType isQuiet)) :
    Ensures isQuiet (typeReference type)
      (fun t ↦ TypeExpr.IsFound isQuiet t ∧ t.isReference = true) := by
  have hreference : ∀ name args, Text.isDotted name = true →
      (∀ t ∈ args, TypeExpr.IsFoundType isQuiet t) →
      TypeExpr.IsFound isQuiet (.reference name args) ∧
        (TypeExpr.reference name args).isReference = true := by
    intro name args hname hargs
    refine ⟨TypeExpr.isFound_iff.2 ⟨⟨?_, fun _ ↦ rfl⟩, fun t ht ↦ (hargs t ht).1⟩, rfl⟩
    simp only [TypeExpr.isWrittenNode, hname, Bool.true_and, List.all_eq_true]
    exact fun t ht ↦ (hargs t ht).2
  unfold typeReference
  refine Ensures.bind ensures_dottedName fun name hname ↦ ?_
  refine Ensures.bind (ensures_view _) fun token _ ↦ ?_
  split
  · refine Ensures.bind ensures_advance fun _ _ ↦ ?_
    refine Ensures.bind (ensures_commaList _ htype) fun args hargs ↦ ?_
    exact Ensures.bind (ensures_require _) fun _ _ ↦ ensures_pure (hreference name args hname hargs)
  · exact ensures_pure (hreference name [] hname (List.forall_mem_nil _))

theorem exists_of_typeReference {t : TypeExpr} {s : State} (ht : t ∈ (typeReference type s).1) :
    ∃ name args, t = .reference name args ∧ name ∈ (dottedName s).1 := by
  unfold typeReference at ht
  obtain ⟨name, s₁, hname, ht⟩ := mem_bind_iff.1 ht
  have hmem : name ∈ (dottedName s).1 := by
    rw [hname]
    rfl
  obtain ⟨token, s₂, -, ht⟩ := mem_bind_iff.1 ht
  split at ht
  · obtain ⟨_, s₃, -, ht⟩ := mem_bind_iff.1 ht
    obtain ⟨args, s₄, -, ht⟩ := mem_bind_iff.1 ht
    obtain ⟨_, s₅, -, ht⟩ := mem_bind_iff.1 ht
    cases ht
    exact ⟨name, args, rfl, hmem⟩
  · cases ht
    exact ⟨name, [], rfl, hmem⟩

/-- A reference is read at a word that is no literal, and at a keyword only in front of a dot. -/
theorem isProper_of_typeReference {t : TypeExpr} {s : State} (hs : s.IsSound isQuiet)
    (htrue : s.value ≠ "true") (hfalse : s.value ≠ "false")
    (hkeyword : Keyword.ofText? s.value = none ∨ s.next.kind = .dot)
    (ht : t ∈ (typeReference type s).1) : t.isProper = true := by
  obtain ⟨name, args, rfl, hname⟩ := exists_of_typeReference ht
  obtain ⟨words, hsegments, hdot⟩ := segments_of_dottedName hs hname
  rw [TypeExpr.isProper, Text.isTypeName, hsegments]
  simp only [Bool.and_eq_true, Bool.or_eq_true, bne_iff_ne, Bool.not_eq_true', List.isEmpty_eq_false_iff,
    Option.isNone_iff_eq_none]
  exact ⟨⟨htrue, hfalse⟩, hkeyword.symm.imp hdot id⟩

theorem ensures_tupleElement (htype : Ensures isQuiet type (TypeExpr.IsFoundType isQuiet)) :
    Ensures isQuiet (tupleElement type) (fun e ↦ TypeExpr.IsFoundType isQuiet e.type) := by
  have helement : ∀ isRest isNamedOptional : Bool, Ensures isQuiet (do
      let t ← type
      let isOptional ← if isNamedOptional then pure true else accept .question
      return (⟨t, isOptional, isRest⟩ : TupleElement))
      (fun e ↦ TypeExpr.IsFoundType isQuiet e.type) := by
    intro isRest isNamedOptional
    refine Ensures.bind htype fun t ht ↦ ?_
    split
    · exact Ensures.bind (ensures_pure (P := fun _ ↦ True) trivial) fun _ _ ↦ ensures_pure ht
    · exact Ensures.bind (ensures_accept _) fun _ _ ↦ ensures_pure ht
  unfold tupleElement
  refine Ensures.bind (ensures_accept _) fun isRest _ ↦ ?_
  refine Ensures.bind (ensures_view _) fun isName _ ↦ ?_
  split
  · refine Ensures.bind ensures_advance fun _ _ ↦ ?_
    refine Ensures.bind (ensures_accept _) fun isOptional _ ↦ ?_
    refine Ensures.bind (ensures_expect _) fun _ _ ↦ ?_
    exact Ensures.bind (ensures_pure (P := fun _ ↦ True) trivial) fun _ _ ↦ helement _ _
  · exact Ensures.bind (ensures_pure (P := fun _ ↦ True) trivial) fun _ _ ↦ helement _ _

theorem isFoundType_literal {value : Literal} (h : value.isWritten = true) :
    TypeExpr.IsFoundType isQuiet (.literal value) :=
  ⟨TypeExpr.isFound_iff.2 ⟨⟨h, fun _ ↦ rfl⟩, nofun⟩, rfl⟩

theorem ensures_wordType (htype : Ensures isQuiet type (TypeExpr.IsFoundType isQuiet)) :
    Ensures isQuiet (wordType type) (TypeExpr.IsFoundType isQuiet) := by
  intro s hs
  have hreference : s.value ≠ "true" → s.value ≠ "false" →
      (Keyword.ofText? s.value = none ∨ s.next.kind = .dot) →
      (typeReference type s).2.IsSound isQuiet ∧
        ∀ t ∈ (typeReference type s).1, TypeExpr.IsFoundType isQuiet t := by
    intro htrue hfalse hkeyword
    obtain ⟨hstate, hvalue⟩ := ensures_typeReference htype s hs
    exact ⟨hstate, fun t ht ↦
      ⟨(hvalue t ht).1, isProper_of_typeReference hs htrue hfalse hkeyword ht⟩⟩
  unfold wordType
  rw [bind_run]
  cases hkeyword : Keyword.ofText? s.value with
  | some keyword =>
    have hne : ∀ w, Keyword.ofText? w = none → s.value ≠ w := by
      rintro w hw rfl
      rw [hw] at hkeyword
      cases hkeyword
    simp only [view, hkeyword]
    rw [bind_run]
    by_cases hdot : s.next.kind = .dot
    · simp only [view, if_pos hdot]
      exact hreference (hne _ (by decide)) (hne _ (by decide)) (Or.inr hdot)
    · simp only [view, if_neg hdot]
      exact Ensures.bind ensures_advance (fun _ _ ↦
        ensures_pure ⟨TypeExpr.isFound_keyword _, rfl⟩) s hs
  | none =>
    simp only [view, hkeyword]
    split
    · exact Ensures.bind ensures_advance (fun _ _ ↦ ensures_pure (isFoundType_literal rfl)) s hs
    · next hword =>
      simp only [Bool.or_eq_true, decide_eq_true_eq, not_or] at hword
      exact hreference hword.1 hword.2 (Or.inl hkeyword)

theorem ensures_negative : Ensures isQuiet (do
      if (← view (·.next.kind)) = .numericLiteral then
        advance
        let text ← view State.value
        advance
        return .literal (.number ("-" ++ text))
      else
        reportHere .typeExpected []
        giveUp) (TypeExpr.IsFoundType isQuiet) := by
  intro s hs
  rw [bind_run]
  by_cases hkind : s.next.kind = .numericLiteral
  · have hadvance : s.advance.scanner = s.scanner.scan :=
      State.advance_scanner_of_next (by simp [hkind])
    have hnumeral : Lexeme.isNumeral s.advance.value.toList = true := by
      have hvalue : s.advance.value = s.next.value := by
        unfold State.value State.token
        rw [hadvance]
        rfl
      rw [hvalue]
      exact (Scanner.isFound_scan s.scanner).numeral hkind
    simp only [view, if_pos hkind]
    rw [bind_run]
    simp only [advance, update]
    rw [bind_run]
    refine Ensures.bind ensures_advance (fun _ _ ↦ ensures_pure (isFoundType_literal ?_))
      s.advance hs.advance
    rw [Literal.isWritten, String.toList_append]
    exact hnumeral
  · simp only [view, if_neg hkind]
    exact Ensures.bind (ensures_reportHere _ _) (fun _ _ ↦ ensures_giveUp) s hs

theorem isSignedNumeral_of_isNumeral {cs : List Char} (h : Lexeme.isNumeral cs = true) :
    Lexeme.isSignedNumeral cs = true := by
  unfold Lexeme.isSignedNumeral
  split
  · next cs => simp [Lexeme.isNumeral, Lexeme.startsNumber] at h
  · exact h

theorem isFoundType_object {ms : List PlacedMember} (h : ∀ m ∈ ms, m.form.IsFound isQuiet) :
    TypeExpr.IsFoundType isQuiet (.object (ms.map (·.form))) := by
  refine ⟨TypeExpr.isFound_iff.2 ⟨⟨?_, fun hquiet ↦ ?_⟩, ?_⟩, rfl⟩
  · simp only [TypeExpr.isWrittenNode, List.all_map, List.all_eq_true]
    exact fun m hm ↦ (h m hm).written
  · simp only [TypeExpr.holdsBareNew, List.any_map, List.any_eq_false]
    exact fun m hm ↦ Bool.eq_false_iff.1 ((h m hm).notBareNew hquiet)
  · intro t ht
    simp only [TypeExpr.children, List.mem_flatMap, List.mem_map] at ht
    obtain ⟨_, ⟨m, hm, rfl⟩, ht⟩ := ht
    exact (h m hm).types t ht

theorem isFoundType_tuple {es : List TupleElement}
    (h : ∀ e ∈ es, TypeExpr.IsFoundType isQuiet e.type) :
    TypeExpr.IsFoundType isQuiet (.tuple es) := by
  refine ⟨TypeExpr.isFound_iff.2 ⟨⟨?_, fun _ ↦ rfl⟩, ?_⟩, rfl⟩
  · simp only [TypeExpr.isWrittenNode, List.all_eq_true]
    exact fun e he ↦ (h e he).2
  · intro t ht
    obtain ⟨e, he, rfl⟩ := List.mem_map.1 ht
    exact (h e he).1

theorem ensures_primaryType (htype : Ensures isQuiet type (TypeExpr.IsFoundType isQuiet)) :
    Ensures isQuiet (primaryType type) (TypeExpr.IsFoundType isQuiet) := by
  unfold primaryType
  refine Ensures.bind ensures_token fun token htoken ↦ ?_
  split
  · exact ensures_wordType htype
  · exact Ensures.bind ensures_advance fun _ _ ↦ ensures_pure (isFoundType_literal rfl)
  · exact Ensures.bind ensures_advance fun _ _ ↦ ensures_pure
      (isFoundType_literal (isSignedNumeral_of_isNumeral (htoken.numeral rfl)))
  · refine Ensures.bind ensures_advance fun _ _ ↦ ?_
    refine Ensures.bind htype fun inner hinner ↦ ?_
    exact Ensures.bind (ensures_expect _) fun _ _ ↦ ensures_pure hinner
  · exact Ensures.bind (ensures_memberBlock htype) fun ms hms ↦
      ensures_pure (isFoundType_object hms)
  · refine Ensures.bind ensures_advance fun _ _ ↦ ?_
    refine Ensures.bind (ensures_commaList _ (ensures_tupleElement htype)) fun es hes ↦ ?_
    exact Ensures.bind (ensures_require _) fun _ _ ↦ ensures_pure (isFoundType_tuple hes)
  · exact ensures_negative
  · exact Ensures.bind (ensures_reportHere _ _) fun _ _ ↦ ensures_giveUp

/-! ### Operators -/

theorem isFoundType_array {t : TypeExpr} (h : TypeExpr.IsFoundType isQuiet t) :
    TypeExpr.IsFoundType isQuiet (.array t) := by
  refine ⟨TypeExpr.isFound_iff.2 ⟨⟨?_, fun _ ↦ rfl⟩, ?_⟩, rfl⟩
  · simp [TypeExpr.isWrittenNode, h.2]
  · simpa [TypeExpr.children] using h.1

theorem isFoundType_apply {t : TypeExpr} (op : Operator) (h : TypeExpr.IsFoundType isQuiet t) :
    TypeExpr.IsFoundType isQuiet (op.apply t) := by
  cases op with
  | keyOf =>
    refine ⟨TypeExpr.isFound_iff.2 ⟨⟨?_, fun _ ↦ rfl⟩, ?_⟩, rfl⟩
    · simp [Operator.apply, TypeExpr.isWrittenNode, h.2]
    · simpa [Operator.apply, TypeExpr.children] using h.1
  | readonly =>
    refine ⟨TypeExpr.isFound_iff.2 ⟨⟨?_, fun _ ↦ rfl⟩, ?_⟩, rfl⟩
    · simp [Operator.apply, TypeExpr.isWrittenNode, h.2]
    · simpa [Operator.apply, TypeExpr.children] using h.1

theorem isFoundType_foldl {t : TypeExpr} (operators : List Operator)
    (h : TypeExpr.IsFoundType isQuiet t) :
    TypeExpr.IsFoundType isQuiet (operators.foldl (fun t op ↦ op.apply t) t) := by
  induction operators generalizing t with
  | nil => exact h
  | cons op operators ih => exact ih (isFoundType_apply op h)

theorem ensures_postfixType (htype : Ensures isQuiet type (TypeExpr.IsFoundType isQuiet)) :
    Ensures isQuiet (postfixType type) (TypeExpr.IsFoundType isQuiet) := by
  rw [postfixType]
  refine Ensures.bind (ensures_primaryType htype) fun element helement ↦ ?_
  refine ensures_loop (P := TypeExpr.IsFoundType isQuiet) (fun t ht ↦ ?_) helement
  unfold bracketRound
  refine Ensures.bind (ensures_view _) fun token _ ↦ ?_
  refine Ensures.bind (ensures_view _) fun kind _ ↦ ?_
  split
  · refine Ensures.bind ensures_advance fun _ _ ↦ ?_
    exact Ensures.bind ensures_advance fun _ _ ↦ ensures_pure (isFoundType_array ht)
  · exact ensures_pure ht

theorem ensures_operatorType (htype : Ensures isQuiet type (TypeExpr.IsFoundType isQuiet)) :
    Ensures isQuiet (operatorType type) (TypeExpr.IsFoundType isQuiet) := by
  rw [operatorType]
  refine Ensures.bind (ensures_loop (P := fun _ ↦ True) (Q := fun _ ↦ True)
    (fun operators _ ↦ ?_) trivial) fun operators _ ↦ ?_
  · unfold operatorRound
    refine Ensures.bind (ensures_view _) fun operator _ ↦ ?_
    split
    · exact Ensures.bind ensures_advance fun _ _ ↦ ensures_pure trivial
    · exact ensures_pure trivial
  · unfold operand
    exact Ensures.bind (ensures_postfixType htype) fun t ht ↦
      ensures_pure (isFoundType_foldl operators ht)

theorem ensures_combined {first item : Parser TypeExpr} {combine : List TypeExpr → TypeExpr}
    (separator : TokenKind) (hfirst : Ensures isQuiet first (TypeExpr.IsFoundType isQuiet))
    (hitem : Ensures isQuiet item (TypeExpr.IsFoundType isQuiet))
    (hcombine : ∀ ms : List TypeExpr, 2 ≤ ms.length → (∀ m ∈ ms, TypeExpr.IsFoundType isQuiet m) →
      TypeExpr.IsFoundType isQuiet (combine ms)) :
    Ensures isQuiet (combined separator combine first item) (TypeExpr.IsFoundType isQuiet) := by
  refine Ensures.bind hfirst fun t ht s hs ↦ ?_
  rw [bind_run]
  by_cases hkind : s.kind = separator
  · simp only [view, if_pos hkind]
    rw [bind_run]
    obtain ⟨hstate, hvalue⟩ := ensures_introduced_several separator hitem ht hs hkind
    cases hrun : introduced separator item t s with
    | mk result s' =>
      rw [hrun] at hstate hvalue
      cases result with
      | none => exact ⟨hstate, fun _ h ↦ by cases h⟩
      | some ms =>
        obtain ⟨hlength, hms⟩ := hvalue ms rfl
        exact ensures_pure (hcombine ms hlength hms) s' hstate
  · simp only [view, if_neg hkind]
    exact ensures_pure ht s hs

theorem ensures_intersectionType (htype : Ensures isQuiet type (TypeExpr.IsFoundType isQuiet)) :
    Ensures isQuiet (intersectionType type) (TypeExpr.IsFoundType isQuiet) := by
  unfold intersectionType
  refine Ensures.bind (ensures_accept _) fun _ _ ↦ ?_
  refine ensures_combined _ (ensures_operatorType htype) (ensures_operatorType htype)
    fun ms hlength hms ↦ ⟨TypeExpr.isFound_iff.2 ⟨⟨?_, fun _ ↦ rfl⟩, fun m hm ↦ (hms m hm).1⟩, rfl⟩
  simp only [TypeExpr.isWrittenNode, hlength, decide_true, Bool.true_and, List.all_eq_true]
  exact fun m hm ↦ (hms m hm).2

theorem isFoundType_function {s : Signature} (h : s.IsFound isQuiet) :
    TypeExpr.IsFoundType isQuiet (.function s) :=
  ⟨TypeExpr.isFound_iff.2 ⟨⟨h.written, fun _ ↦ rfl⟩, h.types⟩, rfl⟩

theorem isFoundType_construct {s : Signature} (h : s.IsFound isQuiet) :
    TypeExpr.IsFoundType isQuiet (.construct s) :=
  ⟨TypeExpr.isFound_iff.2 ⟨⟨h.written, fun _ ↦ rfl⟩, h.types⟩, rfl⟩

theorem ensures_unionType (htype : Ensures isQuiet type (TypeExpr.IsFoundType isQuiet)) :
    Ensures isQuiet (unionType type) (TypeExpr.IsFoundType isQuiet) := by
  have hmember : Ensures isQuiet (unionMember type) (TypeExpr.IsFoundType isQuiet) := by
    unfold unionMember
    refine Ensures.bind (ensures_view _) fun isFunction _ ↦ ?_
    split
    · exact Ensures.bind (ensures_arrowSignature htype) fun s hs ↦
        ensures_pure (isFoundType_function hs)
    · exact ensures_intersectionType htype
  unfold unionType
  refine Ensures.bind (ensures_accept _) fun _ _ ↦ ?_
  refine ensures_combined _ (ensures_intersectionType htype) hmember
    fun ms hlength hms ↦ ⟨TypeExpr.isFound_iff.2 ⟨⟨?_, fun _ ↦ rfl⟩, fun m hm ↦ (hms m hm).1⟩, rfl⟩
  simp only [TypeExpr.isWrittenNode, hlength, decide_true, Bool.true_and, List.all_eq_true]
  exact fun m hm ↦ (hms m hm).2

theorem ensures_typeBody (htype : Ensures isQuiet type (TypeExpr.IsFoundType isQuiet)) :
    Ensures isQuiet (typeBody type) (TypeExpr.IsFoundType isQuiet) := by
  unfold typeBody
  refine Ensures.bind (ensures_view _) fun isFunction _ ↦ ?_
  split
  · exact Ensures.bind (ensures_arrowSignature htype) fun s hs ↦
      ensures_pure (isFoundType_function hs)
  · refine Ensures.bind (ensures_view _) fun isConstruct _ ↦ ?_
    split
    · refine Ensures.bind ensures_advance fun _ _ ↦ ?_
      exact Ensures.bind (ensures_arrowSignature htype) fun s hs ↦
        ensures_pure (isFoundType_construct hs)
    · exact ensures_unionType htype

end Rules

/-- Every type that is read is written, however deep it may be. -/
theorem ensures_typeExpr (isQuiet : Bool) (depth : Nat) :
    Ensures isQuiet (typeExpr depth) (TypeExpr.IsFoundType isQuiet) := by
  -- The rules are sound for the parser of nested types, which is that of one level less.
  induction depth with
  | zero =>
    unfold typeExpr
    refine Ensures.bind (ensures_reportHere _ _) fun _ _ ↦ ?_
    exact Ensures.bind (ensures_update fun _ hs ↦ hs) fun _ _ ↦ ensures_giveUp
  | succ depth ih => exact ensures_typeBody ih

end Parser
end TypeSurface
