import TypeSurface.Proofs.Syntax.Parser.Ensures
import TypeSurface.Proofs.Syntax.Parser.Members

/-!
# What is found is written

Every type, signature and member that a parser answers is written.  If no directive line comes, none
is a method without a mark and with the bare name `new`, since the parenthesis behind the name would
have made it a construct signature.
-/

namespace TypeSurface

/-- Whether a reader may find the type: it is written, and without directives no method inside it is
one that is written as a construct signature. -/
def TypeExpr.IsFound (isQuiet : Bool) (t : TypeExpr) : Prop :=
  t.All fun u ↦ u.isWrittenNode = true ∧ (isQuiet = true → u.holdsBareNew = false)

structure Signature.IsFound (isQuiet : Bool) (s : Signature) : Prop where
  written : s.isWritten = true
  types : ∀ t ∈ s.types, t.IsFound isQuiet

structure MemberForm.IsFound (isQuiet : Bool) (m : MemberForm) : Prop where
  written : m.isWritten = true
  types : ∀ t ∈ m.types, t.IsFound isQuiet
  notBareNew : isQuiet = true → m.isBareNew = false

namespace TypeExpr

variable {isQuiet : Bool} {t : TypeExpr}

theorem isFound_iff : t.IsFound isQuiet ↔
    (t.isWrittenNode = true ∧ (isQuiet = true → t.holdsBareNew = false)) ∧
      ∀ u ∈ t.children, u.IsFound isQuiet :=
  all_iff

theorem isFound_keyword (word : Keyword) : (keyword word).IsFound isQuiet :=
  isFound_iff.2 ⟨⟨rfl, fun _ ↦ rfl⟩, nofun⟩

/-- Whether a reader may find the type wherever a type may stand. -/
def IsFoundType (isQuiet : Bool) (t : TypeExpr) : Prop :=
  t.IsFound isQuiet ∧ t.isProper = true

/-- Whether a reader may find the type as the result of a signature. -/
def IsFoundResult (isQuiet : Bool) (t : TypeExpr) : Prop :=
  t.IsFound isQuiet ∧ (t.isPredicate || t.isProper) = true

theorem IsFoundType.result (h : t.IsFoundType isQuiet) : t.IsFoundResult isQuiet :=
  ⟨h.1, by rw [h.2, Bool.or_true]⟩

end TypeExpr

namespace Parser

section Rules

variable {isQuiet : Bool} {type : Parser TypeExpr}

theorem ensures_identifier :
    Ensures isQuiet identifier (fun r ↦ Lexeme.isWord r.1.toList = true) := by
  intro s hs
  unfold identifier
  rw [bind_run]
  by_cases hkind : s.token.kind = .identifier
  · simp only [view, if_pos hkind]
    refine Ensures.bind ensures_advance (fun _ _ ↦ ensures_pure ?_) s hs
    exact hs.token.word hkind
  · simp only [view, if_neg hkind]
    exact Ensures.bind (ensures_reportHere _ _) (fun _ _ ↦ ensures_giveUp) s hs

theorem ensures_name : Ensures isQuiet (Prod.fst <$> identifier)
    (fun name ↦ Lexeme.isWord name.toList = true) :=
  Ensures.bind ensures_identifier fun _ hr ↦ ensures_pure hr

theorem ensures_dottedName :
    Ensures isQuiet dottedName (fun name ↦ Text.isDotted name = true) := by
  unfold dottedName
  refine Ensures.bind ensures_identifier fun r hr ↦ ?_
  refine Ensures.bind (ensures_introduced _ ensures_name hr) fun segments hsegments ↦ ?_
  obtain ⟨hhead, hwords⟩ := hsegments
  exact ensures_pure (Text.isDotted_intercalate (List.ne_nil_of_mem (List.mem_of_mem_head? hhead)) hwords)

/-- A name that is read is the current word, which is passed over. -/
theorem eq_of_identifier {r : String × Span} {s s' : State} (h : identifier s = (some r, s')) :
    s.kind = .identifier ∧ r = (s.value, s.token.span) ∧ s' = s.advance := by
  unfold identifier at h
  rw [bind_run] at h
  by_cases hkind : s.token.kind = .identifier
  · simp only [view, if_pos hkind] at h
    cases h
    exact ⟨hkind, rfl, rfl⟩
  · simp only [view, if_neg hkind] at h
    cases h

theorem value_of_identifier {r : String × Span} {s s' : State}
    (h : identifier s = (some r, s')) : s.kind = .identifier ∧ r.1 = s.value ∧ s' = s.advance := by
  obtain ⟨hkind, rfl, hnext⟩ := eq_of_identifier h
  exact ⟨hkind, rfl, hnext⟩

/-- A dotted name starts with the current word, and goes on if a dot is the next token. -/
theorem segments_of_dottedName {s : State} (hs : s.IsSound isQuiet) {name : String}
    (hname : name ∈ (dottedName s).1) :
    ∃ words, Text.segments name = s.value :: words ∧ (s.next.kind = .dot → words ≠ []) := by
  unfold dottedName at hname
  obtain ⟨r, s₁, hfirst, hname⟩ := mem_bind_iff.1 hname
  obtain ⟨segments, s₂, hsegments, hname⟩ := mem_bind_iff.1 hname
  cases hname
  obtain ⟨hkind, hvalue, rfl⟩ := value_of_identifier hfirst
  have hword : Lexeme.isWord r.1.toList = true := hvalue ▸ hs.token.word hkind
  have hmem : segments ∈ (introduced .dot (Prod.fst <$> identifier) r.1 s.advance).1 := by
    rw [hsegments]
    rfl
  obtain ⟨hhead, hwords⟩ := (ensures_introduced .dot ensures_name hword s.advance hs.advance).2
    segments hmem
  rw [Text.segments_intercalate (List.ne_nil_of_mem (List.mem_of_mem_head? hhead)) hwords]
  obtain ⟨words, rfl⟩ := List.head?_eq_some_iff.1 hhead
  refine ⟨words, by rw [hvalue], fun hdot ↦ ?_⟩
  have hnext : s.advance.kind = .dot := by
    unfold State.kind State.token
    rw [State.advance_scanner_of_next (by simp [hdot])]
    exact hdot
  have hlength := (ensures_introduced_several .dot ensures_name hword hs.advance hnext).2 _ hmem
  rintro rfl
  exact absurd hlength.1 (by simp)

theorem ensures_annotatedType (htype : Ensures isQuiet type (TypeExpr.IsFoundType isQuiet)) :
    Ensures isQuiet (annotatedType type) (TypeExpr.IsFoundType isQuiet) := by
  unfold annotatedType
  refine Ensures.bind (ensures_accept _) fun found _ ↦ ?_
  split
  · exact htype
  · exact ensures_pure ⟨TypeExpr.isFound_keyword _, rfl⟩

/-- Whether a reader may find the type parameter. -/
def IsFoundParam (isQuiet : Bool) (p : TypeParam) : Prop :=
  p.isWritten = true ∧ ∀ t ∈ p.types, t.IsFound isQuiet

theorem isFoundParam_of_types {name : String} {bound default : Option TypeExpr}
    (hname : Lexeme.isWord name.toList = true)
    (hbound : ∀ t ∈ bound, TypeExpr.IsFoundType isQuiet t)
    (hdefault : ∀ t ∈ default, TypeExpr.IsFoundType isQuiet t) :
    IsFoundParam isQuiet ⟨name, bound, default⟩ := by
  have htypes : ∀ t ∈ TypeParam.types ⟨name, bound, default⟩, TypeExpr.IsFoundType isQuiet t := by
    intro t ht
    rcases List.mem_append.1 ht with ht | ht
    · exact hbound t (Option.mem_toList.1 ht)
    · exact hdefault t (Option.mem_toList.1 ht)
  refine ⟨?_, fun t ht ↦ (htypes t ht).1⟩
  simp only [TypeParam.isWritten, hname, Bool.true_and, List.all_eq_true]
  exact fun t ht ↦ (htypes t ht).2

theorem ensures_typeParam (htype : Ensures isQuiet type (TypeExpr.IsFoundType isQuiet)) :
    Ensures isQuiet (typeParam type) (IsFoundParam isQuiet) := by
  unfold typeParam
  refine Ensures.bind ensures_identifier fun r hr ↦ ?_
  have hdefault : ∀ bound : Option TypeExpr, (∀ t ∈ bound, TypeExpr.IsFoundType isQuiet t) →
      Ensures isQuiet (do
        let default ← if ← accept .equals then attempt type else pure none
        return (⟨r.1, bound, default⟩ : TypeParam)) (IsFoundParam isQuiet) := by
    intro bound hbound
    refine Ensures.bind (ensures_accept _) fun found _ ↦ ?_
    split
    · refine Ensures.bind htype.attempt fun default hdefault ↦ ?_
      exact ensures_pure (isFoundParam_of_types hr hbound hdefault)
    · exact Ensures.bind (ensures_pure (P := (· = none)) rfl) fun default hdefault ↦
        ensures_pure (isFoundParam_of_types hr hbound (hdefault ▸ nofun))
  refine Ensures.bind (ensures_view _) fun isBound _ ↦ ?_
  split
  · refine Ensures.bind ensures_advance fun _ _ ↦ ?_
    exact Ensures.bind htype.attempt fun bound hbound ↦ hdefault bound hbound
  · exact Ensures.bind (ensures_pure (P := (· = none)) rfl) fun bound hbound ↦
      hdefault bound (hbound ▸ nofun)

theorem ensures_typeParams (htype : Ensures isQuiet type (TypeExpr.IsFoundType isQuiet)) :
    Ensures isQuiet (typeParams type) (fun ps ↦ ∀ p ∈ ps, IsFoundParam isQuiet p) := by
  unfold typeParams
  refine Ensures.bind (ensures_accept _) fun found _ ↦ ?_
  split
  · refine Ensures.bind (ensures_loop (P := fun ps ↦ ∀ p ∈ ps, IsFoundParam isQuiet p)
      (Q := fun ps ↦ ∀ p ∈ ps, IsFoundParam isQuiet p) (fun ps hps ↦ ?_) nofun) fun ps hps ↦ ?_
    · refine Ensures.bind (ensures_view _) fun kind _ ↦ ?_
      split
      · exact ensures_pure hps
      · refine Ensures.bind (ensures_typeParam htype).attempt fun r hr ↦ ?_
        split
        · exact ensures_pure hps
        · next p =>
          have hall := forall_mem_append_singleton hps (hr p rfl)
          refine Ensures.bind (ensures_accept _) fun comma _ ↦ ?_
          split
          · exact ensures_pure hall
          · exact ensures_pure hall
    · exact Ensures.bind (ensures_expect _) fun _ _ ↦ ensures_pure hps
  · exact ensures_pure nofun

theorem ensures_param (htype : Ensures isQuiet type (TypeExpr.IsFoundType isQuiet)) :
    Ensures isQuiet (param type) (fun p ↦ p.isWritten = true ∧ p.type.IsFound isQuiet) := by
  unfold param
  refine Ensures.bind (ensures_accept _) fun isRest _ ↦ ?_
  refine Ensures.bind ensures_identifier fun r hr ↦ ?_
  refine Ensures.bind (ensures_accept _) fun isOptional _ ↦ ?_
  refine Ensures.bind (ensures_annotatedType htype) fun t ht ↦ ?_
  refine ensures_pure ⟨?_, ht.1⟩
  simp [Param.isWritten, hr, ht.2]

theorem ensures_resultType (htype : Ensures isQuiet type (TypeExpr.IsFoundType isQuiet)) :
    Ensures isQuiet (resultType type) (TypeExpr.IsFoundResult isQuiet) := by
  intro s hs
  unfold resultType
  rw [bind_run]
  cases hpredicate : s.isPredicate with
  | false =>
    simp only [view, hpredicate, Bool.false_eq_true, if_false]
    exact htype.imp (fun t ht ↦ ht.result) s hs
  | true =>
    have hkind : s.kind = .identifier := by
      simp only [State.isPredicate, Bool.and_eq_true, decide_eq_true_eq] at hpredicate
      exact hpredicate.1.1
    have hword : Lexeme.isWord s.value.toList = true := hs.token.word hkind
    simp only [view, hpredicate, if_true]
    rw [bind_run]
    refine Ensures.bind ensures_commit (fun _ _ ↦ ?_) s hs
    refine Ensures.bind ensures_advance fun _ _ ↦ ?_
    refine Ensures.bind htype fun t ht ↦ ?_
    refine ensures_pure ⟨TypeExpr.isFound_iff.2 ⟨⟨?_, fun _ ↦ rfl⟩, ?_⟩, rfl⟩
    · simp [TypeExpr.isWrittenNode, hword, ht.2]
    · simpa [TypeExpr.children] using ht.1

theorem ensures_memberResult (htype : Ensures isQuiet type (TypeExpr.IsFoundType isQuiet)) :
    Ensures isQuiet (memberResult type) (TypeExpr.IsFoundResult isQuiet) := by
  unfold memberResult
  refine Ensures.bind (ensures_accept _) fun found _ ↦ ?_
  split
  · exact ensures_resultType htype
  · exact ensures_pure ⟨TypeExpr.isFound_keyword _, rfl⟩

theorem ensures_arrowResult (htype : Ensures isQuiet type (TypeExpr.IsFoundType isQuiet)) :
    Ensures isQuiet (arrowResult type) (TypeExpr.IsFoundResult isQuiet) := by
  unfold arrowResult
  exact Ensures.bind (ensures_require _) fun _ _ ↦ ensures_resultType htype

theorem ensures_signature {result : Parser TypeExpr}
    (htype : Ensures isQuiet type (TypeExpr.IsFoundType isQuiet))
    (hresult : Ensures isQuiet result (TypeExpr.IsFoundResult isQuiet)) :
    Ensures isQuiet (signature type result) (Signature.IsFound isQuiet) := by
  unfold signature
  refine Ensures.bind (ensures_typeParams htype) fun typeParams htypeParams ↦ ?_
  refine Ensures.bind (ensures_require _) fun _ _ ↦ ?_
  refine Ensures.bind (ensures_commaList _ (ensures_param htype)) fun params hparams ↦ ?_
  refine Ensures.bind (ensures_require _) fun _ _ ↦ ?_
  refine Ensures.bind hresult fun t ht ↦ ensures_pure ⟨?_, ?_⟩
  · simp only [Signature.isWritten, Bool.and_eq_true, List.all_eq_true]
    exact ⟨⟨fun p hp ↦ (htypeParams p hp).1, fun p hp ↦ (hparams p hp).1⟩, ht.2⟩
  · intro u hu
    simp only [Signature.types, List.mem_append, List.mem_flatMap, List.mem_map,
      List.mem_singleton] at hu
    rcases hu with (⟨p, hp, hu⟩ | ⟨p, hp, rfl⟩) | rfl
    · exact (htypeParams p hp).2 u hu
    · exact (hparams p hp).2
    · exact ht.1

theorem ensures_memberSignature (htype : Ensures isQuiet type (TypeExpr.IsFoundType isQuiet)) :
    Ensures isQuiet (memberSignature type) (Signature.IsFound isQuiet) :=
  ensures_signature htype (ensures_memberResult htype)

theorem ensures_arrowSignature (htype : Ensures isQuiet type (TypeExpr.IsFoundType isQuiet)) :
    Ensures isQuiet (arrowSignature type) (Signature.IsFound isQuiet) :=
  ensures_signature htype (ensures_arrowResult htype)

/-! ### Members -/

theorem ensures_propertyName :
    Ensures isQuiet propertyName (fun name ↦ name.isWritten = true) := by
  unfold propertyName
  refine Ensures.bind ensures_token fun token htoken ↦ ?_
  split
  · exact Ensures.bind ensures_advance fun _ _ ↦ ensures_pure (htoken.word rfl)
  · exact Ensures.bind ensures_advance fun _ _ ↦ ensures_pure rfl
  · exact Ensures.bind ensures_advance fun _ _ ↦ ensures_pure (htoken.numeral rfl)
  · refine Ensures.bind ensures_advance fun _ _ ↦ ?_
    refine Ensures.bind ensures_dottedName fun name hname ↦ ?_
    exact Ensures.bind (ensures_require _) fun _ _ ↦ ensures_pure hname
  · refine Ensures.bind (ensures_view _) fun text _ ↦ ?_
    exact Ensures.bind (ensures_reportHere _ _) fun _ _ ↦ ensures_giveUp

/-- Whether a reader may find the member where a directive may stand. -/
def IsFoundForm (isQuiet : Bool) (m : MemberForm) : Prop :=
  m.isWritten = true ∧ ∀ t ∈ m.types, t.IsFound isQuiet

theorem ensures_namedTail {isReadonly : Bool} {name : PropertyName}
    (htype : Ensures isQuiet type (TypeExpr.IsFoundType isQuiet)) (hname : name.isWritten = true) :
    Ensures isQuiet (namedTail type isReadonly name) (IsFoundForm isQuiet) := by
  unfold namedTail
  refine Ensures.bind (ensures_accept _) fun isOptional _ ↦ ?_
  refine Ensures.bind (ensures_view _) fun kind _ ↦ ?_
  split
  · refine Ensures.bind (ensures_memberSignature htype) fun s hs ↦ ensures_pure ⟨?_, hs.types⟩
    simp [MemberForm.isWritten, hname, hs.written]
  · refine Ensures.bind (ensures_annotatedType htype) fun t ht ↦ ensures_pure ⟨?_, ?_⟩
    · simp [MemberForm.isWritten, hname, ht.2]
    · simpa [MemberForm.types] using ht.1

theorem ensures_namedMember {isReadonly : Bool}
    (htype : Ensures isQuiet type (TypeExpr.IsFoundType isQuiet)) :
    Ensures isQuiet (namedMember type isReadonly) (IsFoundForm isQuiet) := by
  rw [namedMember]
  exact Ensures.bind ensures_propertyName fun name hname ↦ ensures_namedTail htype hname

theorem ensures_indexMember {isReadonly : Bool}
    (htype : Ensures isQuiet type (TypeExpr.IsFoundType isQuiet)) :
    Ensures isQuiet (indexMember type isReadonly) (IsFoundForm isQuiet) := by
  unfold indexMember
  refine Ensures.bind ensures_advance fun _ _ ↦ ?_
  refine Ensures.bind ensures_identifier fun r hr ↦ ?_
  refine Ensures.bind (ensures_expect _) fun _ _ ↦ ?_
  refine Ensures.bind htype fun keyType hkeyType ↦ ?_
  refine Ensures.bind (ensures_require _) fun _ _ ↦ ?_
  refine Ensures.bind (ensures_require _) fun _ _ ↦ ?_
  refine Ensures.bind htype fun t ht ↦ ensures_pure ⟨?_, ?_⟩
  · simp [MemberForm.isWritten, hr, hkeyType.2, ht.2]
  · simpa [MemberForm.types] using ⟨hkeyType.1, ht.1⟩

theorem ensures_memberForm_written (htype : Ensures isQuiet type (TypeExpr.IsFoundType isQuiet)) :
    Ensures isQuiet (memberForm type) (IsFoundForm isQuiet) := by
  have hplain : ∀ isReadonly, Ensures isQuiet (plainMember type isReadonly)
      (IsFoundForm isQuiet) := by
    intro isReadonly
    refine Ensures.bind (ensures_view _) fun isIndex _ ↦ ?_
    split
    · exact ensures_indexMember htype
    · exact ensures_namedMember htype
  unfold memberForm
  refine Ensures.bind (ensures_view _) fun kind _ ↦ ?_
  split
  · exact Ensures.bind (ensures_memberSignature htype) fun s hs ↦
      ensures_pure ⟨hs.written, hs.types⟩
  · refine Ensures.bind (ensures_view _) fun isConstruct _ ↦ ?_
    split
    · refine Ensures.bind ensures_advance fun _ _ ↦ ?_
      exact Ensures.bind (ensures_memberSignature htype) fun s hs ↦
        ensures_pure ⟨hs.written, hs.types⟩
    · refine Ensures.bind (ensures_view _) fun isReadonly _ ↦ ?_
      split
      · exact Ensures.bind ensures_advance fun _ _ ↦ hplain isReadonly
      · exact hplain isReadonly

/-- No method without a mark comes where no signature starts. -/
theorem notBareNew_of_namedTail {isReadonly : Bool} {name : PropertyName} {s : State}
    {m : MemberForm} (hstarts : State.startsSignature s.kind = false)
    (hm : m ∈ (namedTail type isReadonly name s).1) : m.isBareNew = false := by
  unfold namedTail at hm
  obtain ⟨isOptional, s₁, haccept, hm⟩ := mem_bind_iff.1 hm
  obtain ⟨kind, s₂, hview, hm⟩ := mem_bind_iff.1 hm
  cases hview
  split at hm
  · next hmethod =>
    obtain ⟨signature, s₃, -, hm⟩ := mem_bind_iff.1 hm
    cases hm
    unfold accept at haccept
    split at haccept
    · cases haccept
      cases name <;> simp [MemberForm.isBareNew]
    · cases haccept
      simp [hstarts] at hmethod
  · obtain ⟨t, s₃, -, hm⟩ := mem_bind_iff.1 hm
    cases hm
    rfl

/-- A method has the name that stands in front of it, and stands behind no modifier. -/
theorem name_of_isBareNew {isReadonly : Bool} {name : PropertyName} {s : State} {m : MemberForm}
    (hm : m ∈ (namedTail type isReadonly name s).1) (hnew : m.isBareNew = true) :
    isReadonly = false ∧ name = .identifier "new" := by
  unfold namedTail at hm
  obtain ⟨isOptional, s₁, -, hm⟩ := mem_bind_iff.1 hm
  obtain ⟨kind, s₂, -, hm⟩ := mem_bind_iff.1 hm
  split at hm
  · next hmethod =>
    obtain ⟨signature, s₃, -, hm⟩ := mem_bind_iff.1 hm
    cases hm
    cases name with
    | identifier name =>
      simp only [MemberForm.isBareNew, Bool.and_eq_true, beq_iff_eq, Bool.not_eq_true'] at hnew hmethod
      exact ⟨hmethod.1, by rw [hnew.1]⟩
    | _ => cases hnew
  · obtain ⟨t, s₃, -, hm⟩ := mem_bind_iff.1 hm
    cases hm
    cases hnew

/-- A name that is a word is the current token, and is passed over. -/
theorem token_of_propertyName {name : String} {s s' : State}
    (h : propertyName s = (some (.identifier name), s')) :
    s.isWord name = true ∧ s' = s.advance := by
  have hmem : PropertyName.identifier name ∈ (propertyName s).1 := by
    rw [h]
    rfl
  unfold propertyName at h hmem
  rw [bind_run] at h hmem
  simp only [view] at h hmem
  cases htoken : s.token with
  | mk kind span value afterLineBreak =>
    rw [htoken] at h hmem
    cases kind with
    | identifier =>
      cases h
      refine ⟨?_, rfl⟩
      unfold State.isWord Token.isWord
      rw [htoken]
      simp
    | openBracket =>
      obtain ⟨_, _, -, hmem⟩ := mem_bind_iff.1 hmem
      obtain ⟨_, _, -, hmem⟩ := mem_bind_iff.1 hmem
      obtain ⟨_, _, -, hmem⟩ := mem_bind_iff.1 hmem
      cases hmem
    | _ => cases h

theorem notBareNew_of_namedMember {isReadonly : Bool} {s : State} {m : MemberForm}
    (hquiet : s.scanner.IsQuiet) (hconstruct : s.isConstruct = false)
    (hm : m ∈ (namedMember type isReadonly s).1) : m.isBareNew = false := by
  rw [namedMember] at hm
  obtain ⟨name, s', hname, hm⟩ := mem_bind_iff.1 hm
  by_contra hnew
  rw [Bool.not_eq_false] at hnew
  obtain ⟨-, rfl⟩ := name_of_isBareNew hm hnew
  obtain ⟨hword, rfl⟩ := token_of_propertyName hname
  have hstarts : State.startsSignature s.next.kind = false := by
    simpa [State.isConstruct, hword] using hconstruct
  have hkind : s.advance.kind = s.next.kind := by
    unfold State.kind State.token
    rw [State.advance_scanner_of_next (hquiet 1)]
    rfl
  rw [notBareNew_of_namedTail (hkind ▸ hstarts) hm] at hnew
  cases hnew

theorem notBareNew_of_readonly {s : State} {m : MemberForm}
    (hm : m ∈ (namedMember type true s).1) : m.isBareNew = false := by
  rw [namedMember] at hm
  obtain ⟨name, s', -, hm⟩ := mem_bind_iff.1 hm
  by_contra hnew
  rw [Bool.not_eq_false] at hnew
  cases (name_of_isBareNew hm hnew).1

theorem notBareNew_of_indexMember {isReadonly : Bool} {s : State} {m : MemberForm}
    (hm : m ∈ (indexMember type isReadonly s).1) : m.isBareNew = false := by
  unfold indexMember at hm
  obtain ⟨_, _, -, hm⟩ := mem_bind_iff.1 hm
  obtain ⟨key, _, -, hm⟩ := mem_bind_iff.1 hm
  obtain ⟨_, _, -, hm⟩ := mem_bind_iff.1 hm
  obtain ⟨keyType, _, -, hm⟩ := mem_bind_iff.1 hm
  obtain ⟨_, _, -, hm⟩ := mem_bind_iff.1 hm
  obtain ⟨_, _, -, hm⟩ := mem_bind_iff.1 hm
  obtain ⟨t, _, -, hm⟩ := mem_bind_iff.1 hm
  cases hm
  rfl

/-- Without directives no member is a method without a mark and with the bare name `new`. -/
theorem notBareNew_of_memberForm {s : State} {m : MemberForm} (hquiet : s.scanner.IsQuiet)
    (hm : m ∈ (memberForm type s).1) : m.isBareNew = false := by
  have hunmodified : ∀ (isReadonly : Bool) (t : State), (isReadonly = true ∨ t = s) →
      s.isConstruct = false →
      m ∈ (plainMember type isReadonly t).1 → m.isBareNew = false := by
    intro isReadonly t ht hconstruct hform
    obtain ⟨isIndex, t', hview, hform⟩ := mem_bind_iff.1 hform
    cases hview
    split at hform
    · exact notBareNew_of_indexMember hform
    · rcases ht with rfl | rfl
      · exact notBareNew_of_readonly hform
      · exact notBareNew_of_namedMember hquiet hconstruct hform
  unfold memberForm at hm
  obtain ⟨kind, s₁, hview, hm⟩ := mem_bind_iff.1 hm
  cases hview
  split at hm
  · obtain ⟨signature, s₂, -, hm⟩ := mem_bind_iff.1 hm
    cases hm
    rfl
  obtain ⟨isConstruct, s₁, hview, hm⟩ := mem_bind_iff.1 hm
  cases hview
  split at hm
  · obtain ⟨_, s₂, -, hm⟩ := mem_bind_iff.1 hm
    obtain ⟨signature, s₃, -, hm⟩ := mem_bind_iff.1 hm
    cases hm
    rfl
  next hconstruct =>
  rw [Bool.not_eq_true] at hconstruct
  obtain ⟨isReadonly, s₁, hview, hm⟩ := mem_bind_iff.1 hm
  cases hview
  split at hm
  · next hreadonly =>
    obtain ⟨_, s₂, -, hm⟩ := mem_bind_iff.1 hm
    exact hunmodified _ s₂ (Or.inl hreadonly) hconstruct hm
  · exact hunmodified _ s (Or.inr rfl) hconstruct hm

theorem ensures_memberForm (htype : Ensures isQuiet type (TypeExpr.IsFoundType isQuiet)) :
    Ensures isQuiet (memberForm type) (MemberForm.IsFound isQuiet) := by
  intro s hs
  obtain ⟨hstate, hvalue⟩ := ensures_memberForm_written htype s hs
  refine ⟨hstate, fun m hm ↦ ⟨(hvalue m hm).1, (hvalue m hm).2, fun hquiet ↦ ?_⟩⟩
  exact notBareNew_of_memberForm (hs.quiet hquiet) hm

theorem ensures_member (htype : Ensures isQuiet type (TypeExpr.IsFoundType isQuiet)) :
    Ensures isQuiet (member type) (fun m ↦ m.form.IsFound isQuiet) := by
  unfold member
  refine Ensures.bind (ensures_view _) fun start _ ↦ ?_
  refine Ensures.bind (ensures_memberForm htype) fun form hform ↦ ?_
  refine Ensures.bind (ensures_view _) fun span _ ↦ ?_
  refine Ensures.bind (ensures_view _) fun token _ ↦ ?_
  split
  · exact ensures_pure hform
  · exact Ensures.bind (ensures_reportHere _ _) fun _ _ ↦ ensures_pure hform

theorem ensures_recoverToMember : Ensures isQuiet recoverToMember (fun _ ↦ True) := by
  refine ensures_loop (P := fun _ ↦ True) (fun depth _ ↦ ?_) trivial
  refine Ensures.bind (ensures_view _) fun token _ ↦ ?_
  have hdone : Ensures isQuiet (pure (.done ()) : Parser (Step Nat Unit))
      (Step.Holds (fun _ ↦ True) fun _ ↦ True) := ensures_pure trivial
  have hagain : ∀ n, Ensures isQuiet (do advance; return .again n : Parser (Step Nat Unit))
      (Step.Holds (fun _ ↦ True) fun _ ↦ True) :=
    fun n ↦ Ensures.bind ensures_advance fun _ _ ↦ ensures_pure trivial
  split
  · exact hdone
  · exact hagain _
  · exact hagain _
  · exact hagain _
  · exact hagain _
  · exact hagain _
  · split
    · exact hdone
    · exact hagain _
  · split
    · exact Ensures.bind ensures_advance fun _ _ ↦ hdone
    · split
      · exact hdone
      · exact hagain _

theorem ensures_memberBlock (htype : Ensures isQuiet type (TypeExpr.IsFoundType isQuiet)) :
    Ensures isQuiet (memberBlock type) (fun ms ↦ ∀ m ∈ ms, m.form.IsFound isQuiet) := by
  rw [memberBlock]
  refine Ensures.bind (ensures_require _) fun _ _ ↦ ?_
  refine Ensures.bind (ensures_items _ (ensures_member htype) ensures_recoverToMember) fun ms hms ↦ ?_
  exact Ensures.bind (ensures_expect _) fun _ _ ↦ ensures_pure hms

end Rules
end Parser
end TypeSurface
