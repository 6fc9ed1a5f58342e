import TypeSurface.Proofs.Syntax.Parser.Keeping

/-!
# What every rule keeps

The rules of the grammar one by one, each with the progress of its loop.  The rules that may hold a
block are read with types of a bounded depth, since a lost member is one of some depth.
-/

namespace TypeSurface
namespace Parser

variable {R : State.Reading} {α : Type}

/-! ### Lists -/

section Lists

variable {item : Parser α}

theorem keeps_commaRound (hR : State.IsReading R) (closing : TokenKind) (hitem : Keeps R item)
    (items : List α) : Keeps R (commaRound closing item items) := by
  refine (keeps_view hR _).bind hR fun kind ↦ ?_
  split
  · exact keeps_pure hR _
  · refine hitem.bind hR fun a ↦ ?_
    refine (keeps_accept hR _).bind hR fun comma ↦ ?_
    split
    · exact keeps_pure hR _
    · exact keeps_pure hR _

theorem isProgressive_commaRound (hR : State.IsReading R) (closing : TokenKind)
    (hitem : Keeps R item) : IsProgressive (commaRound closing item) := by
  intro items s
  refine Takes.bind_right hR (keeps_view hR _) fun kind s' ↦ ?_
  split
  · exact takes_pure (fun h ↦ h)
  · refine Takes.bind_right hR hitem fun a s'' ↦ ?_
    exact takes_accept hR (by decide) (keeps_pure hR _) (takes_pure (fun h ↦ h))

theorem keeps_commaList (hR : State.IsReading R) (closing : TokenKind) (hitem : Keeps R item) :
    Keeps R (commaList closing item) :=
  (isProgressive_commaRound hR closing hitem).keeps_loop hR (keeps_commaRound hR closing hitem) []

theorem keeps_introducedRound (hR : State.IsReading R) (separator : TokenKind)
    (hitem : Keeps R item) (items : List α) : Keeps R (introducedRound separator item items) := by
  refine (keeps_accept hR _).bind hR fun found ↦ ?_
  split
  · exact hitem.bind hR fun a ↦ keeps_pure hR _
  · exact keeps_pure hR _

theorem isProgressive_introducedRound (hR : State.IsReading R) {separator : TokenKind}
    (hseparator : separator ≠ .endOfFile) (hitem : Keeps R item) :
    IsProgressive (introducedRound separator item) := by
  intro items s
  refine takes_accept hR hseparator ?_ (takes_pure (fun h ↦ h))
  exact hitem.bind hR fun a ↦ keeps_pure hR _

theorem keeps_introduced (hR : State.IsReading R) {separator : TokenKind}
    (hseparator : separator ≠ .endOfFile) (hitem : Keeps R item) (first : α) :
    Keeps R (introduced separator item first) :=
  (isProgressive_introducedRound hR hseparator hitem).keeps_loop hR
    (keeps_introducedRound hR separator hitem) [first]

end Lists

/-! ### Names -/

theorem keeps_identifier (hR : State.IsReading R) : Keeps R identifier := by
  refine (keeps_view hR _).bind hR fun token ↦ ?_
  split
  · exact (keeps_advance hR).bind hR fun _ ↦ keeps_pure hR _
  · exact keeps_refusal hR _ rfl

theorem keeps_segment (hR : State.IsReading R) : Keeps R (Prod.fst <$> identifier) :=
  (keeps_identifier hR).bind hR fun _ ↦ keeps_pure hR _

theorem keeps_dottedName (hR : State.IsReading R) : Keeps R dottedName := by
  refine (keeps_identifier hR).bind hR fun first ↦ ?_
  refine (keeps_introduced hR (by decide) (keeps_segment hR) _).bind hR fun segments ↦ ?_
  exact keeps_pure hR _

/-! ### Signatures -/

section Signatures

variable {type : Parser TypeExpr}

theorem keeps_annotatedType (hR : State.IsReading R) (htype : Keeps R type) :
    Keeps R (annotatedType type) := by
  refine (keeps_accept hR _).bind hR fun found ↦ ?_
  split
  · exact htype
  · exact keeps_pure hR _

theorem keeps_typeParam (hR : State.IsReading R) (htype : Keeps R type) :
    Keeps R (typeParam type) := by
  refine (keeps_identifier hR).bind hR fun name ↦ ?_
  have hdefault : ∀ bound : Option TypeExpr, Keeps R (do
      let default ← if ← accept .equals then attempt type else pure none
      return (⟨name.1, bound, default⟩ : TypeParam)) := by
    intro bound
    refine (keeps_accept hR _).bind hR fun found ↦ ?_
    split
    · exact htype.attempt.bind hR fun default ↦ keeps_pure hR _
    · exact (keeps_pure hR _).bind hR fun default ↦ keeps_pure hR _
  refine (keeps_view hR _).bind hR fun isBound ↦ ?_
  split
  · refine (keeps_advance hR).bind hR fun _ ↦ ?_
    exact htype.attempt.bind hR hdefault
  · exact (keeps_pure hR _).bind hR hdefault

theorem keeps_typeParamRound (hR : State.IsReading R) (htype : Keeps R type)
    (params : List TypeParam) : Keeps R (typeParamRound type params) := by
  refine (keeps_view hR _).bind hR fun kind ↦ ?_
  split
  · exact keeps_pure hR _
  · refine (keeps_typeParam hR htype).attempt.bind hR fun found ↦ ?_
    split
    · exact keeps_pure hR _
    · refine (keeps_accept hR _).bind hR fun comma ↦ ?_
      split
      · exact keeps_pure hR _
      · exact keeps_pure hR _

theorem isProgressive_typeParamRound (hR : State.IsReading R) (htype : Keeps R type) :
    IsProgressive (typeParamRound type) := by
  intro params s
  refine Takes.bind_right hR (keeps_view hR _) fun kind s' ↦ ?_
  split
  · exact takes_pure (fun h ↦ h)
  · refine Takes.bind_right hR (keeps_typeParam hR htype).attempt fun found s'' ↦ ?_
    split
    · exact takes_pure (fun h ↦ h)
    · exact takes_accept hR (by decide) (keeps_pure hR _) (takes_pure (fun h ↦ h))

theorem keeps_typeParams (hR : State.IsReading R) (htype : Keeps R type) :
    Keeps R (typeParams type) := by
  rw [typeParams]
  refine (keeps_accept hR _).bind hR fun found ↦ ?_
  split
  · have hloop := (isProgressive_typeParamRound hR htype).keeps_loop hR
      (keeps_typeParamRound hR htype) []
    refine hloop.bind hR fun params ↦ ?_
    exact (keeps_expect hR _).bind hR fun _ ↦ keeps_pure hR _
  · exact keeps_pure hR _

theorem keeps_param (hR : State.IsReading R) (htype : Keeps R type) : Keeps R (param type) := by
  refine (keeps_accept hR _).bind hR fun isRest ↦ ?_
  refine (keeps_identifier hR).bind hR fun name ↦ ?_
  refine (keeps_accept hR _).bind hR fun isOptional ↦ ?_
  exact (keeps_annotatedType hR htype).bind hR fun t ↦ keeps_pure hR _

theorem keeps_resultType (hR : State.IsReading R) (htype : Keeps R type) :
    Keeps R (resultType type) := by
  refine (keeps_view hR _).bind hR fun isPredicate ↦ ?_
  split
  · refine (keeps_view hR _).bind hR fun parameter ↦ ?_
    change Keeps R (do
      update fun s ↦ s.commit.advance
      return TypeExpr.predicate parameter (← type))
    refine (keeps_update hR.commit).bind hR fun _ ↦ ?_
    exact htype.bind hR fun t ↦ keeps_pure hR _
  · exact htype

theorem keeps_memberResult (hR : State.IsReading R) (htype : Keeps R type) :
    Keeps R (memberResult type) := by
  refine (keeps_accept hR _).bind hR fun found ↦ ?_
  split
  · exact keeps_resultType hR htype
  · exact keeps_pure hR _

theorem keeps_arrowResult (hR : State.IsReading R) (htype : Keeps R type) :
    Keeps R (arrowResult type) :=
  (keeps_require hR _).bind hR fun _ ↦ keeps_resultType hR htype

theorem keeps_signatureTail (hR : State.IsReading R) {result : Parser TypeExpr}
    (htype : Keeps R type) (hresult : Keeps R result) (ps : List TypeParam) :
    Keeps R (do
      let params ← commaList .closeParen (param type)
      require .closeParen
      return (⟨ps, params, ← result⟩ : Signature)) := by
  refine (keeps_commaList hR _ (keeps_param hR htype)).bind hR fun params ↦ ?_
  refine (keeps_require hR _).bind hR fun _ ↦ ?_
  exact hresult.bind hR fun t ↦ keeps_pure hR _

theorem keeps_signature (hR : State.IsReading R) {result : Parser TypeExpr}
    (htype : Keeps R type) (hresult : Keeps R result) : Keeps R (signature type result) := by
  refine (keeps_typeParams hR htype).bind hR fun ps ↦ ?_
  exact (keeps_require hR _).bind hR fun _ ↦ keeps_signatureTail hR htype hresult ps

theorem takes_signature (hR : State.IsReading R) {result : Parser TypeExpr}
    (htype : Keeps R type) (hresult : Keeps R result) (s : State) :
    Takes (fun _ ↦ True) (signature type result) s := by
  refine Takes.bind_right hR (keeps_typeParams hR htype) fun ps s' ↦ ?_
  refine Takes.bind_left hR (takes_require (by decide)) fun _ ↦ ?_
  exact keeps_signatureTail hR htype hresult ps

theorem keeps_memberSignature (hR : State.IsReading R) (htype : Keeps R type) :
    Keeps R (memberSignature type) :=
  keeps_signature hR htype (keeps_memberResult hR htype)

theorem keeps_arrowSignature (hR : State.IsReading R) (htype : Keeps R type) :
    Keeps R (arrowSignature type) :=
  keeps_signature hR htype (keeps_arrowResult hR htype)

/-! ### Members -/

theorem keeps_propertyName (hR : State.IsReading R) : Keeps R propertyName := by
  refine (keeps_view hR _).bind hR fun token ↦ ?_
  split
  · exact (keeps_advance hR).bind hR fun _ ↦ keeps_pure hR _
  · exact (keeps_advance hR).bind hR fun _ ↦ keeps_pure hR _
  · exact (keeps_advance hR).bind hR fun _ ↦ keeps_pure hR _
  · refine (keeps_advance hR).bind hR fun _ ↦ ?_
    refine (keeps_dottedName hR).bind hR fun name ↦ ?_
    exact (keeps_require hR _).bind hR fun _ ↦ keeps_pure hR _
  · refine (keeps_view hR _).bind hR fun text ↦ ?_
    exact keeps_refusal hR _ rfl

theorem kind_of_token {s : State} {kind : TokenKind} {span : Span} {value : String} {isFirst : Bool}
    (h : s.token = ⟨kind, span, value, isFirst⟩) : s.kind = kind := by
  unfold State.kind
  rw [h]

theorem takes_propertyName (hR : State.IsReading R) (s : State) :
    Takes (fun _ ↦ True) propertyName s := by
  have hname : ∀ name : PropertyName, Keeps R (pure name) := keeps_pure hR
  apply takes_view
  split
  · next h => exact takes_advance hR (by simp [kind_of_token h]) (hname _)
  · next h => exact takes_advance hR (by simp [kind_of_token h]) (hname _)
  · next h => exact takes_advance hR (by simp [kind_of_token h]) (hname _)
  · next h =>
    refine takes_advance hR (by simp [kind_of_token h]) ?_
    refine (keeps_dottedName hR).bind hR fun name ↦ ?_
    exact (keeps_require hR _).bind hR fun _ ↦ hname _
  · refine Takes.bind_right hR (keeps_view hR _) fun text s' ↦ ?_
    exact Takes.bind_right hR (keeps_reportHere hR _ rfl) fun _ _ ↦ takes_giveUp

theorem keeps_namedTail (hR : State.IsReading R) (htype : Keeps R type) (isReadonly : Bool)
    (name : PropertyName) : Keeps R (namedTail type isReadonly name) := by
  refine (keeps_accept hR _).bind hR fun isOptional ↦ ?_
  refine (keeps_view hR _).bind hR fun kind ↦ ?_
  split
  · exact (keeps_memberSignature hR htype).bind hR fun s ↦ keeps_pure hR _
  · exact (keeps_annotatedType hR htype).bind hR fun t ↦ keeps_pure hR _

theorem keeps_indexTail (hR : State.IsReading R) (htype : Keeps R type) (isReadonly : Bool) :
    Keeps R (do
      let (keyName, _) ← identifier
      let _ ← expect .colon
      let keyType ← type
      require .closeBracket
      require .colon
      return MemberForm.index isReadonly keyName keyType (← type)) := by
  refine (keeps_identifier hR).bind hR fun keyName ↦ ?_
  refine (keeps_expect hR _).bind hR fun _ ↦ ?_
  refine htype.bind hR fun keyType ↦ ?_
  refine (keeps_require hR _).bind hR fun _ ↦ ?_
  refine (keeps_require hR _).bind hR fun _ ↦ ?_
  exact htype.bind hR fun t ↦ keeps_pure hR _

theorem keeps_plainMember (hR : State.IsReading R) (htype : Keeps R type) (isReadonly : Bool) :
    Keeps R (plainMember type isReadonly) := by
  refine (keeps_view hR _).bind hR fun isIndex ↦ ?_
  split
  · exact (keeps_advance hR).bind hR fun _ ↦ keeps_indexTail hR htype isReadonly
  · exact (keeps_propertyName hR).bind hR fun name ↦ keeps_namedTail hR htype isReadonly name

theorem takes_plainMember (hR : State.IsReading R) (htype : Keeps R type) (isReadonly : Bool)
    (s : State) : Takes (fun _ ↦ True) (plainMember type isReadonly) s := by
  apply takes_view
  split
  · next hindex =>
    have hkind : s.kind = .openBracket := by
      simp only [State.isIndexStart, Bool.and_eq_true, decide_eq_true_eq] at hindex
      exact hindex.1
    exact takes_advance hR (by simp [hkind]) (keeps_indexTail hR htype isReadonly)
  · refine Takes.bind_left hR (takes_propertyName hR s) fun name ↦ ?_
    exact keeps_namedTail hR htype isReadonly name

theorem keeps_memberForm (hR : State.IsReading R) (htype : Keeps R type) :
    Keeps R (memberForm type) := by
  have hplain := keeps_plainMember hR htype
  unfold memberForm
  refine (keeps_view hR _).bind hR fun kind ↦ ?_
  split
  · exact (keeps_memberSignature hR htype).bind hR fun s ↦ keeps_pure hR _
  · refine (keeps_view hR _).bind hR fun isConstruct ↦ ?_
    split
    · refine (keeps_advance hR).bind hR fun _ ↦ ?_
      exact (keeps_memberSignature hR htype).bind hR fun s ↦ keeps_pure hR _
    · refine (keeps_view hR _).bind hR fun isReadonly ↦ ?_
      split
      · exact (keeps_advance hR).bind hR fun _ ↦ hplain isReadonly
      · exact hplain isReadonly

theorem takes_memberForm (hR : State.IsReading R) (htype : Keeps R type) (s : State) :
    Takes (fun _ ↦ True) (memberForm type) s := by
  have hplain := takes_plainMember hR htype
  have hsignature := takes_signature hR htype (keeps_memberResult hR htype)
  refine Takes.bind_right hR (keeps_view hR _) fun kind s ↦ ?_
  split
  · exact Takes.bind_left hR (hsignature s) fun _ ↦ keeps_pure hR _
  · refine Takes.bind_right hR (keeps_view hR _) fun isConstruct s ↦ ?_
    split
    · refine Takes.bind_right hR (keeps_advance hR) fun _ s ↦ ?_
      exact Takes.bind_left hR (hsignature s) fun _ ↦ keeps_pure hR _
    · refine Takes.bind_right hR (keeps_view hR _) fun isReadonly s ↦ ?_
      split
      · exact Takes.bind_right hR (keeps_advance hR) fun _ s ↦ hplain isReadonly s
      · exact hplain isReadonly s

theorem keeps_memberTail (hR : State.IsReading R) (start : Nat) (form : MemberForm) :
    Keeps R (do
      let span ← view (·.spanFrom start)
      let token ← view State.token
      unless [.semicolon, .comma, .closeBrace, .endOfFile].contains token.kind ||
          token.afterLineBreak do
        reportExpected ";"
      return (⟨form, span⟩ : PlacedMember)) := by
  refine (keeps_view hR _).bind hR fun span ↦ ?_
  refine (keeps_view hR _).bind hR fun token ↦ ?_
  split
  · exact keeps_pure hR _
  · exact (keeps_reportHere hR _ rfl).bind hR fun _ ↦ keeps_pure hR _

theorem keeps_member (hR : State.IsReading R) (htype : Keeps R type) : Keeps R (member type) := by
  refine (keeps_view hR _).bind hR fun start ↦ ?_
  exact (keeps_memberForm hR htype).bind hR fun form ↦ keeps_memberTail hR start form

theorem takes_member (hR : State.IsReading R) (htype : Keeps R type) (s : State) :
    Takes (fun _ ↦ True) (member type) s := by
  refine Takes.bind_right hR (keeps_view hR _) fun start s ↦ ?_
  exact Takes.bind_left hR (takes_memberForm hR htype s) fun form ↦ keeps_memberTail hR start form

end Signatures

end Parser
end TypeSurface
