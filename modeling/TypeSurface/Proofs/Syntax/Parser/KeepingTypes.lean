import TypeSurface.Proofs.Syntax.Parser.KeepingRules

/-!
# What types and blocks keep

The only loop that may come to a stall is that of a block.  A round of it takes a token unless the
block has lost a member, and all that is nested in it is of a bounded depth.
-/

namespace TypeSurface
namespace Parser

variable {R : State.Reading} {depth : Nat}

/-! ### Passing over a member -/

theorem keeps_memberRecoveryRound (hR : State.IsReading R) (level : Nat) :
    Keeps R (memberRecoveryRound level) := by
  have hdone : Keeps R (pure (.done ()) : Parser (Step Nat Unit)) := keeps_pure hR _
  have hagain : ∀ n, Keeps R (do advance; return .again n : Parser (Step Nat Unit)) :=
    fun n ↦ (keeps_advance hR).bind hR fun _ ↦ keeps_pure hR _
  refine (keeps_view hR _).bind hR fun token ↦ ?_
  split
  · exact hdone
  · exact hagain _
  · exact hagain _
  · exact hagain _
  · exact hagain _
  · exact hagain _
  · split
    · exact hdone
    · exact hagain _
  · split
    · exact (keeps_advance hR).bind hR fun _ ↦ hdone
    · split
      · exact hdone
      · exact hagain _

theorem isProgressive_memberRecoveryRound (hR : State.IsReading R) :
    IsProgressive memberRecoveryRound := by
  intro level s
  have hdone : Takes Step.IsAgain (pure (.done ()) : Parser (Step Nat Unit)) s :=
    takes_pure (fun h ↦ h)
  have hagain : s.kind ≠ .endOfFile → ∀ n,
      Takes Step.IsAgain (do advance; return .again n : Parser (Step Nat Unit)) s :=
    fun hkind n ↦ takes_advance hR hkind (keeps_pure hR _)
  apply takes_view
  split
  · exact hdone
  · next h => exact hagain (State.kind_ne_endOfFile h (by decide)) _
  · next h => exact hagain (State.kind_ne_endOfFile h (by decide)) _
  · next h => exact hagain (State.kind_ne_endOfFile h (by decide)) _
  · next h => exact hagain (State.kind_ne_endOfFile h (by decide)) _
  · next h => exact hagain (State.kind_ne_endOfFile h (by decide)) _
  · next h =>
    split
    · exact hdone
    · exact hagain (State.kind_ne_endOfFile h (by decide)) _
  · next hkind _ _ _ _ _ _ =>
    split
    · exact takes_advance hR hkind (keeps_pure hR _)
    · split
      · exact hdone
      · exact hagain hkind _

theorem keeps_recoverToMember (hR : State.IsReading R) : Keeps R recoverToMember :=
  (isProgressive_memberRecoveryRound hR).keeps_loop hR (keeps_memberRecoveryRound hR) 0

/-- Passing over the rest of a member takes a token, unless the line or the block ends at once. -/
theorem moves_recoverToMember (hR : State.IsReading R) {s : State}
    (hends : s.kind ≠ .closeBrace ∧ s.kind ≠ .endOfFile) (hline : s.token.afterLineBreak = false) :
    Moves recoverToMember s := by
  have hadvance : ∀ step : Step Nat Unit, Moves (do advance; return step) s :=
    fun step ↦ moves_advance hR hends.2 (keeps_pure hR _)
  have hround : Moves (memberRecoveryRound 0) s := by
    apply moves_view_iff.2
    split
    · next h => exact absurd h hends.2
    · exact hadvance _
    · exact hadvance _
    · exact hadvance _
    · exact hadvance _
    · exact hadvance _
    · next h => exact absurd h hends.1
    · split
      · exact hadvance _
      · rw [if_neg (by simp [hline])]
        exact hadvance _
  exact (remaining_loop_le hR (keeps_memberRecoveryRound hR)
    (isProgressive_memberRecoveryRound hR) 0 s).trans_lt hround

/-! ### Blocks -/

theorem keeps_blockRound (hR : State.IsReading R) (htype : Keeps R (typeExpr depth))
    (ms : List PlacedMember) : Keeps R (blockRound (typeExpr depth) ms) :=
  keeps_itemRound hR (keeps_member hR htype) (keeps_recoverToMember hR) ms

theorem kind_of_isInBlock {s : State} (hs : isInBlock s = true) :
    s.kind ≠ .closeBrace ∧ s.kind ≠ .endOfFile := by
  simp only [isInBlock, Bool.and_eq_true, Bool.not_eq_true', Bool.or_eq_false_iff,
    decide_eq_false_iff_not] at hs
  exact hs.1

/-- A round of a block takes a token, or the block has lost a member. -/
theorem moves_blockRound (hR : State.IsReading R) (htype : Keeps R (typeExpr depth))
    (ms : List PlacedMember) {s : State} (hs : isInBlock s = true) :
    Moves (blockRound (typeExpr depth) ms) s ∨
      IsExcused R depth s (blockRound (typeExpr depth) ms s).2 := by
  have hends := kind_of_isInBlock hs
  refine Or.imp_right ?_ (moves_itemRound hR (keeps_member hR htype) (takes_member hR htype s)
    (keeps_recoverToMember hR) hends.2 ms)
  rintro ⟨hunread, hscanner, hstuck, hrecovered⟩
  -- What stands there has not changed, and it can only be a line break that stops the recovery.
  have htoken : (member (typeExpr depth) s).2.token = s.token := congrArg Scanner.token hscanner
  have hkind : (member (typeExpr depth) s).2.kind = s.kind := congrArg Token.kind htoken
  have hline : s.token.afterLineBreak = true := by
    by_contra hno
    refine hstuck (moves_recoverToMember hR ?_ ?_)
    · rw [hkind]
      exact hends
    · rw [htoken]
      exact Bool.eq_false_iff.2 hno
  refine ⟨⟨hs, hline, hunread, hscanner⟩, (keeps_member hR htype).fails s hunread, ?_⟩
  have hsteps := (keeps_recoverToMember hR).steps (member (typeExpr depth) s).2
  rw [← hrecovered] at hsteps
  exact hsteps

theorem keeps_blockLoop (hR : State.IsReading R) (htype : Keeps R (typeExpr depth)) :
    Keeps R (loopWhile isInBlock (blockRound (typeExpr depth)) []) := by
  refine keeps_loopWhile hR (keeps_blockRound hR htype) (fun ms s hs ↦ ?_) []
  exact (moves_blockRound hR htype ms hs).imp (fun h ↦ h.takes) fun h ↦ ⟨depth, h⟩

theorem keeps_memberBlock (hR : State.IsReading R) (htype : Keeps R (typeExpr depth)) :
    Keeps R (memberBlock (typeExpr depth)) := by
  rw [memberBlock]
  refine (keeps_require hR _).bind hR fun _ ↦ ?_
  refine (keeps_blockLoop hR htype).bind hR fun ms ↦ ?_
  exact (keeps_expect hR _).bind hR fun _ ↦ keeps_pure hR _

/-! ### Types -/

section Types

variable {type : Parser TypeExpr}

theorem keeps_typeReference (hR : State.IsReading R) (htype : Keeps R type) :
    Keeps R (typeReference type) := by
  refine (keeps_dottedName hR).bind hR fun name ↦ ?_
  refine (keeps_view hR _).bind hR fun token ↦ ?_
  split
  · refine (keeps_advance hR).bind hR fun _ ↦ ?_
    refine (keeps_commaList hR _ htype).bind hR fun args ↦ ?_
    exact (keeps_require hR _).bind hR fun _ ↦ keeps_pure hR _
  · exact keeps_pure hR _

theorem keeps_tupleElement (hR : State.IsReading R) (htype : Keeps R type) :
    Keeps R (tupleElement type) := by
  have helement : ∀ isRest isNamedOptional : Bool, Keeps R (do
      let t ← type
      let isOptional ← if isNamedOptional then pure true else accept .question
      return (⟨t, isOptional, isRest⟩ : TupleElement)) := by
    intro isRest isNamedOptional
    refine htype.bind hR fun t ↦ ?_
    split
    · exact (keeps_pure hR _).bind hR fun _ ↦ keeps_pure hR _
    · exact (keeps_accept hR _).bind hR fun _ ↦ keeps_pure hR _
  refine (keeps_accept hR _).bind hR fun isRest ↦ ?_
  refine (keeps_view hR _).bind hR fun isName ↦ ?_
  split
  · refine (keeps_advance hR).bind hR fun _ ↦ ?_
    refine (keeps_accept hR _).bind hR fun isOptional ↦ ?_
    refine (keeps_expect hR _).bind hR fun _ ↦ ?_
    exact (keeps_pure hR _).bind hR fun _ ↦ helement _ _
  · exact (keeps_pure hR _).bind hR fun _ ↦ helement _ _

theorem keeps_wordType (hR : State.IsReading R) (htype : Keeps R type) :
    Keeps R (wordType type) := by
  have hreference := keeps_typeReference hR htype
  refine (keeps_view hR _).bind hR fun word ↦ ?_
  split
  · refine (keeps_view hR _).bind hR fun kind ↦ ?_
    split
    · exact hreference
    · exact (keeps_advance hR).bind hR fun _ ↦ keeps_pure hR _
  · split
    · exact (keeps_advance hR).bind hR fun _ ↦ keeps_pure hR _
    · exact hreference

theorem keeps_bracketRound (hR : State.IsReading R) (t : TypeExpr) : Keeps R (bracketRound t) := by
  refine (keeps_view hR _).bind hR fun token ↦ ?_
  refine (keeps_view hR _).bind hR fun kind ↦ ?_
  split
  · refine (keeps_advance hR).bind hR fun _ ↦ ?_
    exact (keeps_advance hR).bind hR fun _ ↦ keeps_pure hR _
  · exact keeps_pure hR _

theorem isProgressive_bracketRound (hR : State.IsReading R) : IsProgressive bracketRound := by
  intro t s
  refine takes_view (takes_view ?_)
  split
  · next hbracket =>
    simp only [Bool.and_eq_true, decide_eq_true_eq] at hbracket
    refine takes_advance hR (State.kind_ne_endOfFile hbracket.1.1 (by decide)) ?_
    exact (keeps_advance hR).bind hR fun _ ↦ keeps_pure hR _
  · exact takes_pure (fun h ↦ h)

theorem keeps_operatorRound (hR : State.IsReading R) (operators : List Operator) :
    Keeps R (operatorRound operators) := by
  refine (keeps_view hR _).bind hR fun operator ↦ ?_
  split
  · exact (keeps_advance hR).bind hR fun _ ↦ keeps_pure hR _
  · exact keeps_pure hR _

theorem kind_of_operator? {s : State} {op : Operator} (h : s.operator? = some op) :
    s.token.kind = .identifier := by
  have hword : ∀ text, s.isWord text = true → s.token.kind = .identifier := by
    intro text htext
    simp only [State.isWord, Token.isWord, Bool.and_eq_true, decide_eq_true_eq] at htext
    exact htext.1
  unfold State.operator? at h
  split at h
  · next hkeyOf => exact hword _ (Bool.and_eq_true_iff.1 hkeyOf).1
  · split at h
    · next hreadonly => exact hword _ (Bool.and_eq_true_iff.1 hreadonly).1
    · cases h

theorem isProgressive_operatorRound (hR : State.IsReading R) : IsProgressive operatorRound := by
  intro operators s
  apply takes_view
  split
  · next op hop =>
    exact takes_advance hR (State.kind_ne_endOfFile (kind_of_operator? hop) (by decide))
      (keeps_pure hR _)
  · exact takes_pure (fun h ↦ h)

end Types

theorem keeps_primaryType (hR : State.IsReading R) (htype : Keeps R (typeExpr depth)) :
    Keeps R (primaryType (typeExpr depth)) := by
  refine (keeps_view hR _).bind hR fun token ↦ ?_
  split
  · exact keeps_wordType hR htype
  · exact (keeps_advance hR).bind hR fun _ ↦ keeps_pure hR _
  · exact (keeps_advance hR).bind hR fun _ ↦ keeps_pure hR _
  · refine (keeps_advance hR).bind hR fun _ ↦ ?_
    refine htype.bind hR fun inner ↦ ?_
    exact (keeps_expect hR _).bind hR fun _ ↦ keeps_pure hR _
  · exact (keeps_memberBlock hR htype).bind hR fun ms ↦ keeps_pure hR _
  · refine (keeps_advance hR).bind hR fun _ ↦ ?_
    refine (keeps_commaList hR _ (keeps_tupleElement hR htype)).bind hR fun elements ↦ ?_
    exact (keeps_require hR _).bind hR fun _ ↦ keeps_pure hR _
  · refine (keeps_view hR _).bind hR fun kind ↦ ?_
    split
    · refine (keeps_advance hR).bind hR fun _ ↦ ?_
      refine (keeps_view hR _).bind hR fun text ↦ ?_
      exact (keeps_advance hR).bind hR fun _ ↦ keeps_pure hR _
    · exact keeps_refusal hR _ rfl
  · exact keeps_refusal hR _ rfl

theorem keeps_operatorType (hR : State.IsReading R) (htype : Keeps R (typeExpr depth)) :
    Keeps R (operatorType (typeExpr depth)) := by
  have hoperators := (isProgressive_operatorRound hR).keeps_loop hR (keeps_operatorRound hR) []
  have hpostfix : Keeps R (postfixType (typeExpr depth)) := by
    rw [postfixType]
    refine (keeps_primaryType hR htype).bind hR fun element ↦ ?_
    exact (isProgressive_bracketRound hR).keeps_loop hR (keeps_bracketRound hR) element
  rw [operatorType]
  refine hoperators.bind hR fun operators ↦ ?_
  exact hpostfix.bind hR fun t ↦ keeps_pure hR _

theorem keeps_combined (hR : State.IsReading R) {first item : Parser TypeExpr}
    {combine : List TypeExpr → TypeExpr} {separator : TokenKind}
    (hseparator : separator ≠ .endOfFile) (hfirst : Keeps R first) (hitem : Keeps R item) :
    Keeps R (combined separator combine first item) := by
  refine hfirst.bind hR fun t ↦ ?_
  refine (keeps_view hR _).bind hR fun kind ↦ ?_
  split
  · exact (keeps_introduced hR hseparator hitem t).bind hR fun ts ↦ keeps_pure hR _
  · exact keeps_pure hR _

theorem keeps_intersectionType (hR : State.IsReading R) (htype : Keeps R (typeExpr depth)) :
    Keeps R (intersectionType (typeExpr depth)) := by
  have hoperator := keeps_operatorType hR htype
  refine (keeps_accept hR _).bind hR fun _ ↦ ?_
  exact keeps_combined hR (by decide) hoperator hoperator

theorem keeps_unionMember (hR : State.IsReading R) (htype : Keeps R (typeExpr depth)) :
    Keeps R (unionMember (typeExpr depth)) := by
  refine (keeps_view hR _).bind hR fun isFunction ↦ ?_
  split
  · exact (keeps_arrowSignature hR htype).bind hR fun s ↦ keeps_pure hR _
  · exact keeps_intersectionType hR htype

theorem keeps_typeBody (hR : State.IsReading R) (htype : Keeps R (typeExpr depth)) :
    Keeps R (typeBody (typeExpr depth)) := by
  refine (keeps_view hR _).bind hR fun isFunction ↦ ?_
  split
  · exact (keeps_arrowSignature hR htype).bind hR fun s ↦ keeps_pure hR _
  · refine (keeps_view hR _).bind hR fun isConstruct ↦ ?_
    split
    · refine (keeps_advance hR).bind hR fun _ ↦ ?_
      exact (keeps_arrowSignature hR htype).bind hR fun s ↦ keeps_pure hR _
    · refine (keeps_accept hR _).bind hR fun _ ↦ ?_
      exact keeps_combined hR (by decide) (keeps_intersectionType hR htype)
        (keeps_unionMember hR htype)

/-- Types keep the relation, however deep they may be. -/
theorem keeps_typeExpr (hR : State.IsReading R) (depth : Nat) : Keeps R (typeExpr depth) := by
  -- The rules keep what the parser of nested types keeps, which is that of one level less.
  induction depth with
  | zero =>
    refine ⟨fun s ↦ ?_, fun s _ ↦ ?_⟩
    · exact (hR.abandon s _ rfl).1
    · exact (hR.abandon s _ rfl).2
  | succ depth ih => exact keeps_typeBody hR ih

end Parser
end TypeSurface
