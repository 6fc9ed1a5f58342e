import TypeSurface.Proofs.Syntax.Parser.Operands

/-!
# Reading types

The pieces of a type that is readable and not too deep are read as the type.
-/

namespace TypeSurface
namespace Parser

/-- What may stand behind a member of an intersection. -/
def memberEnds : List TokenKind := .bar :: .ampersand :: typeEnds

theorem not_memberEnds_of_mem_operandStarts {kind : TokenKind}
    (hkind : kind ∈ Operator.keyOf.operandStarts) : kind ∉ memberEnds := by
  revert kind
  decide

section Operators

variable {type : Parser TypeExpr} {depth : Nat} {k : Piece} {ks : List Piece}

/-- An operand of `[]`, which may stand in parentheses. -/
theorem reads_postfixType (h : NestsBelow type depth) {t : TypeExpr} {isLoose : Bool}
    (ht : t.IsReadable) (hproper : t.isProper = true) (hnew : isLoose = true → t.startsNew = false)
    (hloose : isLoose = false → t.isLoosePostfixOperand = false)
    (hdepth : (t.depth + if isLoose then 1 else 0) ≤ depth) (hk : EndsAt memberEnds t k) :
    Reads (postfixType type) (enclosed isLoose t.pieces ++ k :: ks) t (k :: ks) := by
  have hbroken : ∀ kind ∉ memberEnds, k.kind = kind → k.isBroken = true :=
    fun kind hkind h ↦ hk.broken (h ▸ hkind)
  have hloop : Reads (loop bracketRound t) (k :: ks) t (k :: ks) :=
    reads_brackets_none (hbroken _ (by decide))
  cases isLoose with
  | true =>
    rw [if_pos rfl] at hdepth
    rw [postfixType]
    exact Reads.bind (reads_parenthesized (h.nests t ⟨ht, hproper, hnew rfl⟩ hdepth)) hloop
  | false =>
    exact reads_postfix_append h ht hproper (hloose rfl) hdepth (hk.ne (by decide) (by decide))
      (hbroken _ (by decide)) hloop

theorem operator?_of_at {op : Operator} {q : Piece} {qs : List Piece} {s : State}
    (hq : q.kind ∈ op.operandStarts) (h : s.At (.word op.word :: q :: qs)) :
    s.operator? = some op := by
  unfold State.operator?
  rw [State.isWord_of_at h, State.isWord_of_at h, State.isNextIn_of_at h, State.isNextIn_of_at h]
  cases op with
  | keyOf =>
    unfold Operator.operandStarts at hq
    rw [if_pos (by simpa [Piece.word, Operator.word] using hq)]
  | readonly =>
    unfold Operator.operandStarts at hq
    rw [if_neg (by simp [Piece.word, Operator.word]),
      if_pos (by simpa [Piece.word, Operator.word] using hq)]

/-- An operator is applied to what is read behind it. -/
theorem reads_operator {op : Operator} {operators : List Operator} {q : Piece}
    {qs us : List Piece} {r : TypeExpr} (hq : q.kind ∈ op.operandStarts)
    (h : Reads (loop operatorRound (op :: operators) >>= operand type) (q :: qs) r us) :
    Reads (loop operatorRound operators >>= operand type) (.word op.word :: q :: qs) r us := by
  refine reads_loop_again_bind ?_ (Nat.lt_succ_self _) h
  unfold operatorRound
  refine Reads.bind (reads_view fun s hs ↦ operator?_of_at hq hs) ?_
  refine Reads.bind (reads_advance (by simp [Piece.word]) (by simp)) ?_
  exact reads_pure _ _

theorem reads_operand (h : NestsBelow type depth) {t : TypeExpr} (isLoose : Bool)
    (operators : List Operator) (ht : t.IsReadable) (hproper : t.isProper = true)
    (hnew : isLoose = true → t.startsNew = false)
    (hloose : isLoose = false → t.isLoosePostfixOperand = false)
    (hdepth : (t.depth + if isLoose then 1 else 0) ≤ depth) (hk : EndsAt memberEnds t k) :
    Reads (loop operatorRound operators >>= operand type) (enclosed isLoose t.pieces ++ k :: ks)
      (operators.foldl (fun t op ↦ op.apply t) t) (k :: ks) := by
  have hround : Reads (operatorRound operators) (enclosed isLoose t.pieces ++ k :: ks)
      (.done operators) (enclosed isLoose t.pieces ++ k :: ks) := by
    unfold operatorRound
    refine Reads.bind (reads_view (a := none) fun s hs ↦ ?_) (reads_pure _ _)
    cases isLoose with
    | true => exact State.operator?_of_kind (p := .mark .openParen) hs (by simp [Piece.mark])
    | false =>
      exact State.operator?_of_operand ht hproper (hloose rfl)
        (fun hkind ↦ hk.plain (not_memberEnds_of_mem_operandStarts hkind)) hs
  refine Reads.bind (reads_loop_done hround) ?_
  unfold operand
  refine Reads.bind (reads_postfixType h ht hproper hnew hloose hdepth hk) ?_
  exact reads_pure _ _

/-- A type that may stand behind an operator, in front of which operators have been read. -/
theorem reads_operators (h : NestsBelow type depth) {t : TypeExpr} (operators : List Operator)
    (ht : t.IsReadable) (hproper : t.isProper = true)
    (hloose : t.isLoosePrefixOperand = false) (hdepth : t.depth ≤ depth)
    (hk : EndsAt memberEnds t k) :
    Reads (loop operatorRound operators >>= operand type) (t.pieces ++ k :: ks)
      (operators.foldl (fun t op ↦ op.apply t) t) (k :: ks) := by
  -- Each operator that the type starts with moves from the type to those that have been read.
  induction t using TypeExpr.induction_on_children generalizing operators with
  | h t ih =>
    have happly : ∀ (op : Operator) (u : TypeExpr), t = op.apply u →
        t.pieces = [.word op.word] ++ enclosed u.isLoosePrefixOperand u.pieces →
        u.isProper = true → u ∈ t.children →
        (u.isLoosePrefixOperand = true → u ∈ t.wholes) →
        t.depth = u.depth + (if u.isLoosePrefixOperand then 1 else 0) →
        Reads (loop operatorRound operators >>= operand type) (t.pieces ++ k :: ks)
          (operators.foldl (fun t op ↦ op.apply t) t) (k :: ks) := by
      intro op u htu hpieces hu hchild hwhole hdepth'
      have happlied := ht.clear.applied
      rw [htu] at happlied
      obtain ⟨q, qs, hqs, hq, -⟩ :=
        TypeExpr.operandStarts_of_applied (ht.child hchild) hu happlied
      have hfold : operators.foldl (fun t op ↦ op.apply t) t =
          (op :: operators).foldl (fun t op ↦ op.apply t) u := by
        rw [List.foldl_cons, htu]
      have hqs' : enclosed u.isLoosePrefixOperand u.pieces ++ k :: ks = q :: (qs ++ k :: ks) := by
        rw [hqs]
        rfl
      rw [hpieces, List.append_assoc, hqs', hfold]
      refine reads_operator hq ?_
      rw [← hqs']
      cases huloose : u.isLoosePrefixOperand with
      | true =>
        rw [huloose] at hdepth'
        exact reads_operand h true (op :: operators) (ht.child hchild) hu
          (fun _ ↦ ht.clear.wholes u (hwhole huloose)) (fun h ↦ by cases h) (hdepth' ▸ hdepth)
          (hk.child hchild)
      | false =>
        rw [huloose, if_neg (by simp), Nat.add_zero] at hdepth'
        exact ih u hchild (op :: operators) (ht.child hchild) hu huloose (hdepth' ▸ hdepth)
          (hk.child hchild)
    have hwritten := ht.written
    cases t with
    | keyOf u =>
      exact happly .keyOf u rfl (by rw [TypeExpr.pieces]; rfl) hwritten
        (by simp [TypeExpr.children]) (by simp +contextual [TypeExpr.wholes]) (by rw [TypeExpr.depth])
    | readonly u =>
      exact happly .readonly u rfl (by rw [TypeExpr.pieces]; rfl) hwritten
        (by simp [TypeExpr.children]) (by simp +contextual [TypeExpr.wholes]) (by rw [TypeExpr.depth])
    | union members => cases hloose
    | intersection members => cases hloose
    | function signature => cases hloose
    | construct signature => cases hloose
    | predicate parameter u => cases hproper
    | _ =>
      exact reads_operand h false operators ht hproper (fun hfalse ↦ by cases hfalse) (fun _ ↦ rfl)
        hdepth hk

/-- A member of an intersection. -/
theorem reads_operatorType (h : NestsBelow type depth) {t : TypeExpr} (isLoose : Bool)
    (ht : t.IsReadable) (hproper : t.isProper = true) (hnew : isLoose = true → t.startsNew = false)
    (hloose : isLoose = false → t.isLoosePrefixOperand = false)
    (hdepth : (t.depth + if isLoose then 1 else 0) ≤ depth) (hk : EndsAt memberEnds t k) :
    Reads (operatorType type) (enclosed isLoose t.pieces ++ k :: ks) t (k :: ks) := by
  rw [operatorType]
  cases isLoose with
  | true => exact reads_operand h true [] ht hproper hnew (fun h ↦ by cases h) hdepth hk
  | false => exact reads_operators h [] ht hproper (hloose rfl) hdepth hk

end Operators

/-! ### Intersections and unions -/

section Combinations

variable {type : Parser TypeExpr} {depth : Nat} {k : Piece} {ks : List Piece}

/-- What may stand behind a member of a union. -/
def unionEnds : List TokenKind := .bar :: typeEnds

/-- No separator stands in front of the first member. -/
theorem reads_no_separator {kind : TokenKind} {ps : List Piece} (h : IsHead ps)
    (hkind : kind = .bar ∨ kind = .ampersand) :
    Reads (accept kind) (ps ++ ks) false (ps ++ ks) := by
  cases h with
  | symbol hp =>
    refine reads_accept_none ?_
    rintro hbar
    rcases hkind with rfl | rfl <;> simp [hbar, symbolStarts] at hp
  | word w =>
    refine reads_accept_none ?_
    rcases hkind with rfl | rfl <;> simp [Piece.word]
  | words w =>
    refine reads_accept_none ?_
    rcases hkind with rfl | rfl <;> simp [Piece.word]

/-- Members with separators between them, of which the first is read by a rule of its own. -/
theorem reads_combined {separator : TokenKind} {isLoose : TypeExpr → Bool} {ms : List TypeExpr}
    {first item : Parser TypeExpr} {combine : List TypeExpr → TypeExpr} (hlength : 2 ≤ ms.length)
    (hending : separator ≠ .endOfFile) (hk : k.kind ≠ separator)
    (hms : ∀ m ∈ ms, ∀ k' ks', k'.kind = separator ∨ k' = k →
      Reads first (enclosed (isLoose m) m.pieces ++ k' :: ks') m (k' :: ks') ∧
        Reads item (enclosed (isLoose m) m.pieces ++ k' :: ks') m (k' :: ks')) :
    Reads (combined separator combine first item)
      (separated (.mark separator) (ms.map fun m ↦ enclosed (isLoose m) m.pieces) ++ k :: ks)
      (combine ms) (k :: ks) := by
  match ms, hlength with
  | m :: n :: ms, _ =>
    rw [List.forall_mem_cons] at hms
    have hothers : Reads (introduced separator item m) _ (m :: n :: ms) (k :: ks) :=
      reads_introduced hending hk fun u hu k' ks' hk' ↦ (hms.2 u hu k' ks' hk').2
    rw [List.flatMap_cons, List.cons_append, List.cons_append] at hothers
    rw [List.map_cons, separated_cons, List.map_cons, List.flatMap_cons, List.flatMap_map,
      List.append_assoc, List.cons_append, List.cons_append]
    refine Reads.bind (hms.1 (.mark separator) _ (Or.inl rfl)).1 ?_
    refine Reads.bind reads_kind ?_
    rw [if_pos (by rfl)]
    exact Reads.bind hothers (reads_pure _ _)

theorem isLoosePrefixOperand_of_member {m : TypeExpr}
    (hplain : m.isIntersection = false) (hloose : m.isLooseIntersectionMember = false) :
    m.isLoosePrefixOperand = false := by
  cases m with
  | union members => cases hloose
  | intersection members => cases hplain
  | function signature => cases hloose
  | construct signature => cases hloose
  | _ => rfl

theorem reads_intersectionMember (ks : List Piece) (h : NestsBelow type depth) {members : List TypeExpr}
    (ht : (TypeExpr.intersection members).IsReadable)
    (hdepth : (TypeExpr.intersection members).depth ≤ depth) {m : TypeExpr} (hm : m ∈ members)
    (hk : EndsAt memberEnds m k) :
    Reads (operatorType type) (enclosed m.isLooseIntersectionMember m.pieces ++ k :: ks) m
      (k :: ks) := by
  have hwritten := ht.written
  have hflat := ht.self.flat
  simp only [TypeExpr.isWrittenNode, TypeExpr.isFlatNode, Bool.and_eq_true, decide_eq_true_eq,
    List.all_eq_true, Bool.not_eq_true'] at hwritten hflat
  rw [TypeExpr.depth, greatest_le_iff, List.forall_mem_map] at hdepth
  exact reads_operatorType h _ (ht.child hm) (hwritten.2 m hm)
    (fun hloose ↦ ht.clear.wholes m (List.mem_filter.2 ⟨hm, hloose⟩))
    (fun hloose ↦ isLoosePrefixOperand_of_member (hflat m hm) hloose) (hdepth m hm) hk

/-- A member of a union, which is an intersection or an operand. -/
theorem reads_intersectionType (h : NestsBelow type depth) {t : TypeExpr} (isLoose : Bool)
    (ht : t.IsReadable) (hproper : t.isProper = true) (hnew : isLoose = true → t.startsNew = false)
    (hloose : isLoose = false → t.isIntersection = false → t.isLoosePrefixOperand = false)
    (hdepth : (t.depth + if isLoose then 1 else 0) ≤ depth) (hk : EndsAt unionEnds t k) :
    Reads (intersectionType type) (enclosed isLoose t.pieces ++ k :: ks) t (k :: ks) := by
  have hends : EndsAt memberEnds t k := hk.mono (by decide)
  have hampersand : k.kind ≠ .ampersand := hk.ne (by decide) (by decide)
  have hhead : IsHead (enclosed isLoose t.pieces) :=
    isHead_enclosed fun _ ↦ TypeExpr.isHead_pieces ht hproper
  unfold intersectionType
  refine Reads.bind (reads_no_separator hhead (Or.inr rfl)) ?_
  by_cases hmembers : isLoose = false ∧ t.isIntersection = true
  · obtain ⟨rfl, hintersection⟩ := hmembers
    cases t with
    | intersection members =>
      rw [if_neg (by simp), Nat.add_zero] at hdepth
      have hwritten := ht.written
      simp only [TypeExpr.isWrittenNode, Bool.and_eq_true, decide_eq_true_eq] at hwritten
      rw [enclosed, if_neg (by simp), TypeExpr.pieces]
      refine reads_combined hwritten.1 (by decide) hampersand fun m hm k' ks' hk' ↦ ?_
      have hends' : EndsAt memberEnds m k' := by
        rcases hk' with hk' | rfl
        · exact .mark (by simp [hk', memberEnds])
        · exact hends.child hm
      have hread := reads_intersectionMember ks' h ht hdepth hm hends'
      exact ⟨hread, hread⟩
    | _ => cases hintersection
  · refine Reads.bind (reads_operatorType h isLoose ht hproper hnew (fun hfalse ↦ ?_) hdepth
      hends) ?_
    · refine hloose hfalse ?_
      simpa [hfalse] using hmembers
    · refine Reads.bind reads_kind ?_
      rw [if_neg hampersand]
      exact reads_pure _ _

theorem isLoosePrefixOperand_of_unionMember {m : TypeExpr} (hplain : m.isUnion = false)
    (hloose : m.isLooseUnionMember = false) (hintersection : m.isIntersection = false) :
    m.isLoosePrefixOperand = false := by
  cases m with
  | union members => cases hplain
  | intersection members => cases hintersection
  | function signature => cases hloose
  | construct signature => cases hloose
  | _ => rfl

theorem reads_atFunctionType_none {ps : List Piece} (hps : IsOperandHead ps) :
    Reads atFunctionType ps false ps := by
  refine reads_view fun s hs ↦ ?_
  obtain ⟨hangle, hstart⟩ := State.not_isFunctionStart_of_isOperandHead hps hs
  simp [hangle, hstart]

/-- A member of a union behind the first. -/
theorem reads_unionMember (h : NestsBelow type depth) {members : List TypeExpr}
    (ht : (TypeExpr.union members).IsReadable)
    (hdepth : (TypeExpr.union members).depth ≤ depth) {m : TypeExpr} (hm : m ∈ members)
    (hk : EndsAt unionEnds m k) :
    Reads (intersectionType type) (enclosed m.isLooseUnionMember m.pieces ++ k :: ks) m
        (k :: ks) ∧
      Reads (unionMember type) (enclosed m.isLooseUnionMember m.pieces ++ k :: ks) m (k :: ks) := by
  have hwritten := ht.written
  have hflat := ht.self.flat
  simp only [TypeExpr.isWrittenNode, TypeExpr.isFlatNode, Bool.and_eq_true, decide_eq_true_eq,
    List.all_eq_true, Bool.not_eq_true'] at hwritten hflat
  rw [TypeExpr.depth, greatest_le_iff, List.forall_mem_map] at hdepth
  have hmember : Reads (intersectionType type) (enclosed m.isLooseUnionMember m.pieces ++ k :: ks) m
      (k :: ks) :=
    reads_intersectionType h _ (ht.child hm) (hwritten.2 m hm)
      (fun hloose ↦ ht.clear.wholes m (List.mem_filter.2 ⟨hm, hloose⟩))
      (isLoosePrefixOperand_of_unionMember (hflat m hm)) (hdepth m hm) hk
  have hhead : IsOperandHead (enclosed m.isLooseUnionMember m.pieces ++ k :: ks) :=
    isOperandHead_enclosed (ht.child hm) (hwritten.2 m hm)
      TypeExpr.isLoosePostfixOperand_of_unionMember
      (isOperandHead_pieces (ht.child hm) (hwritten.2 m hm))
  refine ⟨hmember, ?_⟩
  unfold unionMember
  refine Reads.bind (reads_atFunctionType_none hhead) ?_
  exact hmember

theorem reads_unionType (h : NestsBelow type depth) {t : TypeExpr} (isLoose : Bool) (ht : t.IsWhole)
    (hloose : isLoose = false → t.isLooseUnionMember = false)
    (hdepth : (t.depth + if isLoose then 1 else 0) ≤ depth) (hk : EndsAt typeEnds t k) :
    Reads (unionType type) (enclosed isLoose t.pieces ++ k :: ks) t (k :: ks) := by
  have hends : EndsAt unionEnds t k := hk.mono (by decide)
  have hbar : k.kind ≠ .bar := hk.ne (by decide) (by decide)
  have hhead : IsHead (enclosed isLoose t.pieces) :=
    isHead_enclosed fun _ ↦ TypeExpr.isHead_pieces ht.readable ht.proper
  unfold unionType
  refine Reads.bind (reads_no_separator hhead (Or.inl rfl)) ?_
  by_cases hmembers : isLoose = false ∧ t.isUnion = true
  · obtain ⟨rfl, hunion⟩ := hmembers
    cases t with
    | union members =>
      rw [if_neg (by simp), Nat.add_zero] at hdepth
      have hwritten := ht.readable.written
      simp only [TypeExpr.isWrittenNode, Bool.and_eq_true, decide_eq_true_eq] at hwritten
      rw [enclosed, if_neg (by simp), TypeExpr.pieces]
      refine reads_combined hwritten.1 (by decide) hbar fun m hm k' ks' hk' ↦ ?_
      refine reads_unionMember h ht.readable hdepth hm ?_
      rcases hk' with hk' | rfl
      · exact .mark (by simp [hk', unionEnds])
      · exact hends.child hm
    | _ => cases hunion
  · refine Reads.bind (reads_intersectionType h isLoose ht.readable ht.proper (fun _ ↦ ht.start)
      (fun hfalse hintersection ↦ ?_) hdepth hends) ?_
    · have hunion : t.isUnion = false := by simpa [hfalse] using hmembers
      exact isLoosePrefixOperand_of_unionMember hunion (hloose hfalse) hintersection
    · refine Reads.bind reads_kind ?_
      rw [if_neg hbar]
      exact reads_pure _ _

/-! ### Whole types -/

/-- A type that is no function type and no construct type, or stands in parentheses. -/
theorem reads_typeBody_union (h : NestsBelow type depth) {t : TypeExpr} (isLoose : Bool)
    (ht : t.IsWhole) (hlooseElement : isLoose = true → t.isLoosePostfixOperand = true)
    (hloose : isLoose = false → t.isLooseUnionMember = false)
    (hdepth : (t.depth + if isLoose then 1 else 0) ≤ depth) (hk : EndsAt typeEnds t k) :
    Reads (typeBody type) (enclosed isLoose t.pieces ++ k :: ks) t (k :: ks) := by
  have hhead : IsOperandHead (enclosed isLoose t.pieces ++ k :: ks) :=
    isOperandHead_enclosed ht.readable ht.proper hlooseElement fun hfalse ↦
      isOperandHead_pieces ht.readable ht.proper (hloose hfalse)
  have hsignature : State.startsSignature k.kind = true → t.All (·.isPlainNode = true) := by
    have hends : ∀ kind ∈ typeEnds, State.startsSignature kind = false := by decide
    refine fun hstarts ↦ hk.plain fun hkind ↦ ?_
    rw [hends _ hkind] at hstarts
    cases hstarts
  unfold typeBody
  refine Reads.bind (reads_atFunctionType_none hhead) ?_
  rw [if_neg (by simp)]
  refine Reads.bind (reads_view (a := false) fun s hs ↦ ?_) ?_
  · cases isLoose with
    | true => exact State.not_isConstruct_of_kind (p := .mark .openParen) hs (by simp [Piece.mark])
    | false =>
      exact State.not_isConstruct_of_type ht.readable ht.proper ht.start (hloose rfl) hsignature hs
  exact reads_unionType h isLoose ht hloose hdepth hk

theorem reads_typeBody_function (h : NestsBelow type depth) {s : Signature}
    (ht : (TypeExpr.function s).IsReadable) (hdepth : (TypeExpr.function s).depth ≤ depth)
    (hk : EndsAt typeEnds (.function s) k) :
    Reads (typeBody type) ((TypeExpr.function s).pieces ++ k :: ks) (.function s) (k :: ks) := by
  rw [TypeExpr.depth] at hdepth
  have hsignature : NestsSignature type s := h.signature ht.written
    (fun u hu ↦ ⟨ht.child hu, ht.clear.wholes u hu,
      Nat.lt_of_lt_of_le (Signature.depth_lt hu) hdepth⟩)
    (ht.clear.results _ (List.mem_singleton.2 rfl))
  have hread := reads_arrowSignature ks hsignature (hk.child (Signature.result_mem_types s))
  unfold typeBody
  rw [TypeExpr.pieces]
  refine Reads.bind (reads_view (a := true) fun state hstate ↦ ?_) ?_
  · obtain ⟨typeParams, params, result⟩ := s
    rw [Signature.pieces] at hstate
    cases typeParams with
    | nil =>
      simp only [List.append_assoc, List.cons_append] at hstate
      have hstart := State.isFunctionStart_of_params hstate
      simp [hstart]
    | cons p typeParams =>
      have hkind : state.kind = .lessThan := hstate.kind
      simp [hkind]
  exact Reads.bind hread (reads_pure _ _)

theorem reads_typeBody_construct (h : NestsBelow type depth) {s : Signature}
    (ht : (TypeExpr.construct s).IsReadable) (hdepth : (TypeExpr.construct s).depth ≤ depth)
    (hk : EndsAt typeEnds (.construct s) k) :
    Reads (typeBody type) ((TypeExpr.construct s).pieces ++ k :: ks) (.construct s) (k :: ks) := by
  rw [TypeExpr.depth] at hdepth
  have hsignature : NestsSignature type s := h.signature ht.written
    (fun u hu ↦ ⟨ht.child hu, ht.clear.wholes u hu,
      Nat.lt_of_lt_of_le (Signature.depth_lt hu) hdepth⟩)
    (ht.clear.results _ (List.mem_singleton.2 rfl))
  have hread := reads_arrowSignature ks hsignature (hk.child (Signature.result_mem_types s))
  obtain ⟨p, ps, hps, hp⟩ := TypeExpr.pieces_signature_cons s (.mark .arrow)
  unfold typeBody
  rw [TypeExpr.pieces]
  rw [hps] at hread ⊢
  refine Reads.bind (reads_view (a := false) fun state hstate ↦ ?_) ?_
  · have hkind : state.kind = .identifier := hstate.kind
    unfold State.isFunctionStart
    simp [hkind]
  rw [if_neg (by simp)]
  refine Reads.bind (reads_isConstruct hp) ?_
  rw [if_pos rfl]
  refine Reads.bind (reads_advance (by simp [Piece.word]) (by simp)) ?_
  exact Reads.bind hread (reads_pure _ _)

theorem reads_typeBody (h : NestsBelow type depth) {t : TypeExpr} (ht : t.IsWhole)
    (hdepth : t.depth ≤ depth) (hk : EndsAt typeEnds t k) :
    Reads (typeBody type) (t.pieces ++ k :: ks) t (k :: ks) := by
  cases hloose : t.isLooseUnionMember with
  | false => exact reads_typeBody_union h false ht (fun h ↦ by cases h) (fun _ ↦ hloose) hdepth hk
  | true =>
    cases t with
    | function s => exact reads_typeBody_function h ht.readable hdepth hk
    | construct s => exact reads_typeBody_construct h ht.readable hdepth hk
    | _ => cases hloose

end Combinations

/-- The parser of types of so many levels reads all types that are less deep. -/
theorem nestsBelow_typeExpr (depth : Nat) : NestsBelow (typeExpr depth) depth := by
  -- What stands in brackets is read one level below, where the induction hypothesis reads it.
  induction depth with
  | zero => exact ⟨fun t _ h ↦ absurd h (Nat.not_lt_zero _), fun t _ _ h ↦
      absurd h (Nat.not_lt_zero _)⟩
  | succ depth ih =>
    refine ⟨fun t ht hdepth ↦ ?_, fun t ht hloose hdepth k ks hk ↦ ?_⟩
    · exact ⟨TypeExpr.isHead_pieces ht.readable ht.proper, fun k ks hk ↦
        reads_typeBody ih ht (Nat.le_of_lt_succ hdepth) hk⟩
    · exact reads_typeBody_union ih true ht (fun _ ↦ hloose) (fun h ↦ by cases h)
        (Nat.le_of_lt_succ hdepth) (.mark hk)

end Parser
end TypeSurface
