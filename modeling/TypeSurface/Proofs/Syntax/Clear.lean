import TypeSurface.Proofs.Syntax.Written

/-!
# Types whose text is clear

The printed text of a type may be read as another type or not at all: parentheses that a reader needs
are missing, a name means something else where it stands, or a character is printed by its code point.
A type is *clear* if this happens at none of its nodes.  Plain types are clear if no method in them is
written as a construct signature.
-/

namespace TypeSurface

/-! ### Strings -/

/-- Whether no character of the text is printed by its code point. -/
def isShown (text : String) : Bool := text.toList.all Lexeme.isShownChar

theorem isShown_of_isPlainText {text : String} (h : isPlainText text = true) : isShown text = true := by
  unfold isPlainText at h
  unfold isShown
  rw [List.all_eq_true] at h ⊢
  exact fun c hc ↦ Lexeme.isShownChar_of_isPlainChar (h c hc)

def PropertyName.isShown : PropertyName → Bool
  | .string name => TypeSurface.isShown name
  | .identifier _ | .numeric _ | .computed _ => true

def MemberForm.isShown : MemberForm → Bool
  | .property name _ _ _ | .method name _ _ => name.isShown
  | .index .. | .call _ | .construct _ => true

theorem PropertyName.isShown_of_isPlain {name : PropertyName} (h : name.isPlain = true) :
    name.isShown = true := by
  cases name with
  | string name => exact isShown_of_isPlainText h
  | _ => rfl

theorem MemberForm.isShown_of_isPlain {m : MemberForm} (h : m.isPlain = true) : m.isShown = true := by
  cases m with
  | property name isReadonly isOptional type => exact PropertyName.isShown_of_isPlain h
  | method name isOptional signature => exact PropertyName.isShown_of_isPlain h
  | _ => rfl

/-- The results of the signatures that a member has. -/
def MemberForm.results : MemberForm → List TypeExpr
  | .method _ _ signature | .call signature | .construct signature => [signature.result]
  | .property .. | .index .. => []

theorem MemberForm.mem_types_of_mem_results {m : MemberForm} {t : TypeExpr} (h : t ∈ m.results) :
    t ∈ m.types := by
  cases m with
  | property name isReadonly isOptional type => cases h
  | index isReadonly keyName keyType type => cases h
  | _ => exact List.mem_append_right _ h

namespace TypeExpr

/-- Whether strings and quoted names are read as what they are the text of. -/
def isShownNode : TypeExpr → Bool
  | .literal (.string text) => isShown text
  | .object members => members.all MemberForm.isShown
  | _ => true

theorem isShownNode_of_isPlainNode {t : TypeExpr} (h : t.isPlainNode = true) :
    t.isShownNode = true := by
  cases t with
  | literal value =>
    cases value with
    | string text => exact isShown_of_isPlainText h
    | _ => rfl
  | object members =>
    simp only [isPlainNode, List.all_eq_true] at h
    simp only [isShownNode, List.all_eq_true]
    exact fun m hm ↦ MemberForm.isShown_of_isPlain (h m hm)
  | _ => rfl

/-! ### Fronts -/

/-- What a type starts with: the leftmost operand that does not stand in parentheses. -/
def front : TypeExpr → TypeExpr
  | .array t => if t.isLoosePostfixOperand then .array t else t.front
  | .union (t :: ts) => if t.isLooseUnionMember then .union (t :: ts) else t.front
  | .intersection (t :: ts) => if t.isLooseIntersectionMember then .intersection (t :: ts) else t.front
  | t => t

/-- Whether a type is what it starts with. -/
def isFrontNode : TypeExpr → Bool
  | .array t => t.isLoosePostfixOperand
  | .union (t :: _) => t.isLooseUnionMember
  | .intersection (t :: _) => t.isLooseIntersectionMember
  | _ => true

section Fronts

variable {t u : TypeExpr}

theorem isFrontNode_front (t : TypeExpr) : t.front.isFrontNode = true := by
  fun_induction front t with
  | case1 t hloose => exact hloose
  | case2 t hloose ih => exact ih
  | case3 t ts hloose => exact hloose
  | case4 t ts hloose ih => exact ih
  | case5 t ts hloose => exact hloose
  | case6 t ts hloose ih => exact ih
  | case7 t harray hunion hintersection =>
    cases t with
    | array t => exact absurd rfl (harray t)
    | union ts =>
      cases ts with
      | nil => rfl
      | cons t ts => exact absurd rfl (hunion t ts)
    | intersection ts =>
      cases ts with
      | nil => rfl
      | cons t ts => exact absurd rfl (hintersection t ts)
    | _ => rfl

theorem All.front {P : TypeExpr → Prop} (h : t.All P) : t.front.All P := by
  fun_induction TypeExpr.front t with
  | case1 t hloose => exact h
  | case2 t hloose ih => exact ih (h.child (by simp [children]))
  | case3 t ts hloose => exact h
  | case4 t ts hloose ih => exact ih (h.child (by simp [children]))
  | case5 t ts hloose => exact h
  | case6 t ts hloose ih => exact ih (h.child (by simp [children]))
  | case7 t => exact h

theorem isProper_front (hwritten : t.All (·.isWrittenNode = true)) (h : t.isProper = true) :
    t.front.isProper = true := by
  fun_induction front t with
  | case1 t hloose => exact h
  | case2 t hloose ih => exact ih (hwritten.child (by simp [children])) hwritten.self
  | case3 t ts hloose => exact h
  | case4 t ts hloose ih =>
    have hself := hwritten.self
    simp only [isWrittenNode, Bool.and_eq_true, List.all_cons] at hself
    exact ih (hwritten.child (by simp [children])) hself.2.1
  | case5 t ts hloose => exact h
  | case6 t ts hloose ih =>
    have hself := hwritten.self
    simp only [isWrittenNode, Bool.and_eq_true, List.all_cons] at hself
    exact ih (hwritten.child (by simp [children])) hself.2.1
  | case7 t => exact h

theorem isLooseUnionMember_of_postfixOperand (h : t.isLoosePostfixOperand = false) :
    t.isLooseUnionMember = false := by
  cases t <;> first | rfl | cases h

theorem isLoosePrefixOperand_of_postfixOperand (h : t.isLoosePostfixOperand = false) :
    t.isLoosePrefixOperand = false := by
  cases t <;> first | rfl | cases h

theorem isLooseUnionMember_of_intersection (h : t.isLooseIntersectionMember = false) :
    t.isLooseUnionMember = false := by
  cases t <;> first | rfl | cases h

theorem isLoosePostfixOperand_of_unionMember (h : t.isLooseUnionMember = true) :
    t.isLoosePostfixOperand = true := by
  cases t <;> first | rfl | cases h

theorem isLoosePostfixOperand_of_intersectionMember (h : t.isLooseIntersectionMember = true) :
    t.isLoosePostfixOperand = true := by
  cases t <;> first | rfl | cases h

/-- What needs no parentheses in a union does not start with what needs them. -/
theorem isLooseUnionMember_front (h : t.isLooseUnionMember = false) :
    t.front.isLooseUnionMember = false := by
  fun_induction front t with
  | case1 t hloose => rfl
  | case2 t hloose ih => exact ih (isLooseUnionMember_of_postfixOperand (Bool.eq_false_iff.2 hloose))
  | case3 t ts hloose => rfl
  | case4 t ts hloose ih => exact ih (Bool.eq_false_iff.2 hloose)
  | case5 t ts hloose => rfl
  | case6 t ts hloose ih => exact ih (isLooseUnionMember_of_intersection (Bool.eq_false_iff.2 hloose))
  | case7 t => exact h

/-- An operand of `[]` does not start with what needs parentheses there. -/
theorem isLoosePostfixOperand_front (h : t.isLoosePostfixOperand = false) :
    t.front.isLoosePostfixOperand = false := by
  fun_induction front t with
  | case1 t hloose => rfl
  | case2 t hloose ih => exact ih (Bool.eq_false_iff.2 hloose)
  | case3 t ts hloose => cases h
  | case4 t ts hloose ih => cases h
  | case5 t ts hloose => cases h
  | case6 t ts hloose ih => cases h
  | case7 t => exact h

/-- Nor does an operand of `keyof` or `readonly`. -/
theorem isLoosePrefixOperand_front (h : t.isLoosePrefixOperand = false) :
    t.front.isLoosePrefixOperand = false := by
  fun_induction front t with
  | case1 t hloose => rfl
  | case2 t hloose ih => exact ih (isLoosePrefixOperand_of_postfixOperand (Bool.eq_false_iff.2 hloose))
  | case3 t ts hloose => cases h
  | case4 t ts hloose ih => cases h
  | case5 t ts hloose => cases h
  | case6 t ts hloose ih => cases h
  | case7 t => exact h

/-- What an operand starts with is what it is an array of. -/
theorem root_eq_front (h : t.isLoosePrefixOperand = false) (hfront : ∀ u, t.front ≠ .array u) :
    t.root = t.front := by
  fun_induction front t with
  | case1 t hloose => exact absurd rfl (hfront t)
  | case2 t hloose ih =>
    exact ih (isLoosePrefixOperand_of_postfixOperand (Bool.eq_false_iff.2 hloose)) hfront
  | case3 t ts hloose => cases h
  | case4 t ts hloose ih => cases h
  | case5 t ts hloose => cases h
  | case6 t ts hloose ih => cases h
  | case7 t => cases t <;> first | rfl | exact absurd rfl (hfront _)

end Fronts

/-- A reference to the name `new`, with arguments. -/
def isAppliedNew : TypeExpr → Bool
  | .reference name args => name == "new" && !args.isEmpty
  | _ => false

/-- Whether a type starts with `new<`, as a construct type does. -/
def startsNew (t : TypeExpr) : Bool := t.front.isAppliedNew

/-- A reference to a name with the first word `is`. -/
def isNamedIs : TypeExpr → Bool
  | .reference name _ => (Text.segments name).head? == some "is"
  | _ => false

/-- Whether a type starts with the word `is`. -/
def startsIs (t : TypeExpr) : Bool := t.front.isNamedIs

/-- An operator in front of the word `is`. -/
def isOperatorOnIs : TypeExpr → Bool
  | .keyOf u | .readonly u => !u.isLoosePrefixOperand && u.startsIs
  | _ => false

/-- Whether a type starts with `keyof is` or `readonly is`, as a predicate on a parameter of this name
does. -/
def startsPredicate (t : TypeExpr) : Bool := t.front.isOperatorOnIs

/-! ### Clear types -/

/-- Whether a type is the name of an operator, which is applied to brackets behind it. -/
def isOperatorName : TypeExpr → Bool
  | .reference name [] => name == "keyof" || name == "readonly"
  | _ => false

/-- Whether operators and brackets are read as applied to the operand that is printed with them.  In
front of a literal, and `readonly` also in front of an object type, a reader takes the word of an operator
for a name. -/
def isAppliedNode : TypeExpr → Bool
  | .array t => !t.isOperatorName
  | .keyOf t => !t.root.isTextOrNumber
  | .readonly t => !t.root.isTextOrNumber && !t.root.isObject
  | _ => true

/-- The types inside a type that are read by themselves: those in parentheses and brackets, and those
of signatures and members. -/
def wholes : TypeExpr → List TypeExpr
  | .array t => if t.isLoosePostfixOperand then [t] else []
  | .keyOf t | .readonly t => if t.isLoosePrefixOperand then [t] else []
  | .union ts => ts.filter isLooseUnionMember
  | .intersection ts => ts.filter isLooseIntersectionMember
  | t => t.children

/-- The results of the signatures that a type is directly made of. -/
def results : TypeExpr → List TypeExpr
  | .function signature | .construct signature => [signature.result]
  | .object members => members.flatMap MemberForm.results
  | _ => []

/-- Whether the text of a type, apart from the types inside it, is read as it is meant. -/
structure IsClearNode (t : TypeExpr) : Prop where
  shown : t.isShownNode = true
  applied : t.isAppliedNode = true
  /-- No type that is read by itself is taken for a construct type. -/
  wholes : ∀ u ∈ t.wholes, u.startsNew = false
  /-- No result is taken for a predicate. -/
  results : ∀ u ∈ t.results, u.startsPredicate = false
  /-- No method is taken for a construct signature. -/
  methods : t.holdsBareNew = false

theorem isClearNode_iff {t : TypeExpr} : t.IsClearNode ↔
    (t.isShownNode = true ∧ t.isAppliedNode = true ∧ t.holdsBareNew = false) ∧
      (∀ u ∈ t.wholes, u.startsNew = false) ∧ ∀ u ∈ t.results, u.startsPredicate = false :=
  ⟨fun h ↦ ⟨⟨h.shown, h.applied, h.methods⟩, h.wholes, h.results⟩,
    fun ⟨⟨hshown, happlied, hmethods⟩, hwholes, hresults⟩ ↦
      ⟨hshown, happlied, hwholes, hresults, hmethods⟩⟩

instance (t : TypeExpr) : Decidable t.IsClearNode := decidable_of_iff' _ isClearNode_iff

/-- Whether the text of a type that is read by itself is read as it is meant. -/
structure IsClear (t : TypeExpr) : Prop where
  nodes : ∀ u ∈ t.nodes, u.IsClearNode
  start : t.startsNew = false

instance (t : TypeExpr) : Decidable t.IsClear :=
  decidable_of_iff ((∀ u ∈ t.nodes, u.IsClearNode) ∧ t.startsNew = false)
    ⟨fun h ↦ ⟨h.1, h.2⟩, fun h ↦ ⟨h.nodes, h.start⟩⟩

/-- Brackets stand behind no name of an operator. -/
theorem not_isOperatorName_front {t : TypeExpr} (h : t.All IsClearNode)
    (hloose : t.isLoosePostfixOperand = false) (hfront : t.front ≠ t) :
    t.front.isOperatorName = false := by
  fun_induction front t with
  | case1 t ht => exact absurd rfl hfront
  | case2 t ht ih =>
    by_cases hsame : t.front = t
    · have happlied := h.self.applied
      rw [isAppliedNode, Bool.not_eq_true'] at happlied
      rw [hsame]
      exact happlied
    · exact ih (h.child (by simp [children])) (Bool.eq_false_iff.2 ht) hsame
  | case3 t ts ht => cases hloose
  | case4 t ts ht ih => cases hloose
  | case5 t ts ht => cases hloose
  | case6 t ts ht ih => cases hloose
  | case7 t => exact absurd rfl hfront

/-! ### Plain types -/

section Plain

variable {t u : TypeExpr}

theorem mem_children_of_mem_wholes (h : u ∈ t.wholes) : u ∈ t.children := by
  cases t with
  | array t =>
    simp only [wholes] at h
    split at h
    · exact h
    · cases h
  | keyOf t =>
    simp only [wholes] at h
    split at h
    · exact h
    · cases h
  | readonly t =>
    simp only [wholes] at h
    split at h
    · exact h
    · cases h
  | union ts => exact (List.mem_filter.1 h).1
  | intersection ts => exact (List.mem_filter.1 h).1
  | _ => exact h

theorem mem_children_of_mem_results (h : u ∈ t.results) : u ∈ t.children := by
  cases t with
  | function signature => exact List.mem_append_right _ h
  | construct signature => exact List.mem_append_right _ h
  | object members =>
    obtain ⟨m, hm, hu⟩ := List.mem_flatMap.1 h
    exact List.mem_flatMap.2 ⟨m, hm, MemberForm.mem_types_of_mem_results hu⟩
  | _ => cases h

theorem not_reserved_of_plain {name w : String} {args : List TypeExpr}
    (h : (reference name args).isPlainNode = true) (hw : w ∈ Text.segments name) :
    w ∉ reservedWords := by
  simp only [isPlainNode, List.all_eq_true] at h
  simpa using h w hw

theorem not_reserved_front {name w : String} {args : List TypeExpr}
    (h : t.All (·.isPlainNode = true)) (hfront : t.front = .reference name args)
    (hw : (Text.segments name).head? = some w) : w ∉ reservedWords := by
  have hplain := h.front.self
  rw [hfront] at hplain
  exact not_reserved_of_plain hplain (List.mem_of_mem_head? hw)

theorem startsNew_of_plain (h : t.All (·.isPlainNode = true)) : t.startsNew = false := by
  unfold startsNew isAppliedNew
  split
  · next name args hfront =>
    have hplain := h.front.self
    rw [hfront] at hplain
    have hname : name ≠ "new" := by
      rintro rfl
      exact not_reserved_of_plain hplain (w := "new") (by decide) (by decide)
    simp [hname]
  · rfl

theorem startsIs_of_plain (h : t.All (·.isPlainNode = true)) : t.startsIs = false := by
  unfold startsIs isNamedIs
  split
  · next name args hfront =>
    by_contra his
    rw [Bool.not_eq_false, beq_iff_eq] at his
    exact not_reserved_front h hfront his (by decide)
  · rfl

theorem startsPredicate_of_plain (h : t.All (·.isPlainNode = true)) : t.startsPredicate = false := by
  have hfront := h.front
  unfold startsPredicate isOperatorOnIs
  split
  · next u hu =>
    rw [startsIs_of_plain (hfront.child (by simp [hu, children])), Bool.and_false]
  · next u hu =>
    rw [startsIs_of_plain (hfront.child (by simp [hu, children])), Bool.and_false]
  · rfl

theorem isAppliedNode_of_plain (h : t.All (·.isPlainNode = true)) : t.isAppliedNode = true := by
  have hself := h.self
  cases t with
  | array t =>
    have hplain := (h.child (u := t) (by simp [children])).self
    rw [isAppliedNode, Bool.not_eq_true']
    unfold isOperatorName
    split
    · next name =>
      have hname : ∀ w ∈ ["keyof", "readonly"], name ≠ w := by
        rintro w hw rfl
        have hwords : ∀ w ∈ ["keyof", "readonly"], w ∈ Text.segments w ∧ w ∈ reservedWords := by
          decide
        exact not_reserved_of_plain hplain (hwords _ hw).1 (hwords _ hw).2
      simp [hname "keyof" (by simp), hname "readonly" (by simp)]
    · rfl
  | keyOf t => exact hself
  | readonly t => exact hself
  | _ => rfl

theorem isClearNode_of_plain (h : t.All (·.isPlainNode = true)) (hnew : t.holdsBareNew = false) :
    t.IsClearNode :=
  ⟨isShownNode_of_isPlainNode h.self, isAppliedNode_of_plain h,
    fun _ hu ↦ startsNew_of_plain (h.child (mem_children_of_mem_wholes hu)),
    fun _ hu ↦ startsPredicate_of_plain (h.child (mem_children_of_mem_results hu)), hnew⟩

end Plain

/-! ### Readable types -/

/-- Whether no union stands inside a union without parentheses, and no intersection inside an
intersection. -/
def isFlatNode : TypeExpr → Bool
  | .union members => members.all (!·.isUnion)
  | .intersection members => members.all (!·.isIntersection)
  | _ => true

/-- Whether a reader that meets the pieces of a type finds the type, apart from the types inside it. -/
structure IsReadableNode (t : TypeExpr) : Prop where
  written : t.isWrittenNode = true
  clear : t.IsClearNode
  flat : t.isFlatNode = true

def IsReadable (t : TypeExpr) : Prop := t.All IsReadableNode

theorem IsReadable.child {t u : TypeExpr} (h : t.IsReadable) (hu : u ∈ t.children) : u.IsReadable :=
  All.child h hu

theorem IsReadable.written {t : TypeExpr} (h : t.IsReadable) : t.isWrittenNode = true := h.self.written

theorem IsReadable.clear {t : TypeExpr} (h : t.IsReadable) : t.IsClearNode := h.self.clear

theorem IsReadable.isBareNew {members : List MemberForm} {m : MemberForm}
    (h : (object members).IsReadable) (hm : m ∈ members) : m.isBareNew = false := by
  have hmethods : members.any MemberForm.isBareNew = false := h.clear.methods
  exact Bool.eq_false_iff.2 (List.any_eq_false.1 hmethods m hm)

/-- Whether a reader that meets the pieces of a type where one is read by itself finds the type. -/
structure IsWhole (t : TypeExpr) : Prop where
  readable : t.IsReadable
  proper : t.isProper = true
  start : t.startsNew = false

theorem IsReadable.whole {t u : TypeExpr} (h : t.IsReadable) (hu : u ∈ t.wholes)
    (hproper : u.isProper = true) : u.IsWhole :=
  ⟨h.child (mem_children_of_mem_wholes hu), hproper, h.clear.wholes u hu⟩

theorem isFlatNode_of_isPlainNode {t : TypeExpr} (h : t.isPlainNode = true) : t.isFlatNode = true := by
  cases t <;> first | exact h | rfl

theorem isReadable_of_plain {t : TypeExpr} (hwritten : t.All (·.isWrittenNode = true))
    (hplain : t.All (·.isPlainNode = true)) (hnew : t.All (·.holdsBareNew = false)) :
    t.IsReadable := by
  induction t using induction_on_children with
  | h t ih =>
    refine all_iff.2 ⟨⟨hwritten.self, isClearNode_of_plain hplain hnew.self,
      isFlatNode_of_isPlainNode hplain.self⟩, fun u hu ↦ ?_⟩
    exact ih u hu (hwritten.child hu) (hplain.child hu) (hnew.child hu)

end TypeExpr
end TypeSurface
