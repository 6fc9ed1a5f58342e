import TypeSurface.Syntax.TypeExpr.Basic

/-!
# Equality of type expressions

Whether two type expressions are written alike is decided by walking both at once.  The comparison
answers `true` for equal expressions and for no others.
-/

namespace TypeSurface

mutual

def TypeExpr.beq : TypeExpr → TypeExpr → Bool
  | .keyword v, .keyword w => v = w
  | .reference m as, .reference n bs => m == n && TypeExpr.beqList as bs
  | .literal v, .literal w => v = w
  | .array s, .array t => s.beq t
  | .tuple as, .tuple bs => TupleElement.beqList as bs
  | .union as, .union bs => TypeExpr.beqList as bs
  | .intersection as, .intersection bs => TypeExpr.beqList as bs
  | .function s, .function t => s.beq t
  | .construct s, .construct t => s.beq t
  | .object as, .object bs => MemberForm.beqList as bs
  | .keyOf s, .keyOf t => s.beq t
  | .readonly s, .readonly t => s.beq t
  | .predicate p s, .predicate q t => p == q && s.beq t
  | _, _ => false

def TypeExpr.beqList : List TypeExpr → List TypeExpr → Bool
  | [], [] => true
  | a :: as, b :: bs => a.beq b && TypeExpr.beqList as bs
  | _, _ => false

def TypeExpr.beqOption : Option TypeExpr → Option TypeExpr → Bool
  | none, none => true
  | some a, some b => a.beq b
  | _, _ => false

def TypeParam.beq : TypeParam → TypeParam → Bool
  | ⟨m, b, d⟩, ⟨n, c, e⟩ => m == n && TypeExpr.beqOption b c && TypeExpr.beqOption d e

def TypeParam.beqList : List TypeParam → List TypeParam → Bool
  | [], [] => true
  | a :: as, b :: bs => a.beq b && TypeParam.beqList as bs
  | _, _ => false

def Param.beq : Param → Param → Bool
  | ⟨m, s, o, r⟩, ⟨n, t, p, q⟩ => m == n && s.beq t && o == p && r == q

def Param.beqList : List Param → List Param → Bool
  | [], [] => true
  | a :: as, b :: bs => a.beq b && Param.beqList as bs
  | _, _ => false

def Signature.beq : Signature → Signature → Bool
  | ⟨ts, ps, r⟩, ⟨us, qs, s⟩ => TypeParam.beqList ts us && Param.beqList ps qs && r.beq s

def TupleElement.beq : TupleElement → TupleElement → Bool
  | ⟨s, o, r⟩, ⟨t, p, q⟩ => s.beq t && o == p && r == q

def TupleElement.beqList : List TupleElement → List TupleElement → Bool
  | [], [] => true
  | a :: as, b :: bs => a.beq b && TupleElement.beqList as bs
  | _, _ => false

def MemberForm.beq : MemberForm → MemberForm → Bool
  | .property m r o s, .property n q p t => m = n && r == q && o == p && s.beq t
  | .method m o s, .method n p t => m = n && o == p && s.beq t
  | .index r m k s, .index q n l t => r == q && m == n && k.beq l && s.beq t
  | .call s, .call t => s.beq t
  | .construct s, .construct t => s.beq t
  | _, _ => false

def MemberForm.beqList : List MemberForm → List MemberForm → Bool
  | [], [] => true
  | a :: as, b :: bs => a.beq b && MemberForm.beqList as bs
  | _, _ => false

end

mutual

theorem TypeExpr.beq_iff : ∀ s t : TypeExpr, s.beq t = true ↔ s = t
  | .keyword v, t => by cases t <;> simp [TypeExpr.beq]
  | .reference m as, t => by cases t <;> simp [TypeExpr.beq, TypeExpr.beqList_iff as]
  | .literal v, t => by cases t <;> simp [TypeExpr.beq]
  | .array s, t => by cases t <;> simp [TypeExpr.beq, TypeExpr.beq_iff s]
  | .tuple as, t => by cases t <;> simp [TypeExpr.beq, TupleElement.beqList_iff as]
  | .union as, t => by cases t <;> simp [TypeExpr.beq, TypeExpr.beqList_iff as]
  | .intersection as, t => by cases t <;> simp [TypeExpr.beq, TypeExpr.beqList_iff as]
  | .function s, t => by cases t <;> simp [TypeExpr.beq, Signature.beq_iff s]
  | .construct s, t => by cases t <;> simp [TypeExpr.beq, Signature.beq_iff s]
  | .object as, t => by cases t <;> simp [TypeExpr.beq, MemberForm.beqList_iff as]
  | .keyOf s, t => by cases t <;> simp [TypeExpr.beq, TypeExpr.beq_iff s]
  | .readonly s, t => by cases t <;> simp [TypeExpr.beq, TypeExpr.beq_iff s]
  | .predicate p s, t => by cases t <;> simp [TypeExpr.beq, TypeExpr.beq_iff s]

theorem TypeExpr.beqList_iff : ∀ as bs : List TypeExpr, TypeExpr.beqList as bs = true ↔ as = bs
  | [], bs => by cases bs <;> simp [TypeExpr.beqList]
  | a :: as, bs => by
    cases bs <;> simp [TypeExpr.beqList, TypeExpr.beq_iff a, TypeExpr.beqList_iff as]

theorem TypeExpr.beqOption_iff :
    ∀ a b : Option TypeExpr, TypeExpr.beqOption a b = true ↔ a = b
  | none, b => by cases b <;> simp [TypeExpr.beqOption]
  | some a, b => by cases b <;> simp [TypeExpr.beqOption, TypeExpr.beq_iff a]

theorem TypeParam.beq_iff : ∀ a b : TypeParam, a.beq b = true ↔ a = b
  | ⟨m, b, d⟩, ⟨n, c, e⟩ => by
    simp [TypeParam.beq, TypeExpr.beqOption_iff b, TypeExpr.beqOption_iff d, and_assoc]

theorem TypeParam.beqList_iff :
    ∀ as bs : List TypeParam, TypeParam.beqList as bs = true ↔ as = bs
  | [], bs => by cases bs <;> simp [TypeParam.beqList]
  | a :: as, bs => by
    cases bs <;> simp [TypeParam.beqList, TypeParam.beq_iff a, TypeParam.beqList_iff as]

theorem Param.beq_iff : ∀ a b : Param, a.beq b = true ↔ a = b
  | ⟨m, s, o, r⟩, ⟨n, t, p, q⟩ => by simp [Param.beq, TypeExpr.beq_iff s, and_assoc]

theorem Param.beqList_iff : ∀ as bs : List Param, Param.beqList as bs = true ↔ as = bs
  | [], bs => by cases bs <;> simp [Param.beqList]
  | a :: as, bs => by cases bs <;> simp [Param.beqList, Param.beq_iff a, Param.beqList_iff as]

theorem Signature.beq_iff : ∀ a b : Signature, a.beq b = true ↔ a = b
  | ⟨ts, ps, r⟩, ⟨us, qs, s⟩ => by
    simp [Signature.beq, TypeParam.beqList_iff ts, Param.beqList_iff ps, TypeExpr.beq_iff r,
      and_assoc]

theorem TupleElement.beq_iff : ∀ a b : TupleElement, a.beq b = true ↔ a = b
  | ⟨s, o, r⟩, ⟨t, p, q⟩ => by simp [TupleElement.beq, TypeExpr.beq_iff s, and_assoc]

theorem TupleElement.beqList_iff :
    ∀ as bs : List TupleElement, TupleElement.beqList as bs = true ↔ as = bs
  | [], bs => by cases bs <;> simp [TupleElement.beqList]
  | a :: as, bs => by
    cases bs <;> simp [TupleElement.beqList, TupleElement.beq_iff a, TupleElement.beqList_iff as]

theorem MemberForm.beq_iff : ∀ a b : MemberForm, a.beq b = true ↔ a = b
  | .property m r o s, b => by
    cases b <;> simp [MemberForm.beq, TypeExpr.beq_iff s, and_assoc]
  | .method m o s, b => by cases b <;> simp [MemberForm.beq, Signature.beq_iff s, and_assoc]
  | .index r m k s, b => by
    cases b <;> simp [MemberForm.beq, TypeExpr.beq_iff k, TypeExpr.beq_iff s, and_assoc]
  | .call s, b => by cases b <;> simp [MemberForm.beq, Signature.beq_iff s]
  | .construct s, b => by cases b <;> simp [MemberForm.beq, Signature.beq_iff s]

theorem MemberForm.beqList_iff :
    ∀ as bs : List MemberForm, MemberForm.beqList as bs = true ↔ as = bs
  | [], bs => by cases bs <;> simp [MemberForm.beqList]
  | a :: as, bs => by
    cases bs <;> simp [MemberForm.beqList, MemberForm.beq_iff a, MemberForm.beqList_iff as]

end

instance : DecidableEq TypeExpr := fun s t ↦ decidable_of_iff _ (TypeExpr.beq_iff s t)

instance : DecidableEq TypeParam := fun s t ↦ decidable_of_iff _ (TypeParam.beq_iff s t)

instance : DecidableEq Param := fun s t ↦ decidable_of_iff _ (Param.beq_iff s t)

instance : DecidableEq Signature := fun s t ↦ decidable_of_iff _ (Signature.beq_iff s t)

instance : DecidableEq TupleElement := fun s t ↦ decidable_of_iff _ (TupleElement.beq_iff s t)

instance : DecidableEq MemberForm := fun s t ↦ decidable_of_iff _ (MemberForm.beq_iff s t)

end TypeSurface
