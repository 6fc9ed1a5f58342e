import Mathlib.Data.List.Nodup
import TypeSurface.Syntax.TypeExpr.Nodes

/-!
# Types inside types

The types that a type is directly made of.  What is shown of a type from what is known of those holds
of every type.
-/

namespace TypeSurface

def TypeParam.types (p : TypeParam) : List TypeExpr := p.bound.toList ++ p.default.toList

def Signature.types (s : Signature) : List TypeExpr :=
  s.typeParams.flatMap TypeParam.types ++ s.params.map Param.type ++ [s.result]

theorem Signature.result_mem_types (s : Signature) : s.result ∈ s.types :=
  List.mem_append_right _ (List.mem_singleton.2 rfl)

def MemberForm.types : MemberForm → List TypeExpr
  | .property _ _ _ type => [type]
  | .method _ _ signature | .call signature | .construct signature => signature.types
  | .index _ _ keyType type => [keyType, type]

namespace TypeExpr

def children : TypeExpr → List TypeExpr
  | .keyword _ | .literal _ => []
  | .reference _ args => args
  | .tuple elements => elements.map TupleElement.type
  | .union members | .intersection members => members
  | .function signature | .construct signature => signature.types
  | .object members => members.flatMap MemberForm.types
  | .array t | .keyOf t | .readonly t | .predicate _ t => [t]

end TypeExpr

theorem TypeParam.nodes_eq (p : TypeParam) : p.nodes = p.types.flatMap TypeExpr.nodes := by
  obtain ⟨name, bound, default⟩ := p
  cases bound <;> cases default <;> simp [TypeParam.nodes, TypeParam.types]

theorem Param.nodes_eq (p : Param) : p.nodes = p.type.nodes := by
  cases p
  rw [Param.nodes]

theorem TupleElement.nodes_eq (e : TupleElement) : e.nodes = e.type.nodes := by
  cases e
  rw [TupleElement.nodes]

theorem Signature.nodes_eq (s : Signature) : s.nodes = s.types.flatMap TypeExpr.nodes := by
  obtain ⟨typeParams, params, result⟩ := s
  simp only [Signature.nodes, Signature.types, List.flatMap_append, List.flatMap_assoc,
    List.flatMap_map, List.flatMap_cons, List.flatMap_nil, List.append_nil,
    funext TypeParam.nodes_eq, funext Param.nodes_eq]

theorem MemberForm.nodes_eq (m : MemberForm) : m.nodes = m.types.flatMap TypeExpr.nodes := by
  cases m <;> simp [MemberForm.nodes, MemberForm.types, Signature.nodes_eq]

namespace TypeExpr

theorem nodes_eq (t : TypeExpr) : t.nodes = t :: t.children.flatMap TypeExpr.nodes := by
  cases t <;>
    simp [TypeExpr.nodes, children, List.flatMap_assoc, List.flatMap_map, Signature.nodes_eq,
      funext MemberForm.nodes_eq, funext TupleElement.nodes_eq]

end TypeExpr

/-! ### Sizes -/

theorem TypeParam.sizeOf_lt {p : TypeParam} {t : TypeExpr} (h : t ∈ p.types) :
    sizeOf t < sizeOf p := by
  obtain ⟨name, bound, default⟩ := p
  rcases List.mem_append.1 h with h | h
  · cases Option.mem_toList.1 h
    simp only [TypeParam.mk.sizeOf_spec, Option.some.sizeOf_spec]
    omega
  · cases Option.mem_toList.1 h
    simp only [TypeParam.mk.sizeOf_spec, Option.some.sizeOf_spec]
    omega

theorem Signature.sizeOf_lt {s : Signature} {t : TypeExpr} (h : t ∈ s.types) :
    sizeOf t < sizeOf s := by
  obtain ⟨typeParams, params, result⟩ := s
  simp only [Signature.types, List.mem_append, List.mem_flatMap, List.mem_map,
    List.mem_singleton] at h
  simp only [Signature.mk.sizeOf_spec]
  rcases h with (⟨p, hp, ht⟩ | ⟨p, hp, rfl⟩) | rfl
  · have h₁ := List.sizeOf_lt_of_mem hp
    have h₂ := TypeParam.sizeOf_lt ht
    omega
  · have h₁ := List.sizeOf_lt_of_mem hp
    have h₂ : sizeOf p.type < sizeOf p := by
      cases p
      simp only [Param.mk.sizeOf_spec]
      omega
    omega
  · omega

theorem MemberForm.sizeOf_lt {m : MemberForm} {t : TypeExpr} (h : t ∈ m.types) :
    sizeOf t < sizeOf m := by
  cases m with
  | property name isReadonly isOptional type =>
    cases List.mem_singleton.1 h
    simp only [MemberForm.property.sizeOf_spec]
    omega
  | method name isOptional signature =>
    have := Signature.sizeOf_lt h
    simp only [MemberForm.method.sizeOf_spec]
    omega
  | index isReadonly keyName keyType type =>
    simp only [MemberForm.types, List.mem_cons, List.not_mem_nil, or_false] at h
    simp only [MemberForm.index.sizeOf_spec]
    rcases h with rfl | rfl <;> omega
  | call signature =>
    have := Signature.sizeOf_lt h
    simp only [MemberForm.call.sizeOf_spec]
    omega
  | construct signature =>
    have := Signature.sizeOf_lt h
    simp only [MemberForm.construct.sizeOf_spec]
    omega

namespace TypeExpr

theorem sizeOf_lt_of_mem_children {t u : TypeExpr} (h : u ∈ t.children) : sizeOf u < sizeOf t := by
  cases t with
  | keyword word => cases h
  | literal value => cases h
  | reference name args =>
    have : sizeOf u < sizeOf args := List.sizeOf_lt_of_mem h
    simp only [reference.sizeOf_spec]
    omega
  | array element =>
    cases List.mem_singleton.1 h
    simp only [array.sizeOf_spec]
    omega
  | tuple elements =>
    obtain ⟨e, he, rfl⟩ := List.mem_map.1 h
    have h₁ := List.sizeOf_lt_of_mem he
    have h₂ : sizeOf e.type < sizeOf e := by
      cases e
      simp only [TupleElement.mk.sizeOf_spec]
      omega
    simp only [tuple.sizeOf_spec]
    omega
  | union members =>
    have : sizeOf u < sizeOf members := List.sizeOf_lt_of_mem h
    simp only [union.sizeOf_spec]
    omega
  | intersection members =>
    have : sizeOf u < sizeOf members := List.sizeOf_lt_of_mem h
    simp only [intersection.sizeOf_spec]
    omega
  | function signature =>
    have := Signature.sizeOf_lt h
    simp only [function.sizeOf_spec]
    omega
  | construct signature =>
    have := Signature.sizeOf_lt h
    simp only [construct.sizeOf_spec]
    omega
  | object members =>
    obtain ⟨m, hm, hu⟩ := List.mem_flatMap.1 h
    have h₁ := List.sizeOf_lt_of_mem hm
    have h₂ := MemberForm.sizeOf_lt hu
    simp only [object.sizeOf_spec]
    omega
  | keyOf operand =>
    cases List.mem_singleton.1 h
    simp only [keyOf.sizeOf_spec]
    omega
  | readonly operand =>
    cases List.mem_singleton.1 h
    simp only [readonly.sizeOf_spec]
    omega
  | predicate parameter type =>
    cases List.mem_singleton.1 h
    simp only [predicate.sizeOf_spec]
    omega

/-- A property that passes from the children of a type to the type holds of every type. -/
theorem induction_on_children {P : TypeExpr → Prop}
    (h : ∀ t : TypeExpr, (∀ u ∈ t.children, P u) → P t) (t : TypeExpr) : P t :=
  h t fun u hu ↦
    have := sizeOf_lt_of_mem_children hu
    induction_on_children h u
termination_by sizeOf t

/-- A type stands inside another at some depth; every type stands inside itself. -/
inductive Occurs : TypeExpr → TypeExpr → Prop
  | here (t : TypeExpr) : Occurs t t
  | inside {t u v : TypeExpr} (hu : u ∈ t.children) (hv : Occurs v u) : Occurs v t

theorem mem_nodes_iff {t u : TypeExpr} : u ∈ t.nodes ↔ u.Occurs t := by
  constructor
  · induction t using induction_on_children with
    | h t ih =>
      intro hu
      rw [nodes_eq] at hu
      rcases List.mem_cons.1 hu with rfl | hu
      · exact Occurs.here _
      · obtain ⟨child, hchild, hu⟩ := List.mem_flatMap.1 hu
        exact Occurs.inside hchild (ih child hchild hu)
  · intro hu
    induction hu with
    | here t => exact mem_nodes_self t
    | inside hchild _ ih =>
      rw [nodes_eq]
      exact List.mem_cons_of_mem _ (List.mem_flatMap.2 ⟨_, hchild, ih⟩)

/-- Whether a property holds of a type and of all types inside it. -/
def All (P : TypeExpr → Prop) (t : TypeExpr) : Prop := ∀ u ∈ t.nodes, P u

theorem all_iff {P : TypeExpr → Prop} {t : TypeExpr} :
    t.All P ↔ P t ∧ ∀ u ∈ t.children, u.All P := by
  unfold All
  rw [nodes_eq]
  simp only [List.mem_cons, List.mem_flatMap, forall_eq_or_imp]
  constructor
  · exact fun h ↦ ⟨h.1, fun u hu n hn ↦ h.2 n ⟨u, hu, hn⟩⟩
  · rintro ⟨ht, hchildren⟩
    exact ⟨ht, fun n ⟨u, hu, hn⟩ ↦ hchildren u hu n hn⟩

theorem All.self {P : TypeExpr → Prop} {t : TypeExpr} (h : t.All P) : P t := (all_iff.1 h).1

theorem All.child {P : TypeExpr → Prop} {t u : TypeExpr} (h : t.All P) (hu : u ∈ t.children) :
    u.All P := (all_iff.1 h).2 u hu

theorem All.imp {P Q : TypeExpr → Prop} {t : TypeExpr} (hPQ : ∀ u, P u → Q u) (h : t.All P) :
    t.All Q := fun u hu ↦ hPQ u (h u hu)

end TypeExpr
end TypeSurface
