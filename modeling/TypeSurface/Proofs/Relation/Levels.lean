import TypeSurface.Proofs.Syntax.Written

/-!
# Levels

The types inside a type that the relation comes to, and how deep they stand.  The bounds and
defaults of type parameters are never compared.  To go through a union or an intersection takes the
relation two levels, one to choose a member of each side, and every other step into a type takes
one.
-/

namespace TypeSurface

def Signature.compared (s : Signature) : List TypeExpr := s.params.map Param.type ++ [s.result]

def MemberForm.compared : MemberForm → List TypeExpr
  | .property _ _ _ type => [type]
  | .method _ _ signature | .call signature | .construct signature => signature.compared
  | .index _ _ keyType type => [keyType, type]

/-- The types that a type is directly made of, but for the bounds and defaults of type parameters.
-/
def TypeExpr.compared : TypeExpr → List TypeExpr
  | .keyword _ | .literal _ => []
  | .reference _ args => args
  | .tuple elements => elements.map TupleElement.type
  | .union members | .intersection members => members
  | .function signature | .construct signature => signature.compared
  | .object members => members.flatMap MemberForm.compared
  | .array t | .keyOf t | .readonly t | .predicate _ t => [t]

theorem Signature.compared_subset_types (s : Signature) : s.compared ⊆ s.types := by
  intro t ht
  rw [Signature.compared, List.mem_append] at ht
  rw [Signature.types, List.append_assoc]
  exact List.mem_append_right _ (List.mem_append.2 ht)

theorem MemberForm.compared_subset_types (m : MemberForm) : m.compared ⊆ m.types := by
  cases m with
  | property name isReadonly isOptional type => exact List.Subset.refl _
  | index isReadonly keyName keyType type => exact List.Subset.refl _
  | method name isOptional signature => exact signature.compared_subset_types
  | call signature => exact signature.compared_subset_types
  | construct signature => exact signature.compared_subset_types

namespace TypeExpr

/-- The signature of a function type. -/
def function? : TypeExpr → Option Signature
  | .function signature | .construct signature => some signature
  | _ => none

theorem compared_eq_of_function? {t : TypeExpr} {s : Signature} (h : s ∈ t.function?) :
    t.compared = s.compared := by
  cases t with
  | function signature =>
    cases h
    rfl
  | construct signature =>
    cases h
    rfl
  | _ => cases h

theorem compared_subset_children (t : TypeExpr) : t.compared ⊆ t.children := by
  cases t with
  | function signature => exact signature.compared_subset_types
  | construct signature => exact signature.compared_subset_types
  | object members =>
    intro u hu
    obtain ⟨m, hm, hu⟩ := List.mem_flatMap.1 hu
    exact List.mem_flatMap.2 ⟨m, hm, m.compared_subset_types hu⟩
  | _ => exact List.Subset.refl _

/-- The depth of a type when `step` is what it takes to go into each of the types inside. -/
def height (step : TypeExpr → Nat) (t : TypeExpr) : Nat :=
  greatest (t.compared.attach.map fun u ↦ u.val.height step + step t)
termination_by sizeOf t
decreasing_by exact sizeOf_lt_of_mem_children (compared_subset_children t u.property)

/-- What it takes the relation to go into the types inside. -/
def levelStep : TypeExpr → Nat
  | .union _ | .intersection _ => 2
  | _ => 1

/-- The levels that it takes the relation to reach the innermost types. -/
def levels (t : TypeExpr) : Nat := t.height levelStep

/-- How deep types are nested. -/
def nesting (t : TypeExpr) : Nat := t.height fun _ ↦ 1

variable {step : TypeExpr → Nat} {t u : TypeExpr}

theorem height_eq (step : TypeExpr → Nat) (t : TypeExpr) :
    t.height step = greatest (t.compared.map fun u ↦ u.height step + step t) := by
  rw [height]
  exact congrArg greatest (@List.attach_map_val TypeExpr Nat _ fun u ↦ u.height step + step t)

theorem height_le_iff {n : Nat} :
    t.height step ≤ n ↔ ∀ u ∈ t.compared, u.height step + step t ≤ n := by
  rw [height_eq, greatest_le_iff]
  exact List.forall_mem_map

theorem height_inside (hu : u ∈ t.compared) : u.height step + step t ≤ t.height step :=
  height_le_iff.1 (Nat.le_refl _) u hu

theorem levels_inside (hu : u ∈ t.compared) : u.levels + t.levelStep ≤ t.levels := height_inside hu

theorem one_le_levelStep (t : TypeExpr) : 1 ≤ t.levelStep := by
  unfold levelStep
  split <;> decide

theorem levels_le (t : TypeExpr) : t.levels ≤ 2 * t.nesting := by
  induction t using induction_on_children with
  | h t ih =>
    refine height_le_iff.2 fun u hu ↦ ?_
    have hlevels : u.levels ≤ 2 * u.nesting := ih u (compared_subset_children t hu)
    have hnesting : u.nesting + 1 ≤ t.nesting := height_inside hu
    have hstep : t.levelStep ≤ 2 := by
      unfold levelStep
      split <;> decide
    change u.levels + t.levelStep ≤ _
    omega

end TypeExpr

namespace Signature

/-- The levels that it takes the relation to reach the innermost types of a signature. -/
def levels (s : Signature) : Nat := greatest (s.compared.map TypeExpr.levels)

def nesting (s : Signature) : Nat := greatest (s.compared.map TypeExpr.nesting)

end Signature
end TypeSurface
