import TypeSurface.Relation.Assignable

/-!
# What the rules say

The rules of assignability as statements about the types inside, without the order in which a list
of parameters or of members is gone through.
-/

namespace TypeSurface
namespace Relation

variable {relates : TypeExpr → TypeExpr → Bool}

/-- Whether two types relate in some direction. -/
def Meets (relates : TypeExpr → TypeExpr → Bool) (s t : TypeExpr) : Prop :=
  relates s t = true ∨ relates t s = true

theorem resultRelates_iff {s t : TypeExpr} :
    resultRelates relates s t = true ↔ t.isKeyword .void = true ∨ relates s t = true := by
  rw [resultRelates, Bool.or_eq_true]

theorem paramsRelate_iff {offered wanted : List Param} :
    paramsRelate relates offered wanted = true ↔
      ∀ i w o, wanted[i]? = some w → paramAt? offered i = some o →
        Meets relates (argumentType o.isRest o.type) (argumentType w.isRest w.type) := by
  simp only [paramsRelate, List.all_eq_true, Prod.forall, List.mem_zipIdx_iff_getElem?]
  constructor
  · intro h i w o hw ho
    have hi := h w i hw
    rw [ho] at hi
    simp only [Bool.or_eq_true] at hi
    exact hi.symm
  · intro h w i hw
    cases ho : paramAt? offered i with
    | none => rfl
    | some o =>
      simp only [Bool.or_eq_true]
      exact (h i w o hw ho).symm

/-- No rule for parts applies to a type that is neither a union nor an intersection. -/
theorem structureRelates_of_parts {s t : TypeExpr} {answer : Bool}
    (hparts : relateParts? relates s t = some answer) :
    structureRelates relates s t = (isFree s t || answer) := by
  rw [structureRelates, hparts]

theorem structureRelates_of_no_parts {s t : TypeExpr} (hparts : relateParts? relates s t = none) :
    structureRelates relates s t =
      (isFree s t || if t.isKeyword .object then isObjectLike s
        else (relatePrimitives? s t).getD (shapeRelates relates (shapeOf s) (shapeOf t))) := by
  rw [structureRelates, hparts]
  cases relatePrimitives? s t <;> rfl

end Relation
end TypeSurface
