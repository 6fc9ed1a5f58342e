import TypeSurface.Relation.Assignable

/-!
# Reflexivity of coverage

Whoever relates every type to itself lets every signature, and every list of overloads, serve its
own callers.
-/

namespace TypeSurface
namespace Relation

theorem arityCovers_self (s : Signature) : arityCovers s s = true := by
  unfold arityCovers
  cases s.maxArity <;> simp

theorem haveSameNames_self (ps : List TypeParam) : haveSameNames ps ps = true := by
  simp only [haveSameNames, List.all_eq_true]
  rintro ⟨p, q⟩ hmem
  obtain ⟨i, hi, hget⟩ := List.mem_iff_getElem.1 hmem
  rw [List.getElem_zip, Prod.mk.injEq] at hget
  obtain ⟨rfl, rfl⟩ := hget
  simp

section Rules

variable {relates : TypeExpr → TypeExpr → Bool}

theorem resultRelates_self (hrel : ∀ t, relates t t = true) (t : TypeExpr) :
    resultRelates relates t t = true := by
  simp [resultRelates, hrel]

theorem paramsRelate_self (hrel : ∀ t, relates t t = true) (ps : List Param) :
    paramsRelate relates ps ps = true := by
  simp only [paramsRelate, List.all_eq_true]
  rintro ⟨w, i⟩ hmem
  have hget : ps[i]? = some w := List.mem_zipIdx_iff_getElem?.1 hmem
  simp [paramAt?, hget, hrel]

theorem signatureCovers_self (hrel : ∀ t, relates t t = true) (s : Signature) :
    signatureCovers relates s s = true := by
  simp [signatureCovers, haveSameNames_self, arityCovers_self, paramsRelate_self hrel,
    resultRelates_self hrel]

theorem overloadsCover_self (hrel : ∀ t, relates t t = true) (overloads : List Signature) :
    overloadsCover relates overloads overloads = true := by
  simp only [overloadsCover, List.all_eq_true, List.any_eq_true]
  intro s hs
  exact ⟨s, hs, signatureCovers_self hrel s⟩

end Rules

end Relation
end TypeSurface
