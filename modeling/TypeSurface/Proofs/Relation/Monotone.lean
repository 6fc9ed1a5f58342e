import TypeSurface.Proofs.Relation.Rules

/-!
# More levels find more

No rule asks that two types inside do *not* relate.  A relation that holds of more types therefore
keeps every answer `true` of every rule, and so does a greater number of levels.
-/

namespace TypeSurface
namespace Relation

section Rules

variable {r r' : TypeExpr → TypeExpr → Bool} (hr : ∀ s t, r s t = true → r' s t = true)

include hr

theorem resultRelates_mono {s t : TypeExpr} (h : resultRelates r s t = true) :
    resultRelates r' s t = true := by
  rw [resultRelates, Bool.or_eq_true] at h ⊢
  exact h.imp_right (hr s t)

theorem paramsRelate_mono {ps qs : List Param} (h : paramsRelate r ps qs = true) :
    paramsRelate r' ps qs = true := by
  rw [paramsRelate_iff] at h ⊢
  intro i w o hw ho
  exact (h i w o hw ho).imp (hr _ _) (hr _ _)

theorem signatureCovers_mono {o w : Signature} (h : signatureCovers r o w = true) :
    signatureCovers r' o w = true := by
  simp only [signatureCovers, Bool.and_eq_true] at h ⊢
  obtain ⟨hlength, ⟨harity, hparams⟩, hresult⟩ := h
  exact ⟨hlength, ⟨harity, paramsRelate_mono hr hparams⟩, resultRelates_mono hr hresult⟩

theorem overloadsCover_mono {os ws : List Signature} (h : overloadsCover r os ws = true) :
    overloadsCover r' os ws = true := by
  simp only [overloadsCover, List.all_eq_true, List.any_eq_true] at h ⊢
  intro w hw
  obtain ⟨o, ho, hcovers⟩ := h w hw
  exact ⟨o, ho, signatureCovers_mono hr hcovers⟩

theorem functionRelates_mono {s t : Signature} (h : functionRelates r s t = true) :
    functionRelates r' s t = true := by
  simp only [functionRelates, Bool.and_eq_true] at h ⊢
  obtain ⟨⟨hcounts, hparams⟩, hresult⟩ := h
  exact ⟨⟨hcounts, paramsRelate_mono hr hparams⟩, resultRelates_mono hr hresult⟩

theorem formRelates_mono {m n : MemberForm} (h : formRelates r m n = true) :
    formRelates r' m n = true := by
  unfold formRelates at h ⊢
  split at h
  · exact hr _ _ h
  · exact hr _ _ h
  · exact signatureCovers_mono hr h
  · exact signatureCovers_mono hr h
  · exact signatureCovers_mono hr h
  · cases h

theorem objectRelates_mono {ms ns : List MemberForm} (h : objectRelates r ms ns = true) :
    objectRelates r' ms ns = true := by
  rw [objectRelates, List.all_eq_true] at h ⊢
  intro wanted hwanted
  have hfound := h wanted hwanted
  revert hfound
  cases ms.find? fun offered ↦ formKey offered == formKey wanted with
  | none => exact id
  | some offered => exact formRelates_mono hr

theorem elementRelates_mono {d e : TupleElement} (h : elementRelates r d e = true) :
    elementRelates r' d e = true := by
  rw [elementRelates, Bool.and_eq_true] at h ⊢
  exact h.imp_right (hr _ _)

theorem otherRelates_mono {s t : TypeExpr} (h : otherRelates r s t = true) :
    otherRelates r' s t = true := by
  unfold otherRelates at h ⊢
  split at h
  · simp only [Bool.and_eq_true, List.all_eq_true] at h ⊢
    exact ⟨h.1, fun p hp ↦ hr _ _ (h.2 p hp)⟩
  · exact functionRelates_mono hr h
  · exact functionRelates_mono hr h
  · exact objectRelates_mono hr h
  · rw [Bool.and_eq_true] at h ⊢
    exact h.imp_right (hr _ _)
  · cases h

theorem shapeRelates_mono {s t : Shape} (h : shapeRelates r s t = true) :
    shapeRelates r' s t = true := by
  cases s <;> cases t <;> simp only [shapeRelates] at h ⊢
  case array.array => exact hr _ _ h
  case array.readonlyArray => exact hr _ _ h
  case readonlyArray.readonlyArray => exact hr _ _ h
  case tuple.array =>
    rw [List.all_eq_true] at h ⊢
    exact fun e he ↦ hr _ _ (h e he)
  case tuple.readonlyArray =>
    rw [List.all_eq_true] at h ⊢
    exact fun e he ↦ hr _ _ (h e he)
  case tuple.tuple =>
    simp only [Bool.and_eq_true, List.all_eq_true] at h ⊢
    exact ⟨h.1, fun p hp ↦ elementRelates_mono hr (h.2 p hp)⟩
  case other.other => exact otherRelates_mono hr h
  all_goals cases h

/-- Whether one side is a union or an intersection does not depend on the relation. -/
theorem relateParts?_mono (s t : TypeExpr) :
    (relateParts? r s t = none ∧ relateParts? r' s t = none) ∨
      ∃ x x', relateParts? r s t = some x ∧ relateParts? r' s t = some x' ∧
        (x = true → x' = true) := by
  unfold relateParts?
  split
  · refine .inr ⟨_, _, rfl, rfl, fun h ↦ ?_⟩
    rw [List.all_eq_true] at h ⊢
    exact fun m hm ↦ hr _ _ (h m hm)
  · refine .inr ⟨_, _, rfl, rfl, fun h ↦ ?_⟩
    rw [List.all_eq_true] at h ⊢
    exact fun m hm ↦ hr _ _ (h m hm)
  · refine .inr ⟨_, _, rfl, rfl, fun h ↦ ?_⟩
    rw [List.any_eq_true] at h ⊢
    exact h.imp fun m hm ↦ ⟨hm.1, hr _ _ hm.2⟩
  · refine .inr ⟨_, _, rfl, rfl, fun h ↦ ?_⟩
    rw [List.any_eq_true] at h ⊢
    exact h.imp fun m hm ↦ ⟨hm.1, hr _ _ hm.2⟩
  · exact .inl ⟨rfl, rfl⟩

theorem structureRelates_mono {s t : TypeExpr} (h : structureRelates r s t = true) :
    structureRelates r' s t = true := by
  rcases relateParts?_mono hr s t with ⟨hnone, hnone'⟩ | ⟨x, x', hsome, hsome', hx⟩
  · rw [structureRelates_of_no_parts hnone, Bool.or_eq_true] at h
    rw [structureRelates_of_no_parts hnone', Bool.or_eq_true]
    apply h.imp_right
    intro h
    split at h
    · next hobject => rwa [if_pos hobject]
    · next hobject =>
      rw [if_neg hobject]
      cases hanswer : relatePrimitives? s t with
      | none =>
        rw [hanswer] at h
        exact shapeRelates_mono hr h
      | some answer =>
        rw [hanswer] at h
        exact h
  · rw [structureRelates_of_parts hsome, Bool.or_eq_true] at h
    rw [structureRelates_of_parts hsome', Bool.or_eq_true]
    exact h.imp_right hx

theorem levelRelates_mono {types : OrderedMap String TypeEntry} {s t : TypeExpr}
    (h : levelRelates r types s t = true) : levelRelates r' types s t = true := by
  unfold levelRelates at h ⊢
  split at h
  · exact hr _ _ h
  · exact hr _ _ h
  · exact structureRelates_mono hr h

end Rules

theorem assignableWithin_succ {types : OrderedMap String TypeEntry} {n : Nat} {s t : TypeExpr}
    (h : assignableWithin types n s t = true) : assignableWithin types (n + 1) s t = true := by
  induction n generalizing s t with
  | zero =>
    cases of_decide_eq_true h
    exact assignableWithin_self types 1 s
  | succ n ih =>
    rw [assignableWithin, Bool.or_eq_true] at h ⊢
    exact h.imp_right (levelRelates_mono fun _ _ ↦ ih)

theorem assignableWithin_mono {types : OrderedMap String TypeEntry} {m n : Nat} (hmn : m ≤ n)
    {s t : TypeExpr} (h : assignableWithin types m s t = true) :
    assignableWithin types n s t = true := by
  induction hmn with
  | refl => exact h
  | step _ ih => exact assignableWithin_succ ih

end Relation
end TypeSurface
