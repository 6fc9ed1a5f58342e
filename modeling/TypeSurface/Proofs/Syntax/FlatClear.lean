import TypeSurface.Proofs.Syntax.Flat

/-!
# Flat types are readable

Whether a written type is clear does not rest on how its combinations are put together, so the flat form
of a written and clear type is readable.
-/

namespace TypeSurface
namespace TypeExpr

variable {t u : TypeExpr}

/-! ### The fronts of flat types -/

/-- Whether what a predicate says of the front of a type rests on an operand, not on what it is combined
with. -/
structure IsOfOperands (P : TypeExpr → Bool) : Prop where
  array : ∀ t, P (.array t) = false
  union : ∀ ts, P (.union ts) = false
  intersection : ∀ ts, P (.intersection ts) = false

section Fronts

variable {P : TypeExpr → Bool}

theorem front_members {c : Combination} (hP : IsOfOperands P) (hne : c.members t ≠ [])
    (ts : List TypeExpr) :
    P (c.of (c.members t ++ ts)).front = if c.isLoose t then false else P t.front := by
  have hcombination : ∀ us, P (c.of us) = false := by
    cases c with
    | union => exact hP.union
    | intersection => exact hP.intersection
  have hcons : ∀ m ms, P (c.of (m :: ms)).front = if c.isLoose m then false else P m.front := by
    intro m ms
    rw [Combination.front_of_cons]
    split
    · exact hcombination _
    · rfl
  obtain ⟨us, rfl⟩ | ⟨-, hmembers⟩ := c.has_or t
  · rw [Combination.members_of] at hne ⊢
    obtain ⟨m, ms, rfl⟩ := List.exists_cons_of_ne_nil hne
    rw [Combination.isLoose_of, if_neg (by simp), hcons m ms]
    exact hcons m (ms ++ ts)
  · rw [hmembers]
    exact hcons t ts

/-- A flat combination starts as the flat form of its first member does. -/
theorem front_flat_of {c : Combination} (hP : IsOfOperands P) (ht : t.All (·.isWrittenNode = true))
    (ts : List TypeExpr) :
    P (c.of (t :: ts)).flat.front = if c.isLoose t then false else P t.flat.front := by
  rw [Combination.flat_of, List.map_cons, List.flatMap_cons,
    front_members hP (c.members_ne_nil (allWritten_flat ht).self), isLoose_flat]

theorem front_flat (hP : IsOfOperands P)
    (hflat : ∀ u : TypeExpr, u.All (·.isWrittenNode = true) → P u.flat = P u)
    (h : t.All (·.isWrittenNode = true)) : P t.flat.front = P t.front := by
  -- The fronts themselves differ where a combination is one of the front's, and there `P` is false.
  fun_induction front t with
  | case1 t hloose =>
    rw [flat, front, isLoosePostfixOperand_flat, if_pos hloose, hP.array, hP.array]
  | case2 t hloose ih =>
    rw [flat, front, isLoosePostfixOperand_flat, if_neg hloose]
    exact ih (h.child (by simp [children]))
  | case3 t ts hloose =>
    have hfront := front_flat_of (c := .union) hP (h.child (u := t) (by simp [children])) ts
    rw [Combination.isLoose, if_pos hloose] at hfront
    rw [hP.union]
    exact hfront
  | case4 t ts hloose ih =>
    have ht := h.child (u := t) (by simp [children])
    have hfront := front_flat_of (c := .union) hP ht ts
    rw [Combination.isLoose, if_neg hloose, ih ht] at hfront
    exact hfront
  | case5 t ts hloose =>
    have hfront := front_flat_of (c := .intersection) hP (h.child (u := t) (by simp [children])) ts
    rw [Combination.isLoose, if_pos hloose] at hfront
    rw [hP.intersection]
    exact hfront
  | case6 t ts hloose ih =>
    have ht := h.child (u := t) (by simp [children])
    have hfront := front_flat_of (c := .intersection) hP ht ts
    rw [Combination.isLoose, if_neg hloose, ih ht] at hfront
    exact hfront
  | case7 t harray hunion hintersection =>
    have hfront : t.flat.front = t.flat := by
      cases t with
      | array t => exact absurd rfl (harray t)
      | union ts =>
        cases ts with
        | nil =>
          rw [flat]
          rfl
        | cons t ts => exact absurd rfl (hunion t ts)
      | intersection ts =>
        cases ts with
        | nil =>
          rw [flat]
          rfl
        | cons t ts => exact absurd rfl (hintersection t ts)
      | _ =>
        rw [flat]
        rfl
    rw [hfront, hflat t h]

end Fronts

theorem startsNew_flat (h : t.All (·.isWrittenNode = true)) : t.flat.startsNew = t.startsNew := by
  refine front_flat (P := isAppliedNew) ⟨fun _ ↦ rfl, fun _ ↦ rfl, fun _ ↦ rfl⟩ (fun u _ ↦ ?_) h
  cases u with
  | reference name args => simp [flat, isAppliedNew]
  | _ => rw [flat] <;> rfl

theorem startsIs_flat (h : t.All (·.isWrittenNode = true)) : t.flat.startsIs = t.startsIs := by
  refine front_flat (P := isNamedIs) ⟨fun _ ↦ rfl, fun _ ↦ rfl, fun _ ↦ rfl⟩ (fun u _ ↦ ?_) h
  cases u <;> rw [flat] <;> rfl

theorem startsPredicate_flat (h : t.All (·.isWrittenNode = true)) :
    t.flat.startsPredicate = t.startsPredicate := by
  refine front_flat (P := isOperatorOnIs) ⟨fun _ ↦ rfl, fun _ ↦ rfl, fun _ ↦ rfl⟩ (fun u hu ↦ ?_) h
  cases u with
  | keyOf operand =>
    rw [flat, isOperatorOnIs, isOperatorOnIs, isLoosePrefixOperand_flat,
      startsIs_flat (hu.child (by simp [children]))]
  | readonly operand =>
    rw [flat, isOperatorOnIs, isOperatorOnIs, isLoosePrefixOperand_flat,
      startsIs_flat (hu.child (by simp [children]))]
  | _ => rw [flat] <;> rfl

/-! ### Flat types are readable -/

theorem isFlatNode_flat_of {c : Combination} {ts : List TypeExpr}
    (h : ∀ u ∈ ts, u.flat.isFlatNode = true) : (c.of ts).flat.isFlatNode = true := by
  rw [Combination.flat_of, Combination.isFlatNode_of, List.all_eq_true]
  intro u hu
  obtain ⟨v, hv, ⟨-, hhas⟩ | ⟨us, hus, hu⟩⟩ := Combination.mem_flat hu
  · rw [hhas]
    rfl
  · have hflat := h v hv
    rw [hus, Combination.isFlatNode_of] at hflat
    exact List.all_eq_true.1 hflat u hu

theorem isFlatNode_flat (hchildren : ∀ u ∈ t.children, u.flat.isFlatNode = true) :
    t.flat.isFlatNode = true := by
  cases t with
  | union members => exact isFlatNode_flat_of (c := .union) hchildren
  | intersection members => exact isFlatNode_flat_of (c := .intersection) hchildren
  | _ =>
    rw [flat]
    rfl

theorem isShownNode_flat (t : TypeExpr) : t.flat.isShownNode = t.isShownNode := by
  cases t with
  | object members => simp [flat, isShownNode, Function.comp_def, MemberForm.isShown_flat]
  | _ => rw [flat] <;> rfl

theorem isAppliedNode_flat (t : TypeExpr) : t.flat.isAppliedNode = t.isAppliedNode := by
  cases t <;> simp [flat, isAppliedNode]

theorem holdsBareNew_flat (t : TypeExpr) : t.flat.holdsBareNew = t.holdsBareNew := by
  cases t with
  | object members => simp [flat, holdsBareNew, Function.comp_def, MemberForm.isBareNew_flat]
  | _ => rw [flat] <;> rfl

theorem results_flat (t : TypeExpr) : t.flat.results = t.results.map flat := by
  cases t with
  | function signature => simp [flat, results, Signature.result_flat]
  | construct signature => simp [flat, results, Signature.result_flat]
  | object members =>
    simp [flat, results, MemberForm.results_flat, List.flatMap_map, List.map_flatMap]
  | _ =>
    rw [flat]
    rfl

theorem mem_wholes_flat_of {c : Combination} {ts : List TypeExpr} (h : u ∈ (c.of ts).flat.wholes) :
    ∃ v ∈ ts, u = v.flat ∧ v ∈ (c.of ts).wholes ∨ u ∈ v.flat.wholes := by
  rw [Combination.flat_of, Combination.wholes_of, List.mem_filter] at h
  rw [Combination.wholes_of]
  obtain ⟨v, hv, ⟨rfl, -⟩ | ⟨us, hus, hu⟩⟩ := Combination.mem_flat h.1
  · exact ⟨v, hv, Or.inl ⟨rfl, List.mem_filter.2 ⟨hv, by simpa using h.2⟩⟩⟩
  · refine ⟨v, hv, Or.inr ?_⟩
    rw [hus, Combination.wholes_of]
    exact List.mem_filter.2 ⟨hu, h.2⟩

/-- What is read by itself in a flat type was so in the type or in a member of it. -/
theorem mem_wholes_flat (h : u ∈ t.flat.wholes) :
    ∃ v ∈ t.children, u = v.flat ∧ v ∈ t.wholes ∨ u ∈ v.flat.wholes := by
  have hmap : t.flat.wholes = t.wholes.map flat →
      ∃ v ∈ t.children, u = v.flat ∧ v ∈ t.wholes ∨ u ∈ v.flat.wholes := by
    intro hwholes
    rw [hwholes] at h
    obtain ⟨v, hv, rfl⟩ := List.mem_map.1 h
    exact ⟨v, mem_children_of_mem_wholes hv, Or.inl ⟨rfl, hv⟩⟩
  have hchildren := children_flat (t := t)
  cases t with
  | union members => exact mem_wholes_flat_of (c := .union) h
  | intersection members => exact mem_wholes_flat_of (c := .intersection) h
  | array element =>
    refine hmap ?_
    rw [flat, wholes, wholes, isLoosePostfixOperand_flat]
    split <;> rfl
  | keyOf operand =>
    refine hmap ?_
    rw [flat, wholes, wholes, isLoosePrefixOperand_flat]
    split <;> rfl
  | readonly operand =>
    refine hmap ?_
    rw [flat, wholes, wholes, isLoosePrefixOperand_flat]
    split <;> rfl
  | _ =>
    refine hmap (Eq.trans ?_ (hchildren rfl rfl))
    rw [flat]
    rfl

theorem isClearNode_flat (hwritten : t.All (·.isWrittenNode = true)) (h : t.IsClearNode)
    (hchildren : ∀ u ∈ t.children, u.flat.IsClearNode) : t.flat.IsClearNode := by
  refine ⟨(isShownNode_flat t).trans h.shown, (isAppliedNode_flat t).trans h.applied,
    fun u hu ↦ ?_, fun u hu ↦ ?_, (holdsBareNew_flat t).trans h.methods⟩
  · obtain ⟨v, hv, ⟨rfl, hwhole⟩ | hu⟩ := mem_wholes_flat hu
    · exact (startsNew_flat (hwritten.child hv)).trans (h.wholes v hwhole)
    · exact (hchildren v hv).wholes u hu
  · rw [results_flat] at hu
    obtain ⟨v, hv, rfl⟩ := List.mem_map.1 hu
    exact (startsPredicate_flat (hwritten.child (mem_children_of_mem_results hv))).trans
      (h.results v hv)

/-- A written and clear type is read as its flat form. -/
theorem isReadable_flat (hwritten : t.All (·.isWrittenNode = true)) (hclear : t.All IsClearNode) :
    t.flat.IsReadable := by
  have hboth : t.All fun u ↦ u.isWrittenNode = true ∧ u.IsClearNode := fun u hu ↦
    ⟨hwritten u hu, hclear u hu⟩
  refine all_flat (fun u hu hchildren ↦ ?_) hboth
  have hwritten : u.All (·.isWrittenNode = true) := hu.imp fun _ h ↦ h.1
  exact ⟨(allWritten_flat hwritten).self,
    isClearNode_flat hwritten hu.self.2 fun v hv ↦ (hchildren v hv).self.clear,
    isFlatNode_flat fun v hv ↦ (hchildren v hv).self.flat⟩

theorem isWhole_flat (hwritten : t.All (·.isWrittenNode = true)) (hproper : t.isProper = true)
    (hclear : t.IsClear) : t.flat.IsWhole :=
  ⟨isReadable_flat hwritten hclear.nodes, (isProper_flat t).trans hproper,
    (startsNew_flat hwritten).trans hclear.start⟩

end TypeExpr
end TypeSurface
