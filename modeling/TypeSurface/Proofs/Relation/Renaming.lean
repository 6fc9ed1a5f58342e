import TypeSurface.Relation.Assignable

/-!
# What a renaming leaves alone

A renaming changes the types that a signature is written with, and neither the names of its
parameters nor whether they may be left out or collect what is left.
-/

namespace TypeSurface
namespace Relation

variable (names : Renaming)

theorem renameParam_eq (p : Param) :
    renameParam names p = ⟨p.name, renameType names p.type, p.isOptional, p.isRest⟩ := by
  cases p
  rw [renameParam]

theorem filter_map_renameParam (ps : List Param) :
    (ps.map (renameParam names)).filter (·.name != "this") =
      (ps.filter (·.name != "this")).map (renameParam names) := by
  simp [List.filter_map, Function.comp_def, renameParam_eq]

/-- The names that a signature and another give to their type parameters, place by place. -/
def namesFor (s : Signature) (targets : List TypeParam) : Renaming :=
  (s.typeParams.zip targets).map fun (p, q) ↦ (p.name, q.name)

theorem valueParams_renameTypeParams (s : Signature) (targets : List TypeParam) :
    (renameTypeParams s targets).valueParams =
      s.valueParams.map (renameParam (namesFor s targets)) :=
  filter_map_renameParam _ _

@[simp] theorem minArity_renameTypeParams (s : Signature) (targets : List TypeParam) :
    (renameTypeParams s targets).minArity = s.minArity := by
  simp [Signature.minArity, valueParams_renameTypeParams, List.countP_map, Function.comp_def,
    renameParam_eq]

@[simp] theorem maxArity_renameTypeParams (s : Signature) (targets : List TypeParam) :
    (renameTypeParams s targets).maxArity = s.maxArity := by
  simp [Signature.maxArity, valueParams_renameTypeParams, List.any_map, Function.comp_def,
    renameParam_eq]

theorem haveSameNames_iff {ps qs : List TypeParam} (h : ps.length = qs.length) :
    haveSameNames ps qs = true ↔
      ps.map TypeParam.name = qs.map TypeParam.name := by
  unfold haveSameNames
  induction ps generalizing qs with
  | nil =>
    cases qs with
    | nil => simp
    | cons q qs => cases h
  | cons p ps ih =>
    cases qs with
    | nil => cases h
    | cons q qs => simp only [List.zip_cons_cons, List.all_cons, Bool.and_eq_true, beq_iff_eq,
        List.map_cons, List.cons.injEq, ih (Nat.succ.inj h)]

/-- `o` with the names of `w` for its type parameters. -/
def namedFor (o w : Signature) : Signature :=
  if haveSameNames o.typeParams w.typeParams then o else renameTypeParams o w.typeParams

@[simp] theorem minArity_namedFor (o w : Signature) : (namedFor o w).minArity = o.minArity := by
  unfold namedFor
  split <;> simp

@[simp] theorem maxArity_namedFor (o w : Signature) : (namedFor o w).maxArity = o.maxArity := by
  unfold namedFor
  split <;> simp

/-- Where the names are those of `w`, nothing is renamed. -/
theorem namedFor_of_names {o w : Signature}
    (h : o.typeParams.map TypeParam.name = w.typeParams.map TypeParam.name) : namedFor o w = o :=
  if_pos ((haveSameNames_iff (by simpa using congrArg List.length h)).2 h)

theorem length_typeParams_namedFor (o w : Signature) :
    (namedFor o w).typeParams.length = o.typeParams.length := by
  unfold namedFor
  split
  · rfl
  · simp [renameTypeParams]

theorem arityCovers_namedFor (o w v : Signature) :
    arityCovers (namedFor o v) w = arityCovers o w := by
  simp only [arityCovers, minArity_namedFor, maxArity_namedFor]

theorem signatureCovers_eq (r : TypeExpr → TypeExpr → Bool) (o w : Signature) :
    signatureCovers r o w =
      (o.typeParams.length == w.typeParams.length &&
        (arityCovers (namedFor o w) w && paramsRelate r (namedFor o w).valueParams w.valueParams &&
          resultRelates r (namedFor o w).result w.result)) :=
  rfl

end Relation
end TypeSurface
