import TypeSurface.Proofs.Relation.Correspondence
import TypeSurface.Proofs.Relation.Renaming
import TypeSurface.Proofs.Relation.Reflexivity
import TypeSurface.Proofs.Relation.Rules

/-!
# The rules on types of one form

If the types inside two types that match relate, so do the two types.  A rest parameter is compared
by what it collects, so what corresponds has to correspond as the types of arguments too.
-/

namespace TypeSurface

def MemberForm.indexKeys : MemberForm → List TypeExpr
  | .index _ _ keyType _ => [keyType]
  | .property .. | .method .. | .call _ | .construct _ => []

namespace TypeExpr

/-- The texts by which the members of an object type are matched. -/
def formKeys : TypeExpr → List String
  | .object members => members.map Relation.formKey
  | _ => []

def indexKeys : TypeExpr → List TypeExpr
  | .object members => members.flatMap MemberForm.indexKeys
  | _ => []

/-- The types that are related by what is inside: neither a name, a keyword or a literal, nor one
that is taken apart before, nor an operator. -/
def isStructured : TypeExpr → Bool
  | .array _ | .tuple _ | .reference _ (_ :: _) | .function _ | .construct _ | .object _
  | .predicate _ _ => true
  | _ => false

end TypeExpr

namespace Relation

/-- How the rules compare the parts of types: the signatures of methods are given the same names for
their type parameters first. -/
def compares (Q : TypeExpr → TypeExpr → Prop) : Correspondence where
  names := Eq
  types := Q
  functions := SignatureMatches Q
  methods s t := SignatureMatches Q (namedFor s t) t

/-- Object types that match have their members under the same keys if the keys of index members are
the same types. -/
theorem Correspondence.Matches.formKeys_eq {c : Correspondence} {s t : TypeExpr}
    (h : c.Matches s t) (hkeys : s.indexKeys = t.indexKeys) : s.formKeys = t.formKeys := by
  cases h with
  | object h =>
    simp only [TypeExpr.indexKeys, TypeExpr.formKeys] at hkeys ⊢
    induction h with
    | nil => rfl
    | cons hmn _ ih =>
      rw [List.flatMap_cons, List.flatMap_cons] at hkeys
      rw [List.map_cons, List.map_cons]
      cases hmn with
      | property name isReadonly isOptional _ => rw [ih hkeys]; rfl
      | method name isOptional _ => rw [ih hkeys]; rfl
      | index isReadonly keyName _ _ =>
        obtain ⟨rfl, hrest⟩ := List.cons_eq_cons.1 hkeys
        rw [ih hrest]
        rfl
      | call _ => rw [ih hkeys]; rfl
      | construct _ => rw [ih hkeys]; rfl
  | _ => rfl

section Signatures

variable {Q : TypeExpr → TypeExpr → Prop} {s t : Signature}

theorem SignatureMatches.valueParams (h : SignatureMatches Q s t) :
    List.Forall₂ (ParamMatches Q) s.valueParams t.valueParams :=
  List.rel_filter (fun p q hpq ↦ by simp only [hpq.name]) h.params

theorem SignatureMatches.minArity_eq (h : SignatureMatches Q s t) : s.minArity = t.minArity := by
  have hmap : s.valueParams.map (fun p ↦ !p.isOptional && !p.isRest) =
      t.valueParams.map fun p ↦ !p.isOptional && !p.isRest :=
    map_eq_of_forall₂ (h.valueParams.imp fun p q hpq ↦ by rw [hpq.isOptional, hpq.isRest])
  have hcount := congrArg (List.countP id) hmap
  rwa [List.countP_map, List.countP_map] at hcount

theorem SignatureMatches.maxArity_eq (h : SignatureMatches Q s t) : s.maxArity = t.maxArity := by
  have hmap : s.valueParams.map Param.isRest = t.valueParams.map Param.isRest :=
    map_eq_of_forall₂ (h.valueParams.imp fun _ _ hpq ↦ hpq.isRest)
  have hany := congrArg (List.any · id) hmap
  simp only [List.any_map] at hany
  simp only [Signature.maxArity]
  rw [h.valueParams.length_eq]
  exact if_congr (by rw [Bool.eq_iff_iff] at hany; exact hany) rfl rfl

end Signatures

section Rules

variable {r : TypeExpr → TypeExpr → Bool} {Q : TypeExpr → TypeExpr → Prop}
  (hr : ∀ s t, Q s t → r s t = true)
  (hargument : ∀ isRest s t, Q s t → Q (argumentType isRest s) (argumentType isRest t))

include hr

theorem all_zip_of_forall₂ {as bs : List TypeExpr} (h : List.Forall₂ Q as bs) :
    (as.length == bs.length && (as.zip bs).all fun (a, b) ↦ r a b) = true := by
  rw [Bool.and_eq_true, beq_iff_eq, List.all_eq_true]
  exact ⟨h.length_eq, fun p hp ↦ hr _ _ (List.forall₂_zip h hp)⟩

theorem elementRelates_of_matches {d e : TupleElement} (h : ElementMatches Q d e) :
    elementRelates r d e = true := by
  rw [elementRelates, h.isRest, h.isOptional, hr _ _ h.type]
  cases e.isOptional <;> simp

theorem tupleRelates_of_matches {ds es : List TupleElement}
    (h : List.Forall₂ (ElementMatches Q) ds es) :
    (ds.length == es.length && (ds.zip es).all fun (d, e) ↦ elementRelates r d e) = true := by
  rw [Bool.and_eq_true, beq_iff_eq, List.all_eq_true]
  exact ⟨h.length_eq, fun p hp ↦ elementRelates_of_matches hr (List.forall₂_zip h hp)⟩

include hargument

theorem paramsRelate_of_forall₂ {ps qs : List Param} (h : List.Forall₂ (ParamMatches Q) ps qs) :
    paramsRelate r ps qs = true := by
  rw [paramsRelate_iff]
  intro i w o hw ho
  obtain ⟨hi, rfl⟩ := List.getElem?_eq_some_iff.1 hw
  have hi' : i < ps.length := h.length_eq ▸ hi
  have hpair : ParamMatches Q ps[i] qs[i] := h.get hi' hi
  have hparam : o = ps[i] := by
    rw [paramAt?, List.getElem?_eq_getElem hi'] at ho
    exact (Option.some.inj ho).symm
  rw [hparam, hpair.isRest]
  exact .inl (hr _ _ (hargument _ _ _ hpair.type))

theorem functionRelates_of_matches {s t : Signature} (h : SignatureMatches Q s t) :
    functionRelates r s t = true := by
  have harity : s.minArity ≤ t.valueParams.length := by
    rw [h.minArity_eq]
    exact List.countP_le_length
  simp [functionRelates, resultRelates, h.typeParams, harity, hr _ _ h.result,
    paramsRelate_of_forall₂ hr hargument h.valueParams]

theorem signatureCovers_of_matches {s t : Signature}
    (h : SignatureMatches Q (namedFor s t) t) : signatureCovers r s t = true := by
  have hlength : s.typeParams.length = t.typeParams.length := by
    rw [← length_typeParams_namedFor s t, h.typeParams]
  have harity : arityCovers (namedFor s t) t = true := by
    have hself := arityCovers_self t
    unfold arityCovers at hself ⊢
    rwa [h.minArity_eq, h.maxArity_eq]
  rw [signatureCovers_eq]
  simp [hlength, harity, resultRelates, hr _ _ h.result,
    paramsRelate_of_forall₂ hr hargument h.valueParams]

theorem formRelates_of_matches {m n : MemberForm}
    (h : FormMatches Q (compares Q).methods m n) : formRelates r m n = true := by
  cases h with
  | property name isReadonly isOptional h => exact hr _ _ h
  | method name isOptional h => exact signatureCovers_of_matches hr hargument h
  | index isReadonly keyName hkey h => exact hr _ _ h
  | call h => exact signatureCovers_of_matches hr hargument h
  | construct h => exact signatureCovers_of_matches hr hargument h

omit hr hargument in
/-- Under distinct keys the member that is found for another is the one at its place. -/
theorem find?_formKey_of_forall₂ {F : MemberForm → MemberForm → Prop} {ms ns : List MemberForm}
    (h : List.Forall₂ F ms ns) (hkeys : ms.map formKey = ns.map formKey)
    (hnodup : (ns.map formKey).Nodup) {n : MemberForm} (hn : n ∈ ns) :
    ∃ m, ms.find? (fun offered ↦ formKey offered == formKey n) = some m ∧ F m n := by
  induction h with
  | nil => cases hn
  | @cons m n' ms ns hmn hrest ih =>
    rw [List.map_cons, List.map_cons, List.cons.injEq] at hkeys
    rw [List.map_cons, List.nodup_cons] at hnodup
    rcases List.mem_cons.1 hn with rfl | hn
    · exact ⟨m, List.find?_cons_of_pos (by simp [hkeys.1]), hmn⟩
    · have hne : formKey m ≠ formKey n := by
        intro heq
        exact hnodup.1 (hkeys.1 ▸ heq ▸ List.mem_map_of_mem hn)
      obtain ⟨m', hfind, hF⟩ := ih hkeys.2 hnodup.2 hn
      exact ⟨m', by rw [List.find?_cons_of_neg (by simpa using hne), hfind], hF⟩

theorem objectRelates_of_matches {ms ns : List MemberForm}
    (h : List.Forall₂ (FormMatches Q (compares Q).methods) ms ns)
    (hkeys : ms.map formKey = ns.map formKey) (hnodup : (ns.map formKey).Nodup) :
    objectRelates r ms ns = true := by
  rw [objectRelates, List.all_eq_true]
  intro n hn
  obtain ⟨m, hfind, hmn⟩ := find?_formKey_of_forall₂ h hkeys hnodup hn
  rw [hfind]
  exact formRelates_of_matches hr hargument hmn

/-- Structured types that match relate by their shapes. -/
theorem shapeRelates_of_matches {s t : TypeExpr} (h : (compares Q).Matches s t)
    (hstructured : t.isStructured = true) (hkeys : s.formKeys = t.formKeys)
    (hnodup : t.formKeys.Nodup) : shapeRelates r (shapeOf s) (shapeOf t) = true := by
  cases h with
  | array h => exact hr _ _ h
  | tuple h => exact tupleRelates_of_matches hr h
  | @reference m n as bs hname h =>
    cases hname
    have hother : otherRelates r (.reference m as) (.reference m bs) = true := by
      simpa [otherRelates] using all_zip_of_forall₂ hr h
    cases h with
    | nil => cases hstructured
    | cons hab h =>
      cases h with
      | nil =>
        -- One argument: the name may be another spelling of an array type.
        simp only [shapeOf]
        split
        · exact hr _ _ hab
        · split
          · exact hr _ _ hab
          · exact hother
      | cons _ _ => exact hother
  | function h => exact functionRelates_of_matches hr hargument h
  | construct h => exact functionRelates_of_matches hr hargument h
  | object h => exact objectRelates_of_matches hr hargument h hkeys hnodup
  | predicate parameter h => simp [shapeOf, shapeRelates, otherRelates, hr _ _ h]
  | _ => cases hstructured

theorem shapeRelates_readonly_of_matches {s t : TypeExpr} (h : (compares Q).Matches s t)
    (hstructured : t.isStructured = true) (hkeys : s.formKeys = t.formKeys)
    (hnodup : t.formKeys.Nodup) :
    shapeRelates r (shapeOf (.readonly s)) (shapeOf (.readonly t)) = true := by
  cases h with
  | array h => exact hr _ _ h
  | tuple h => exact tupleRelates_of_matches hr h
  | @reference m n as bs hname h =>
    cases hname
    simpa [shapeOf, shapeRelates, otherRelates] using all_zip_of_forall₂ hr h
  | function h => exact functionRelates_of_matches hr hargument h
  | construct h => exact functionRelates_of_matches hr hargument h
  | object h => exact objectRelates_of_matches hr hargument h hkeys hnodup
  | predicate parameter h => simp [shapeOf, shapeRelates, otherRelates, hr _ _ h]
  | _ => cases hstructured

end Rules

end Relation
end TypeSurface
