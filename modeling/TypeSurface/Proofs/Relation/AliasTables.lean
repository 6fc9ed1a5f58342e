import TypeSurface.Proofs.Relation.Capture
import TypeSurface.Proofs.Relation.Rules

/-!
# Where the aliases are looked up

The relation of two types asks for the relation of types inside, of types inside whose type
parameters were renamed, and of the bodies of aliases.  Tables that hold the same aliases for all of
these give the same answer.
-/

namespace TypeSurface
namespace Relation

/-- Whether the types with a property are enough to relate any two of them. -/
structure IsClosed (types : OrderedMap String TypeEntry) (P : TypeExpr → Prop) : Prop where
  inside {t u : TypeExpr} : P t → u ∈ t.compared → P u
  renamed {s t u : TypeExpr} {o w : Signature} : P s → P t → o ∈ s.signatures →
    w ∈ t.signatures → u ∈ (namedFor o w).compared → P u
  body {t b : TypeExpr} : P t → expandAlias? types t = some b → P b

namespace Shape

/-- Whether the types in a shape have a property. -/
def IsOver (P : TypeExpr → Prop) : Shape → Prop
  | array element | readonlyArray element => P element
  | tuple elements => ∀ e ∈ elements, P e.type
  | other t => P t

end Shape

section Lists

variable {α β : Type} {l : List α} {l' : List β}

theorem all_congr_of_mem {f g : α → Bool} (h : ∀ a ∈ l, f a = g a) : l.all f = l.all g := by
  rw [Bool.eq_iff_iff, List.all_eq_true, List.all_eq_true]
  exact forall₂_congr fun a ha ↦ by rw [h a ha]

theorem any_congr_of_mem {f g : α → Bool} (h : ∀ a ∈ l, f a = g a) : l.any f = l.any g := by
  rw [Bool.eq_iff_iff, List.any_eq_true, List.any_eq_true]
  exact exists_congr fun a ↦ and_congr_right fun ha ↦ by rw [h a ha]

theorem all_zip_congr {f g : α × β → Bool} (h : ∀ a ∈ l, ∀ b ∈ l', f (a, b) = g (a, b)) :
    (l.zip l').all f = (l.zip l').all g :=
  all_congr_of_mem fun (a, b) hab ↦ h a (List.of_mem_zip hab).1 b (List.of_mem_zip hab).2

end Lists

section Rules

variable {types : OrderedMap String TypeEntry} {P : TypeExpr → Prop}
  {r r' : TypeExpr → TypeExpr → Bool} {s t : TypeExpr}

theorem IsClosed.isOver_shapeOf (hP : IsClosed types P) (h : P t) : (shapeOf t).IsOver P := by
  have hmember {u : TypeExpr} (hu : u ∈ t.compared) : P u := hP.inside h hu
  unfold shapeOf
  split
  · exact hmember (List.mem_singleton_self _)
  · exact fun e he ↦ hmember (List.mem_map_of_mem he)
  · exact hP.inside (hmember (List.mem_singleton_self _)) (List.mem_singleton_self _)
  · exact fun e he ↦ hP.inside (hmember (List.mem_singleton_self _)) (List.mem_map_of_mem he)
  · exact hmember (List.mem_singleton_self _)
  · split_ifs
    · exact hmember (List.mem_singleton_self _)
    · exact hmember (List.mem_singleton_self _)
    · exact h
  · exact h

theorem IsClosed.argumentType (hP : IsClosed types P) (isRest : Bool) (h : P t) :
    P (argumentType isRest t) := by
  unfold Relation.argumentType
  split
  · have hover := hP.isOver_shapeOf h
    split
    · next hshape => rwa [hshape] at hover
    · next hshape => rwa [hshape] at hover
    · exact h
  · exact h

theorem mem_of_paramAt? {ps : List Param} {i : Nat} {p : Param} (h : paramAt? ps i = some p) :
    p ∈ ps := by
  unfold paramAt? at h
  split at h
  · next hp =>
    cases h
    exact List.mem_of_getElem? hp
  · obtain ⟨hlast, -⟩ := Option.filter_eq_some_iff.1 h
    exact List.mem_of_getLast? hlast

variable (hP : IsClosed types P) (hr : ∀ u v, P u → P v → r u v = r' u v)

include hr

theorem resultRelates_congr (hs : P s) (ht : P t) : resultRelates r s t = resultRelates r' s t := by
  rw [resultRelates, resultRelates, hr s t hs ht]

include hP

theorem paramsRelate_congr {ps qs : List Param} (hps : ∀ p ∈ ps, P p.type)
    (hqs : ∀ q ∈ qs, P q.type) : paramsRelate r ps qs = paramsRelate r' ps qs := by
  rw [Bool.eq_iff_iff, paramsRelate_iff, paramsRelate_iff]
  refine forall₃_congr fun i w o ↦ imp_congr_right fun hw ↦ imp_congr_right fun ho ↦ ?_
  have hoffered := hP.argumentType o.isRest (hps o (mem_of_paramAt? ho))
  have hwanted := hP.argumentType w.isRest (hqs w (List.mem_of_getElem? hw))
  rw [Meets, Meets, hr _ _ hoffered hwanted, hr _ _ hwanted hoffered]

theorem params_congr {o w : Signature} (ho : ∀ u ∈ o.compared, P u) (hw : ∀ u ∈ w.compared, P u) :
    paramsRelate r o.valueParams w.valueParams = paramsRelate r' o.valueParams w.valueParams ∧
      resultRelates r o.result w.result = resultRelates r' o.result w.result := by
  have hparam {s : Signature} (hs : ∀ u ∈ s.compared, P u) (p : Param) (hp : p ∈ s.valueParams) :
      P p.type :=
    hs _ (List.mem_append_left _ (List.mem_map_of_mem (List.mem_filter.1 hp).1))
  have hresult {s : Signature} (hs : ∀ u ∈ s.compared, P u) : P s.result :=
    hs _ (List.mem_append_right _ (List.mem_singleton_self _))
  exact ⟨paramsRelate_congr hP hr (hparam ho) (hparam hw),
    resultRelates_congr hr (hresult ho) (hresult hw)⟩

theorem signatureCovers_congr {o w : Signature} (ho : ∀ u ∈ (namedFor o w).compared, P u)
    (hw : ∀ u ∈ w.compared, P u) : signatureCovers r o w = signatureCovers r' o w := by
  obtain ⟨hparams, hresult⟩ := params_congr hP hr ho hw
  rw [signatureCovers_eq, signatureCovers_eq, hparams, hresult]

theorem functionRelates_congr {s t : Signature} (hs : ∀ u ∈ s.compared, P u)
    (ht : ∀ u ∈ t.compared, P u) : functionRelates r s t = functionRelates r' s t := by
  obtain ⟨hparams, hresult⟩ := params_congr hP hr hs ht
  rw [functionRelates, functionRelates, hparams, hresult]

theorem formRelates_congr {m n : MemberForm} (hm : ∀ u ∈ m.compared, P u)
    (hn : ∀ u ∈ n.compared, P u)
    (hrenamed : ∀ o ∈ m.signatures, ∀ w ∈ n.signatures, ∀ u ∈ (namedFor o w).compared, P u) :
    formRelates r m n = formRelates r' m n := by
  have hcovers {o w : Signature} (ho : o ∈ m.signatures) (hw : w ∈ n.signatures)
      (hn : ∀ u ∈ w.compared, P u) : signatureCovers r o w = signatureCovers r' o w :=
    signatureCovers_congr hP hr (hrenamed o ho w hw) hn
  unfold formRelates
  split
  · exact hr _ _ (hm _ (List.mem_singleton_self _)) (hn _ (List.mem_singleton_self _))
  · exact hr _ _ (hm _ (List.mem_cons_of_mem _ (List.mem_singleton_self _)))
      (hn _ (List.mem_cons_of_mem _ (List.mem_singleton_self _)))
  · exact hcovers (List.mem_singleton_self _) (List.mem_singleton_self _) hn
  · exact hcovers (List.mem_singleton_self _) (List.mem_singleton_self _) hn
  · exact hcovers (List.mem_singleton_self _) (List.mem_singleton_self _) hn
  · rfl

theorem objectRelates_congr {ms ns : List MemberForm} (hs : P (.object ms)) (ht : P (.object ns)) :
    objectRelates r ms ns = objectRelates r' ms ns := by
  refine all_congr_of_mem fun wanted hwanted ↦ ?_
  split
  · rfl
  · next offered hoffered =>
    have hmem := List.mem_of_find?_eq_some hoffered
    rw [formRelates_congr hP hr (fun u hu ↦ hP.inside hs (List.mem_flatMap.2 ⟨_, hmem, hu⟩))
      (fun u hu ↦ hP.inside ht (List.mem_flatMap.2 ⟨_, hwanted, hu⟩))
      fun o ho w hw u hu ↦ hP.renamed hs ht (List.mem_flatMap.2 ⟨_, hmem, ho⟩)
        (List.mem_flatMap.2 ⟨_, hwanted, hw⟩) hu]

theorem otherRelates_congr (hs : P s) (ht : P t) : otherRelates r s t = otherRelates r' s t := by
  unfold otherRelates
  split
  · exact congrArg _ (all_zip_congr fun a ha b hb ↦ hr a b (hP.inside hs ha) (hP.inside ht hb))
  · exact functionRelates_congr hP hr (fun _ ↦ hP.inside hs) (fun _ ↦ hP.inside ht)
  · exact functionRelates_congr hP hr (fun _ ↦ hP.inside hs) (fun _ ↦ hP.inside ht)
  · exact objectRelates_congr hP hr hs ht
  · rw [hr _ _ (hP.inside hs (List.mem_singleton_self _))
      (hP.inside ht (List.mem_singleton_self _))]
  · rfl

theorem shapeRelates_congr {a b : Shape} (ha : a.IsOver P) (hb : b.IsOver P) :
    shapeRelates r a b = shapeRelates r' a b := by
  have htuple (es : List TupleElement) (t : TypeExpr) (he : ∀ e ∈ es, P e.type) (ht : P t) :
      (es.all fun e ↦ r (argumentType e.isRest e.type) t) =
        es.all fun e ↦ r' (argumentType e.isRest e.type) t :=
    all_congr_of_mem fun e hmem ↦ hr _ _ (hP.argumentType e.isRest (he e hmem)) ht
  have helement (d e : TupleElement) (hd : P d.type) (he : P e.type) :
      elementRelates r d e = elementRelates r' d e := congrArg _ (hr _ _ hd he)
  unfold shapeRelates
  split
  · exact hr _ _ ha hb
  · exact hr _ _ ha hb
  · exact hr _ _ ha hb
  · exact htuple _ _ ha hb
  · exact htuple _ _ ha hb
  · exact congrArg _ (all_zip_congr fun d hd e he ↦ helement d e (ha d hd) (hb e he))
  · exact otherRelates_congr hP hr ha hb
  · rfl

theorem relateParts?_congr (hs : P s) (ht : P t) : relateParts? r s t = relateParts? r' s t := by
  unfold relateParts?
  split
  · exact congrArg some (all_congr_of_mem fun m hm ↦ hr m t (hP.inside hs hm) ht)
  · exact congrArg some (all_congr_of_mem fun m hm ↦ hr s m hs (hP.inside ht hm))
  · exact congrArg some (any_congr_of_mem fun m hm ↦ hr s m hs (hP.inside ht hm))
  · exact congrArg some (any_congr_of_mem fun m hm ↦ hr m t (hP.inside hs hm) ht)
  · rfl

theorem structureRelates_congr (hs : P s) (ht : P t) :
    structureRelates r s t = structureRelates r' s t := by
  unfold structureRelates
  rw [relateParts?_congr hP hr hs ht,
    shapeRelates_congr hP hr (hP.isOver_shapeOf hs) (hP.isOver_shapeOf ht)]

end Rules

/-- Tables with the same aliases for types that are enough to relate them relate them alike. -/
theorem assignableWithin_congr {types types' : OrderedMap String TypeEntry} {P : TypeExpr → Prop}
    (hP : IsClosed types P) (hsame : ∀ t, P t → expandAlias? types t = expandAlias? types' t)
    {s t : TypeExpr} (hs : P s) (ht : P t) (n : Nat) :
    assignableWithin types n s t = assignableWithin types' n s t := by
  induction n generalizing s t with
  | zero => rfl
  | succ n ih =>
    rw [assignableWithin, assignableWithin]
    congr 1
    unfold levelRelates
    rw [← hsame s hs, ← hsame t ht]
    split
    · next b hb => exact ih (hP.body hs hb) ht
    · next b hb => exact ih hs (hP.body ht hb)
    · exact structureRelates_congr hP (fun u v hu hv ↦ ih hu hv) hs ht

/-- Types are related alike under tables that expand all types alike. -/
theorem isAssignable_congr {types types' : OrderedMap String TypeEntry}
    (h : ∀ t, expandAlias? types t = expandAlias? types' t) (t u : TypeExpr) :
    isAssignable types t u = isAssignable types' t u :=
  assignableWithin_congr (P := fun _ ↦ True)
    ⟨fun _ _ ↦ trivial, fun _ _ _ _ _ ↦ trivial, fun _ _ ↦ trivial⟩ (fun t _ ↦ h t) trivial
    trivial _

/-! ### Names -/

/-- Whether a type leads to a name: the name stands in it, or one of its signatures declares a type
parameter of that name, or it leads to the name of an alias whose body does. -/
inductive LeadsTo (aliases : List (String × TypeExpr)) : TypeExpr → String → Prop
  | name (n : String) (args : List TypeExpr) : LeadsTo aliases (.reference n args) n
  | declared {t : TypeExpr} {n : String} (hn : n ∈ t.declaredNames) : LeadsTo aliases t n
  | inside {t u : TypeExpr} {n : String} (hu : u ∈ t.compared) (h : LeadsTo aliases u n) :
    LeadsTo aliases t n
  | body {t b : TypeExpr} {m n : String} (h : LeadsTo aliases t m) (hb : (m, b) ∈ aliases)
    (hn : LeadsTo aliases b n) : LeadsTo aliases t n

section Names

variable {aliases : List (String × TypeExpr)} {s t : TypeExpr} {m n : String}

/-- What leads to a name leads to everything that the name leads to. -/
theorem LeadsTo.of_named (h : LeadsTo aliases (.named m) n) (hm : LeadsTo aliases t m) :
    LeadsTo aliases t n := by
  generalize hu : TypeExpr.named m = u at h
  induction h with
  | name k args =>
    cases hu
    exact hm
  | declared hn =>
    cases hu
    cases hn
  | inside hu' _ _ =>
    cases hu
    cases hu'
  | body _ hb hn ih _ => exact .body (ih hu) hb hn

theorem compared_renameInner (names : Renaming) (s : Signature) :
    (renameInner names s).compared = s.compared.map (renameType names) := by
  simp [renameInner_eq, Signature.compared, renameParam_eq, Function.comp_def]

theorem compared_renameMember (names : Renaming) (m : MemberForm) :
    (renameMember names m).compared = m.compared.map (renameType names) := by
  cases m <;> simp [renameMember, MemberForm.compared, compared_renameInner]

theorem compared_renameType (names : Renaming) (t : TypeExpr) :
    (renameType names t).compared = t.compared.map (renameType names) := by
  cases t with
  | reference name args => cases args <;> simp [renameType, TypeExpr.compared]
  | object members =>
    simp only [renameType, TypeExpr.compared, List.flatMap_map, List.map_flatMap,
      compared_renameMember]
  | _ => simp [renameType, TypeExpr.compared, compared_renameInner, renameElement_eq,
      Function.comp_def]

/-- A renaming only adds the names that it gives. -/
theorem LeadsTo.of_renameType {names : Renaming} (h : LeadsTo aliases (renameType names t) n) :
    LeadsTo aliases t n ∨ ∃ p ∈ names, LeadsTo aliases (.named p.2) n := by
  generalize hu : renameType names t = u at h
  induction h generalizing t with
  | name k args =>
    cases t with
    | reference name as =>
      cases as with
      | nil =>
        rw [renameType] at hu
        cases hu
        rcases names.apply_cases name with hsame | ⟨hmem, -⟩
        · rw [hsame]
          exact .inl (.name _ _)
        · exact .inr ⟨_, hmem, .name _ _⟩
      | cons a as =>
        rw [renameType] at hu
        cases hu
        exact .inl (.name _ _)
    | _ => simp [renameType] at hu
  | declared hn =>
    rw [← hu, declaredNames_renameType] at hn
    exact .inl (.declared hn)
  | inside hmem _ ih =>
    rw [← hu, compared_renameType, List.mem_map] at hmem
    obtain ⟨v, hv, hrenamed⟩ := hmem
    exact (ih hrenamed).imp_left (.inside hv)
  | body _ hb hn ih _ =>
    rcases ih hu with h | ⟨p, hp, h⟩
    · exact .inl (.body h hb hn)
    · exact .inr ⟨p, hp, .body h hb hn⟩

theorem compared_subset_of_mem_signatures {o : Signature} (h : o ∈ t.signatures) :
    o.compared ⊆ t.compared := by
  cases t with
  | function signature =>
    cases List.mem_singleton.1 h
    exact List.Subset.refl _
  | construct signature =>
    cases List.mem_singleton.1 h
    exact List.Subset.refl _
  | object members =>
    obtain ⟨m, hm, ho⟩ := List.mem_flatMap.1 h
    refine fun u hu ↦ List.mem_flatMap.2 ⟨m, hm, ?_⟩
    cases m with
    | method name isOptional signature => exact List.mem_singleton.1 ho ▸ hu
    | call signature => exact List.mem_singleton.1 ho ▸ hu
    | construct signature => exact List.mem_singleton.1 ho ▸ hu
    | _ => cases ho
  | _ => cases h

theorem compared_renameTypeParams (s : Signature) (targets : List TypeParam) :
    (renameTypeParams s targets).compared = s.compared.map (renameType (namesFor s targets)) := by
  simp [renameTypeParams, Signature.compared, namesFor, renameParam_eq, Function.comp_def]

theorem mem_declaredNames_of_mem_namesFor {o w : Signature} (hw : w ∈ t.signatures)
    {p : String × String} (hp : p ∈ namesFor o w.typeParams) : p.2 ∈ t.declaredNames := by
  obtain ⟨⟨old, new⟩, hpair, rfl⟩ := List.mem_map.1 hp
  exact List.mem_flatMap.2 ⟨w, hw, List.mem_map_of_mem (List.of_mem_zip hpair).2⟩

theorem LeadsTo.of_namedFor {o w : Signature} {u : TypeExpr} (ho : o ∈ s.signatures)
    (hw : w ∈ t.signatures) (hu : u ∈ (namedFor o w).compared) (h : LeadsTo aliases u n) :
    LeadsTo aliases s n ∨ LeadsTo aliases t n := by
  unfold namedFor at hu
  split at hu
  · exact .inl (.inside (compared_subset_of_mem_signatures ho hu) h)
  · rw [compared_renameTypeParams, List.mem_map] at hu
    obtain ⟨v, hv, rfl⟩ := hu
    rcases h.of_renameType with h | ⟨p, hp, h⟩
    · exact .inl (.inside (compared_subset_of_mem_signatures ho hv) h)
    · exact .inr (h.of_named (.declared (mem_declaredNames_of_mem_namesFor hw hp)))

/-- The types that do not lead to a name are enough to relate any two of them, under every table
that holds no other aliases. -/
theorem isClosed_not_leadsTo {types : OrderedMap String TypeEntry}
    (htypes : ∀ m a, types.get? m = some (.typeAlias a) → a.typeParams = [] →
      (m, a.type) ∈ aliases) : IsClosed types fun t ↦ ¬LeadsTo aliases t n where
  inside ht hu h := ht (.inside hu h)
  renamed hs ht ho hw hu h := (LeadsTo.of_namedFor ho hw hu h).elim hs ht
  body ht hb h := by
    obtain ⟨m, a, rfl, -, ha, hparams, -, rfl⟩ := expandAlias?_eq_some_iff.1 hb
    exact ht (.body (.name m []) (htypes m a ha hparams) h)

end Names

end Relation
end TypeSurface
