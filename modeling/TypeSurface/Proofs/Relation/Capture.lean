import TypeSurface.Proofs.Relation.Scope

/-!
# Renaming without capture

A renaming goes under signatures and renames whatever has one of the names, also where a type
parameter of that name is declared further inside.  As long as those have other names, what is alike
in a scope with the renamed type parameters is alike without them once it is renamed.
-/

namespace TypeSurface

namespace TypeExpr

/-- The names of the type parameters that the signatures of a type declare. -/
def declaredNames (t : TypeExpr) : List String :=
  t.signatures.flatMap fun s ↦ s.typeParams.map TypeParam.name

/-- A name that has type arguments. -/
def appliedName? : TypeExpr → Option String
  | .reference name (_ :: _) => some name
  | _ => none

def functionNames? (t : TypeExpr) : Option (List String) :=
  t.function?.map fun s ↦ s.typeParams.map TypeParam.name

end TypeExpr

namespace Relation

/-! ### Renamed types -/

section Equations

variable (names : Renaming)

theorem renameInner_eq (s : Signature) :
    renameInner names s =
      ⟨s.typeParams, s.params.map (renameParam names), renameType names s.result⟩ := by
  cases s
  rw [renameInner]

theorem renameElement_eq (e : TupleElement) :
    renameElement names e = ⟨renameType names e.type, e.isOptional, e.isRest⟩ := by
  cases e
  rw [renameElement]

theorem renameType_reference_cons (name : String) (arg : TypeExpr) (args : List TypeExpr) :
    renameType names (.reference name (arg :: args)) =
      .reference name ((arg :: args).map (renameType names)) := by
  rw [renameType, List.map_cons]

theorem signatures_renameMember (m : MemberForm) :
    (renameMember names m).signatures = m.signatures.map (renameInner names) := by
  cases m <;> simp [renameMember, MemberForm.signatures]

theorem signatures_renameType (t : TypeExpr) :
    (renameType names t).signatures = t.signatures.map (renameInner names) := by
  cases t with
  | reference name args => cases args <;> simp [renameType, TypeExpr.signatures]
  | object members =>
    simp only [renameType, TypeExpr.signatures, List.flatMap_map, List.map_flatMap,
      signatures_renameMember]
  | _ => simp [renameType, TypeExpr.signatures]

theorem map_typeParams_signatures_renameType (t : TypeExpr) :
    (renameType names t).signatures.map Signature.typeParams =
      t.signatures.map Signature.typeParams := by
  rw [signatures_renameType, List.map_map]
  exact List.map_congr_left fun s _ ↦ by rw [Function.comp, renameInner_eq]

theorem declaredNames_eq (t : TypeExpr) : t.declaredNames =
    (t.signatures.map Signature.typeParams).flatMap fun ps ↦ ps.map TypeParam.name := by
  rw [TypeExpr.declaredNames, List.flatMap_map]

theorem declaredNames_renameType (t : TypeExpr) :
    (renameType names t).declaredNames = t.declaredNames := by
  rw [declaredNames_eq, declaredNames_eq, map_typeParams_signatures_renameType]

theorem appliedName?_renameType (t : TypeExpr) :
    (renameType names t).appliedName? = t.appliedName? := by
  cases t with
  | reference name args => cases args <;> simp [renameType, TypeExpr.appliedName?]
  | _ => simp [renameType, TypeExpr.appliedName?]

theorem functionNames?_renameType (t : TypeExpr) :
    (renameType names t).functionNames? = t.functionNames? := by
  cases t with
  | reference name args =>
    cases args <;> simp [renameType, TypeExpr.functionNames?, TypeExpr.function?]
  | _ => simp [renameType, TypeExpr.functionNames?, TypeExpr.function?, renameInner_eq]

theorem indexKeys_renameType (t : TypeExpr) :
    (renameType names t).indexKeys = t.indexKeys.map (renameType names) := by
  cases t with
  | reference name args => cases args <;> simp [renameType, TypeExpr.indexKeys]
  | object members =>
    simp only [renameType, TypeExpr.indexKeys, List.flatMap_map, List.map_flatMap]
    refine List.flatMap_congr fun m _ ↦ ?_
    cases m <;> simp [renameMember, MemberForm.indexKeys]
  | _ => simp [renameType, TypeExpr.indexKeys]

end Equations

/-! ### Names -/

theorem Renaming.apply_cases (names : Renaming) (a : String) :
    names.apply a = a ∨ (a, names.apply a) ∈ names ∧ a ≠ names.apply a := by
  by_cases hkept : names.apply a = a
  · exact .inl hkept
  refine .inr ⟨?_, fun h ↦ hkept h.symm⟩
  unfold Renaming.apply at hkept ⊢
  cases hfind : names.reverse.find? (·.1 == a) with
  | none =>
    rw [hfind] at hkept
    exact absurd rfl hkept
  | some p =>
    have hkey : p.1 = a := by simpa using List.find?_some hfind
    rw [← hkey]
    exact List.mem_reverse.1 (List.mem_of_find?_eq_some hfind)

namespace Scope

/-- None of the names is one that is renamed or that takes the place of another. -/
def Avoids (scope : Scope) (names : Renaming) : Prop :=
  ∀ r ∈ scope, ∀ p ∈ names, p.1 ≠ p.2 → (r.1 ≠ p.1 ∧ r.1 ≠ p.2) ∧ r.2 ≠ p.1 ∧ r.2 ≠ p.2

variable {scope outer : Scope} {names : Renaming} {a b : String}

theorem avoids_nil (names : Renaming) : Avoids [] names := fun _ h ↦ absurd h List.not_mem_nil

theorem links_reverse (houter : outer.IsPlain) (h : Links (names.reverse ++ outer) a b) :
    names.apply a = b := by
  unfold Renaming.apply
  generalize names.reverse = l at h ⊢
  induction l with
  | nil => exact houter.links_iff.1 h
  | cons p l ih =>
    rcases h with ⟨ha, hb⟩ | ⟨ha, -, h⟩
    · rw [List.find?_cons_of_pos (by simpa using ha.symm)]
      exact hb.symm
    · rw [List.find?_cons_of_neg (by simpa using Ne.symm ha)]
      exact ih h

/-- What is linked by renamed names and by names that avoid them is linked by the latter after the
renaming. -/
theorem links_apply (houter : outer.IsPlain) (havoids : scope.Avoids names)
    (h : Links (scope ++ (names.reverse ++ outer)) a b) :
    Links (scope ++ outer) (names.apply a) b := by
  induction scope with
  | nil => exact houter.links_iff.2 (links_reverse houter h)
  | cons r scope ih =>
    obtain ⟨hr, hrest⟩ := List.forall_mem_cons.1 havoids
    rcases h with ⟨ha, hb⟩ | ⟨ha, hb, h⟩
    · rcases names.apply_cases a with hkept | ⟨hmem, hne⟩
      · exact .inl ⟨hkept.trans ha, hb⟩
      · exact absurd ha.symm (hr _ hmem hne).1.1
    · refine .inr ⟨?_, hb, ih hrest h⟩
      rcases names.apply_cases a with hkept | ⟨hmem, hne⟩
      · rwa [hkept]
      · exact Ne.symm (hr _ hmem hne).1.2

theorem links_self (houter : outer.IsPlain)
    (h : Links (scope ++ (names.reverse ++ outer)) a a) : Links (scope ++ outer) a a := by
  induction scope with
  | nil => exact houter.links_iff.2 rfl
  | cons r scope ih => exact h.imp_right fun ⟨ha, hb, h⟩ ↦ ⟨ha, hb, ih h⟩

end Scope

/-! ### Renaming one side -/

section Rename

variable {names : Renaming} {R S : TypeExpr → TypeExpr → Prop}

theorem forall₂_map_left {α β γ : Type} {R : α → β → Prop} {S : γ → β → Prop} {f : α → γ}
    {l : List α} {l' : List β} (h : List.Forall₂ R l l') (hRS : ∀ a b, R a b → S (f a) b) :
    List.Forall₂ S (l.map f) l' :=
  List.forall₂_map_left_iff.2 (h.imp hRS)

theorem paramMatches_rename {ps qs : List Param} (h : List.Forall₂ (ParamMatches R) ps qs)
    (hRS : ∀ u v, R u v → S (renameType names u) v) :
    List.Forall₂ (ParamMatches S) (ps.map (renameParam names)) qs :=
  forall₂_map_left h fun p q hpq ↦ by
    rw [renameParam_eq]
    exact ⟨hpq.name, hRS _ _ hpq.type, hpq.isOptional, hpq.isRest⟩

theorem SignatureMatches.rename {a b : Signature} (h : SignatureMatches R a b)
    (hRS : ∀ u v, R u v → S (renameType names u) v) :
    SignatureMatches S (renameInner names a) b := by
  rw [renameInner_eq]
  exact ⟨h.typeParams, paramMatches_rename h.params hRS, hRS _ _ h.result⟩

theorem FormMatches.rename {M N : Signature → Signature → Prop} {m n : MemberForm}
    (h : FormMatches R M m n) (hRS : ∀ u v, R u v → S (renameType names u) v)
    (hMN : ∀ a ∈ m.signatures, ∀ b ∈ n.signatures, M a b → N (renameInner names a) b) :
    FormMatches S N (renameMember names m) n := by
  cases h with
  | property name isReadonly isOptional h =>
    rw [renameMember]
    exact .property _ _ _ (hRS _ _ h)
  | method name isOptional h =>
    rw [renameMember]
    exact .method _ _ (hMN _ (List.mem_singleton_self _) _ (List.mem_singleton_self _) h)
  | index isReadonly keyName hkey h =>
    rw [renameMember]
    exact .index _ _ (hRS _ _ hkey) (hRS _ _ h)
  | call h =>
    rw [renameMember]
    exact .call (hMN _ (List.mem_singleton_self _) _ (List.mem_singleton_self _) h)
  | construct h =>
    rw [renameMember]
    exact .construct (hMN _ (List.mem_singleton_self _) _ (List.mem_singleton_self _) h)

theorem Correspondence.Matches.rename {c d : Correspondence} {u v : TypeExpr}
    (h : c.Matches u v) (happlied : u.appliedName? = v.appliedName?)
    (hnames : ∀ a b, c.names a b → d.names (names.apply a) b)
    (hsame : ∀ a, c.names a a → d.names a a)
    (htypes : ∀ u v, c.types u v → d.types (renameType names u) v)
    (hfunctions : ∀ a ∈ u.signatures, ∀ b ∈ v.signatures,
      c.functions a b → d.functions (renameInner names a) b)
    (hmethods : ∀ a ∈ u.signatures, ∀ b ∈ v.signatures,
      c.methods a b → d.methods (renameInner names a) b) :
    d.Matches (renameType names u) v := by
  cases h with
  | keyword word =>
    rw [renameType]
    exact .keyword word
  | literal value =>
    rw [renameType]
    exact .literal value
  | @reference m n as bs hname h =>
    cases h with
    | nil =>
      rw [renameType]
      exact .reference (hnames _ _ hname) .nil
    | cons hab hrest =>
      cases happlied
      rw [renameType_reference_cons]
      exact .reference (hsame _ hname) (forall₂_map_left (.cons hab hrest) htypes)
  | array h =>
    rw [renameType]
    exact .array (htypes _ _ h)
  | tuple h =>
    rw [renameType]
    refine .tuple (forall₂_map_left h fun d e hde ↦ ?_)
    rw [renameElement_eq]
    exact ⟨htypes _ _ hde.type, hde.isOptional, hde.isRest⟩
  | union h =>
    rw [renameType]
    exact .union (forall₂_map_left h htypes)
  | intersection h =>
    rw [renameType]
    exact .intersection (forall₂_map_left h htypes)
  | function h =>
    rw [renameType]
    exact .function (hfunctions _ (List.mem_singleton_self _) _ (List.mem_singleton_self _) h)
  | construct h =>
    rw [renameType]
    exact .construct (hfunctions _ (List.mem_singleton_self _) _ (List.mem_singleton_self _) h)
  | object h =>
    rw [renameType]
    refine .object (List.forall₂_map_left_iff.2 (forall₂_imp_of_mem h fun m hm n hn hmn ↦ ?_))
    exact hmn.rename htypes fun a ha b hb ↦
      hmethods a (List.mem_flatMap.2 ⟨m, hm, ha⟩) b (List.mem_flatMap.2 ⟨n, hn, hb⟩)
  | keyOf h =>
    rw [renameType]
    exact .keyOf (htypes _ _ h)
  | readonly h =>
    rw [renameType]
    exact .readonly (htypes _ _ h)
  | predicate parameter h =>
    rw [renameType]
    exact .predicate parameter (htypes _ _ h)

end Rename

/-! ### Alike types -/

/-- Nothing is captured between two types: the type parameters that they declare have other names
than those around that go by two names, and a name with type arguments is the same on both sides. -/
structure IsApart (scope : Scope) (s t : TypeExpr) : Prop where
  applied : s.appliedName? = t.appliedName?
  declared : ∀ name ∈ s.declaredNames ++ t.declaredNames, ∀ p ∈ scope, p.1 ≠ p.2 →
    name ≠ p.1 ∧ name ≠ p.2

section Alike

variable {P : Scope → TypeExpr → TypeExpr → Prop} {names : Renaming} {scope outer : Scope} {n : Nat}
  {s t : TypeExpr}

theorem IsApart.swap (h : IsApart scope s t) : IsApart (scope.map Prod.swap) t s where
  applied := h.applied.symm
  declared name hname p hp hne := by
    obtain ⟨q, hq, rfl⟩ := List.mem_map.1 hp
    rw [List.mem_append, or_comm, ← List.mem_append] at hname
    exact (h.declared name hname q hq (Ne.symm hne)).symm

theorem IsApart.rename (h : IsApart (scope ++ (names.reverse ++ outer)) s t) :
    IsApart (scope ++ outer) (renameType names s) t where
  applied := by rw [appliedName?_renameType, h.applied]
  declared name hname p hp := by
    rw [declaredNames_renameType] at hname
    refine h.declared name hname p ?_
    simp only [List.mem_append] at hp ⊢
    exact hp.imp_right .inr

theorem mem_declaredNames {a : Signature} {p : TypeParam} (ha : a ∈ t.signatures)
    (hp : p ∈ a.typeParams) : p.name ∈ t.declaredNames :=
  List.mem_flatMap.2 ⟨a, ha, List.mem_map_of_mem hp⟩

theorem IsApart.avoids_enter (h : IsApart (scope ++ (names.reverse ++ outer)) s t)
    (havoids : scope.Avoids names) {a b : Signature} (ha : a ∈ s.signatures)
    (hb : b ∈ t.signatures) : (scope.enter a b).Avoids names := by
  intro r hr p hp hne
  have hscope : p ∈ scope ++ (names.reverse ++ outer) := by
    simp only [List.mem_append, List.mem_reverse]
    exact .inr (.inl hp)
  rcases List.mem_append.1 hr with hr | hr
  · obtain ⟨⟨q, q'⟩, hq, rfl⟩ := List.mem_map.1 (List.mem_reverse.1 hr)
    obtain ⟨hq, hq'⟩ := List.of_mem_zip hq
    exact ⟨h.declared _ (List.mem_append_left _ (mem_declaredNames ha hq)) p hscope hne,
      h.declared _ (List.mem_append_right _ (mem_declaredNames hb hq')) p hscope hne⟩
  · exact havoids r hr p hp hne

theorem AlikeWithin.rename (houter : outer.IsPlain) (havoids : scope.Avoids names)
    (hapart : ∀ scope s t, P scope s t → IsApart scope s t)
    (hP : ∀ (scope : Scope) s t, scope.Avoids names → P (scope ++ (names.reverse ++ outer)) s t →
      P (scope ++ outer) (renameType names s) t)
    (h : AlikeWithin P n (scope ++ (names.reverse ++ outer)) s t) :
    AlikeWithin P n (scope ++ outer) (renameType names s) t := by
  induction n generalizing scope s t with
  | zero => exact h.elim
  | succ n ih =>
    have hhere := hapart _ _ _ h.1
    have hsignature (a : Signature) (ha : a ∈ s.signatures) (b : Signature) (hb : b ∈ t.signatures)
        (hab : SignatureMatches
          (AlikeWithin P n (Scope.enter (scope ++ (names.reverse ++ outer)) a b)) a b) :
        SignatureMatches (AlikeWithin P n (Scope.enter (scope ++ outer) (renameInner names a) b))
          (renameInner names a) b := by
      have henter (around : Scope) : Scope.enter (scope ++ around) a b =
          scope.enter a b ++ around := (List.append_assoc _ _ _).symm
      have hnames : Scope.enter (scope ++ outer) (renameInner names a) b =
          scope.enter a b ++ outer := by
        rw [← henter, renameInner_eq]
        rfl
      rw [henter] at hab
      rw [hnames]
      -- What the two signatures declare avoids the renaming, so it joins the scope in front.
      exact hab.rename fun _ _ ↦ ih (hhere.avoids_enter havoids ha hb)
    exact ⟨hP _ _ _ havoids h.1, h.2.rename hhere.applied
      (fun _ _ ↦ Scope.links_apply houter havoids) (fun _ ↦ Scope.links_self houter)
      (fun _ _ ↦ ih havoids) hsignature hsignature⟩

end Alike

end Relation
end TypeSurface
