import Mathlib.Data.List.Forall2
import TypeSurface.Proofs.Relation.Levels

/-!
# Types of one form

Two types match if they are made in the same way of parts that correspond.  What the parts are
compared by is left open: a relation on the types inside, which may know in whose scope they stand,
and relations on the signatures of functions and of methods, which bind type parameters.
-/

namespace TypeSurface
namespace Relation

section Lists

variable {α β : Type} {R S : α → β → Prop} {l : List α} {l' : List β}

theorem forall₂_imp_of_mem (h : List.Forall₂ R l l')
    (hRS : ∀ a ∈ l, ∀ b ∈ l', R a b → S a b) : List.Forall₂ S l l' := by
  induction h with
  | nil => exact .nil
  | cons hab _ ih =>
    exact .cons (hRS _ List.mem_cons_self _ List.mem_cons_self hab)
      (ih fun a ha b hb ↦ hRS a (List.mem_cons_of_mem _ ha) b (List.mem_cons_of_mem _ hb))

theorem exists_mem_right (h : List.Forall₂ R l l') {a : α} (ha : a ∈ l) : ∃ b ∈ l', R a b := by
  induction h with
  | nil => cases ha
  | cons hab _ ih =>
    rcases List.mem_cons.1 ha with rfl | ha
    · exact ⟨_, List.mem_cons_self, hab⟩
    · obtain ⟨b, hb, hR⟩ := ih ha
      exact ⟨b, List.mem_cons_of_mem _ hb, hR⟩

theorem exists_mem_left (h : List.Forall₂ R l l') {b : β} (hb : b ∈ l') : ∃ a ∈ l, R a b :=
  exists_mem_right (List.Forall₂.flip h) hb

theorem forall₂_swap {T : β → α → Prop} (h : List.Forall₂ R l l') (hRT : ∀ a b, R a b → T b a) :
    List.Forall₂ T l' l :=
  (h.imp hRT).flip

theorem forall₂_map {γ δ : Type} {T : γ → δ → Prop} {f : α → γ} {g : β → δ}
    (h : List.Forall₂ R l l') (hRT : ∀ a b, R a b → T (f a) (g b)) :
    List.Forall₂ T (l.map f) (l'.map g) :=
  List.forall₂_map_left_iff.2 (List.forall₂_map_right_iff.2 (h.imp hRT))

theorem forall₂_flatMap {γ δ : Type} {T : γ → δ → Prop} {f : α → List γ} {g : β → List δ}
    (h : List.Forall₂ R l l') (hRT : ∀ a b, R a b → List.Forall₂ T (f a) (g b)) :
    List.Forall₂ T (l.flatMap f) (l'.flatMap g) := by
  induction h with
  | nil => exact .nil
  | cons hab _ ih => exact List.rel_append (hRT _ _ hab) ih

theorem map_eq_of_forall₂ {γ : Type} {f : α → γ} {g : β → γ}
    (h : List.Forall₂ (fun a b ↦ f a = g b) l l') : l.map f = l'.map g := by
  have hmap : List.Forall₂ Eq (l.map f) (l'.map g) := forall₂_map h fun _ _ ↦ id
  rwa [List.forall₂_eq_eq_eq] at hmap

end Lists

/-! ### Signatures and members -/

section Parts

variable (R : TypeExpr → TypeExpr → Prop)

structure ParamMatches (p q : Param) : Prop where
  name : p.name = q.name
  type : R p.type q.type
  isOptional : p.isOptional = q.isOptional
  isRest : p.isRest = q.isRest

structure ElementMatches (d e : TupleElement) : Prop where
  type : R d.type e.type
  isOptional : d.isOptional = e.isOptional
  isRest : d.isRest = e.isRest

/-- Two signatures have as many type parameters and otherwise match; the bounds and defaults of type
parameters may be any. -/
structure SignatureMatches (s t : Signature) : Prop where
  typeParams : s.typeParams.length = t.typeParams.length
  params : List.Forall₂ (ParamMatches R) s.params t.params
  result : R s.result t.result

variable (methods : Signature → Signature → Prop)

inductive FormMatches : MemberForm → MemberForm → Prop
  | property (name : PropertyName) (isReadonly isOptional : Bool) {s t : TypeExpr} (h : R s t) :
    FormMatches (.property name isReadonly isOptional s) (.property name isReadonly isOptional t)
  | method (name : PropertyName) (isOptional : Bool) {s t : Signature} (h : methods s t) :
    FormMatches (.method name isOptional s) (.method name isOptional t)
  | index (isReadonly : Bool) (keyName : String) {k l s t : TypeExpr} (hkey : R k l) (h : R s t) :
    FormMatches (.index isReadonly keyName k s) (.index isReadonly keyName l t)
  | call {s t : Signature} (h : methods s t) : FormMatches (.call s) (.call t)
  | construct {s t : Signature} (h : methods s t) : FormMatches (.construct s) (.construct t)

end Parts

/-- What the parts of two types are compared by. -/
structure Correspondence where
  names : String → String → Prop
  types : TypeExpr → TypeExpr → Prop
  functions : Signature → Signature → Prop
  methods : Signature → Signature → Prop

namespace Correspondence

inductive Matches (c : Correspondence) : TypeExpr → TypeExpr → Prop
  | keyword (word : Keyword) : c.Matches (.keyword word) (.keyword word)
  | literal (value : Literal) : c.Matches (.literal value) (.literal value)
  | reference {m n : String} {as bs : List TypeExpr} (hname : c.names m n)
    (h : List.Forall₂ c.types as bs) : c.Matches (.reference m as) (.reference n bs)
  | array {s t : TypeExpr} (h : c.types s t) : c.Matches (.array s) (.array t)
  | tuple {ds es : List TupleElement} (h : List.Forall₂ (ElementMatches c.types) ds es) :
    c.Matches (.tuple ds) (.tuple es)
  | union {ss ts : List TypeExpr} (h : List.Forall₂ c.types ss ts) :
    c.Matches (.union ss) (.union ts)
  | intersection {ss ts : List TypeExpr} (h : List.Forall₂ c.types ss ts) :
    c.Matches (.intersection ss) (.intersection ts)
  | function {s t : Signature} (h : c.functions s t) : c.Matches (.function s) (.function t)
  | construct {s t : Signature} (h : c.functions s t) : c.Matches (.construct s) (.construct t)
  | object {ms ns : List MemberForm} (h : List.Forall₂ (FormMatches c.types c.methods) ms ns) :
    c.Matches (.object ms) (.object ns)
  | keyOf {s t : TypeExpr} (h : c.types s t) : c.Matches (.keyOf s) (.keyOf t)
  | readonly {s t : TypeExpr} (h : c.types s t) : c.Matches (.readonly s) (.readonly t)
  | predicate (parameter : String) {s t : TypeExpr} (h : c.types s t) :
    c.Matches (.predicate parameter s) (.predicate parameter t)

end Correspondence

/-! ### Matching by another correspondence -/

section Imp

variable {R S : TypeExpr → TypeExpr → Prop} {M N : Signature → Signature → Prop}

theorem SignatureMatches.imp {s t : Signature} (h : SignatureMatches R s t)
    (hRS : ∀ u v, v ∈ t.compared → R u v → S u v) : SignatureMatches S s t where
  typeParams := h.typeParams
  params := forall₂_imp_of_mem h.params fun _ _ _ hq hpq ↦
    { hpq with type := hRS _ _ (List.mem_append_left _ (List.mem_map_of_mem hq)) hpq.type }
  result := hRS _ _ (List.mem_append_right _ (List.mem_singleton_self _)) h.result

theorem FormMatches.imp {m n : MemberForm} (h : FormMatches R M m n)
    (hRS : ∀ u v, v ∈ n.compared → R u v → S u v)
    (hMN : ∀ s t, t.compared ⊆ n.compared → M s t → N s t) : FormMatches S N m n := by
  cases h with
  | property name isReadonly isOptional h =>
    exact .property _ _ _ (hRS _ _ (List.mem_singleton_self _) h)
  | method name isOptional h => exact .method _ _ (hMN _ _ (List.Subset.refl _) h)
  | index isReadonly keyName hkey h =>
    exact .index _ _ (hRS _ _ List.mem_cons_self hkey)
      (hRS _ _ (List.mem_cons_of_mem _ (List.mem_singleton_self _)) h)
  | call h => exact .call (hMN _ _ (List.Subset.refl _) h)
  | construct h => exact .construct (hMN _ _ (List.Subset.refl _) h)

theorem Correspondence.Matches.imp {c d : Correspondence} {s t : TypeExpr} (h : c.Matches s t)
    (hnames : ∀ m n, c.names m n → d.names m n)
    (htypes : ∀ u v, v ∈ t.compared → c.types u v → d.types u v)
    (hfunctions : ∀ a ∈ s.function?, ∀ b ∈ t.function?, c.functions a b → d.functions a b)
    (hmethods : ∀ a b, b.compared ⊆ t.compared → c.methods a b → d.methods a b) :
    d.Matches s t := by
  cases h with
  | keyword word => exact .keyword word
  | literal value => exact .literal value
  | reference hname h =>
    exact .reference (hnames _ _ hname) (forall₂_imp_of_mem h fun u _ v ↦ htypes u v)
  | array h => exact .array (htypes _ _ (List.mem_singleton_self _) h)
  | tuple h =>
    exact .tuple (forall₂_imp_of_mem h fun _ _ _ he hde ↦
      { hde with type := htypes _ _ (List.mem_map_of_mem he) hde.type })
  | union h => exact .union (forall₂_imp_of_mem h fun u _ v ↦ htypes u v)
  | intersection h => exact .intersection (forall₂_imp_of_mem h fun u _ v ↦ htypes u v)
  | function h => exact .function (hfunctions _ rfl _ rfl h)
  | construct h => exact .construct (hfunctions _ rfl _ rfl h)
  | object h =>
    refine .object (forall₂_imp_of_mem h fun m _ n hn hmn ↦ ?_)
    have hsub : n.compared ⊆ TypeExpr.compared (.object _) :=
      fun u hu ↦ List.mem_flatMap.2 ⟨n, hn, hu⟩
    exact hmn.imp (fun u v hv ↦ htypes u v (hsub hv))
      fun a b hb ↦ hmethods a b (List.Subset.trans hb hsub)
  | keyOf h => exact .keyOf (htypes _ _ (List.mem_singleton_self _) h)
  | readonly h => exact .readonly (htypes _ _ (List.mem_singleton_self _) h)
  | predicate parameter h => exact .predicate parameter (htypes _ _ (List.mem_singleton_self _) h)

end Imp

/-! ### Matching the other way around -/

section Swap

variable {R S : TypeExpr → TypeExpr → Prop} {M N : Signature → Signature → Prop}

theorem SignatureMatches.swap {s t : Signature} (h : SignatureMatches R s t)
    (hRS : ∀ u v, R u v → S v u) : SignatureMatches S t s where
  typeParams := h.typeParams.symm
  params := forall₂_swap h.params fun _ _ hpq ↦
    ⟨hpq.name.symm, hRS _ _ hpq.type, hpq.isOptional.symm, hpq.isRest.symm⟩
  result := hRS _ _ h.result

theorem FormMatches.swap {m n : MemberForm} (h : FormMatches R M m n)
    (hRS : ∀ u v, R u v → S v u) (hMN : ∀ s t, M s t → N t s) : FormMatches S N n m := by
  cases h with
  | property name isReadonly isOptional h => exact .property _ _ _ (hRS _ _ h)
  | method name isOptional h => exact .method _ _ (hMN _ _ h)
  | index isReadonly keyName hkey h => exact .index _ _ (hRS _ _ hkey) (hRS _ _ h)
  | call h => exact .call (hMN _ _ h)
  | construct h => exact .construct (hMN _ _ h)

theorem Correspondence.Matches.swap {c d : Correspondence} {s t : TypeExpr} (h : c.Matches s t)
    (hnames : ∀ m n, c.names m n → d.names n m) (htypes : ∀ u v, c.types u v → d.types v u)
    (hfunctions : ∀ a b, c.functions a b → d.functions b a)
    (hmethods : ∀ a b, c.methods a b → d.methods b a) : d.Matches t s := by
  cases h with
  | keyword word => exact .keyword word
  | literal value => exact .literal value
  | reference hname h => exact .reference (hnames _ _ hname) (forall₂_swap h htypes)
  | array h => exact .array (htypes _ _ h)
  | tuple h =>
    exact .tuple (forall₂_swap h fun _ _ hde ↦
      ⟨htypes _ _ hde.type, hde.isOptional.symm, hde.isRest.symm⟩)
  | union h => exact .union (forall₂_swap h htypes)
  | intersection h => exact .intersection (forall₂_swap h htypes)
  | function h => exact .function (hfunctions _ _ h)
  | construct h => exact .construct (hfunctions _ _ h)
  | object h => exact .object (forall₂_swap h fun _ _ hmn ↦ hmn.swap htypes hmethods)
  | keyOf h => exact .keyOf (htypes _ _ h)
  | readonly h => exact .readonly (htypes _ _ h)
  | predicate parameter h => exact .predicate parameter (htypes _ _ h)

end Swap

/-! ### The types inside -/

section Compared

variable {R : TypeExpr → TypeExpr → Prop} {Q : TypeExpr → TypeExpr → Prop}

theorem SignatureMatches.compared {s t : Signature} (h : SignatureMatches R s t) :
    List.Forall₂ R s.compared t.compared :=
  List.rel_append (forall₂_map h.params fun _ _ hpq ↦ hpq.type) (.cons h.result .nil)

/-- Types that match are made of types that correspond, one by one. -/
theorem Correspondence.Matches.compared {c : Correspondence} {s t : TypeExpr} (h : c.Matches s t)
    (htypes : ∀ u v, c.types u v → Q u v)
    (hfunctions : ∀ a b, c.functions a b → SignatureMatches Q a b)
    (hmethods : ∀ a b, c.methods a b → SignatureMatches Q a b) :
    List.Forall₂ Q s.compared t.compared := by
  have hone {u v : TypeExpr} (huv : c.types u v) : List.Forall₂ Q [u] [v] :=
    .cons (htypes u v huv) .nil
  cases h with
  | keyword word => exact .nil
  | literal value => exact .nil
  | reference hname h => exact h.imp htypes
  | array h => exact hone h
  | tuple h => exact forall₂_map h fun _ _ hde ↦ htypes _ _ hde.type
  | union h => exact h.imp htypes
  | intersection h => exact h.imp htypes
  | function h => exact (hfunctions _ _ h).compared
  | construct h => exact (hfunctions _ _ h).compared
  | object h =>
    refine forall₂_flatMap h fun m n hmn ↦ ?_
    cases hmn with
    | property name isReadonly isOptional h => exact hone h
    | method name isOptional h => exact (hmethods _ _ h).compared
    | index isReadonly keyName hkey h => exact .cons (htypes _ _ hkey) (hone h)
    | call h => exact (hmethods _ _ h).compared
    | construct h => exact (hmethods _ _ h).compared
  | keyOf h => exact hone h
  | readonly h => exact hone h
  | predicate parameter h => exact hone h

theorem Correspondence.Matches.levelStep_eq {c : Correspondence} {s t : TypeExpr}
    (h : c.Matches s t) : s.levelStep = t.levelStep := by
  cases h <;> rfl

theorem height_eq_of_forall₂ {step : TypeExpr → Nat} {s t : TypeExpr} (hstep : step s = step t)
    (h : List.Forall₂ (fun u v ↦ u.height step = v.height step) s.compared t.compared) :
    s.height step = t.height step := by
  rw [TypeExpr.height_eq, TypeExpr.height_eq, hstep]
  exact congrArg greatest (map_eq_of_forall₂ (h.imp fun u v huv ↦ by rw [huv]))

end Compared

end Relation
end TypeSurface
