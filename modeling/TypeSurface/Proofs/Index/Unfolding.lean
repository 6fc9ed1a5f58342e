import Mathlib.Data.List.Chain
import TypeSurface.Index.Audit
import TypeSurface.Proofs.Merge.OrderedMaps
import TypeSurface.Proofs.Relation.Numbers

/-!
# Aliases written out

Where a type names an alias, the body of the alias may be written instead.  The audit opens a type
for a number of levels, an alias to its body and a union to its members, and what it comes to is the
same for a type and for what the type is written out to, as long as the levels last.
-/

namespace TypeSurface
namespace Index

open TypeSurface.Relation

variable {types types' : OrderedMap String TypeEntry} {t u : TypeExpr} {n : Nat}

/-! ### Chains -/

/-- What the audit goes on with: the body of an alias, the members of a union. -/
def opened (types : OrderedMap String TypeEntry) (t : TypeExpr) : List TypeExpr :=
  match expandAlias? types t with
  | some body => [body]
  | none =>
    match t with
    | .union members => members
    | _ => []

/-- Opened again and again, the type ends after fewer than `n` steps. -/
def EndsWithin (types : OrderedMap String TypeEntry) (n : Nat) (t : TypeExpr) : Prop :=
  ∀ ts : List TypeExpr, (t :: ts).IsChain (fun u v ↦ v ∈ opened types u) → ts.length < n

theorem not_endsWithin_zero : ¬EndsWithin types 0 t :=
  fun h ↦ absurd (h [] (List.isChain_singleton t)) (Nat.not_lt_zero _)

theorem endsWithin_succ_iff :
    EndsWithin types (n + 1) t ↔ ∀ u ∈ opened types t, EndsWithin types n u := by
  constructor
  · intro h u hu us hchain
    exact Nat.lt_of_succ_lt_succ (h (u :: us) (hchain.cons_cons hu))
  · intro h ts hchain
    cases ts with
    | nil => exact Nat.succ_pos n
    | cons u us =>
      rw [List.isChain_cons_cons] at hchain
      exact Nat.succ_lt_succ (h u hchain.1 us hchain.2)

instance decidableEndsWithin (types : OrderedMap String TypeEntry) :
    (n : Nat) → DecidablePred (EndsWithin types n)
  | 0 => fun _ ↦ isFalse not_endsWithin_zero
  | n + 1 => fun _ ↦
    have := decidableEndsWithin types n
    decidable_of_iff _ endsWithin_succ_iff.symm

theorem EndsWithin.aliasBody {body : TypeExpr} (h : EndsWithin types (n + 1) t)
    (hbody : expandAlias? types t = some body) : EndsWithin types n body := by
  apply endsWithin_succ_iff.1 h
  simp [opened, hbody]

theorem EndsWithin.member {members : List TypeExpr} (h : EndsWithin types (n + 1) (.union members))
    (hu : u ∈ members) : EndsWithin types n u := by
  apply endsWithin_succ_iff.1 h
  simpa [opened, expandAlias?] using hu

theorem EndsWithin.succ (h : EndsWithin types n t) : EndsWithin types (n + 1) t :=
  fun ts hchain ↦ Nat.lt_succ_of_lt (h ts hchain)

/-- The levels of the audit suffice for the type. -/
def IsShort (types : OrderedMap String TypeEntry) (t : TypeExpr) : Prop :=
  EndsWithin types maxRelationDepth t

instance (types : OrderedMap String TypeEntry) : DecidablePred (IsShort types) :=
  decidableEndsWithin types maxRelationDepth

/-! ### Types -/

/-- The second type is the first one with aliases written out at any number of places, in fewer than
a number of levels of steps and of nesting. -/
def UnfoldsWithin (types : OrderedMap String TypeEntry) : Nat → TypeExpr → TypeExpr → Prop
  | 0, _, _ => False
  | n + 1, t, u =>
    (∃ body, expandAlias? types t = some body ∧ UnfoldsWithin types n body u) ∨
      (sameNames (UnfoldsWithin types n)).Matches t u

def Unfolds (types : OrderedMap String TypeEntry) (t u : TypeExpr) : Prop :=
  ∃ n, UnfoldsWithin types n t u

theorem matches_refl {R : TypeExpr → TypeExpr → Prop} (h : ∀ u ∈ t.compared, R u u) :
    (sameNames R).Matches t t := by
  have hlist {ts : List TypeExpr} (hts : ts ⊆ t.compared) : List.Forall₂ R ts ts :=
    List.forall₂_same.2 fun u hu ↦ h u (hts hu)
  have hsignature {s : Signature} (hs : s.compared ⊆ t.compared) : NamesMatch R s s := by
    refine ⟨rfl, rfl, List.forall₂_same.2 fun p hp ↦ ⟨rfl, h _ (hs ?_), rfl, rfl⟩, h _ (hs ?_)⟩
    · exact List.mem_append_left _ (List.mem_map_of_mem hp)
    · exact List.mem_append_right _ (List.mem_singleton_self _)
  cases t with
  | keyword word => exact .keyword word
  | literal value => exact .literal value
  | reference name args => exact .reference rfl (hlist (List.Subset.refl _))
  | array element => exact .array (h _ (List.mem_singleton_self _))
  | tuple elements =>
    refine .tuple (List.forall₂_same.2 fun e he ↦ ⟨h _ ?_, rfl, rfl⟩)
    exact List.mem_map_of_mem he
  | union members => exact .union (hlist (List.Subset.refl _))
  | intersection members => exact .intersection (hlist (List.Subset.refl _))
  | function signature => exact .function (hsignature (List.Subset.refl _))
  | construct signature => exact .construct (hsignature (List.Subset.refl _))
  | object members =>
    refine .object (List.forall₂_same.2 fun m hm ↦ ?_)
    have hsub : m.compared ⊆ (TypeExpr.object members).compared :=
      fun u hu ↦ List.mem_flatMap.2 ⟨m, hm, hu⟩
    cases m with
    | property name isReadonly isOptional type =>
      exact .property _ _ _ (h _ (hsub (List.mem_singleton_self _)))
    | method name isOptional signature => exact .method _ _ (hsignature hsub)
    | index isReadonly keyName keyType type =>
      refine .index _ _ (h _ (hsub List.mem_cons_self)) (h _ (hsub ?_))
      exact List.mem_cons_of_mem _ (List.mem_singleton_self _)
    | call signature => exact .call (hsignature hsub)
    | construct signature => exact .construct (hsignature hsub)
  | keyOf operand => exact .keyOf (h _ (List.mem_singleton_self _))
  | readonly operand => exact .readonly (h _ (List.mem_singleton_self _))
  | predicate parameter type => exact .predicate _ (h _ (List.mem_singleton_self _))

theorem unfoldsWithin_self (h : t.nesting < n) : UnfoldsWithin types n t t := by
  induction n generalizing t with
  | zero => exact absurd h (Nat.not_lt_zero _)
  | succ n ih =>
    refine .inr (matches_refl fun u hu ↦ ih ?_)
    have hinside : u.nesting + 1 ≤ t.nesting := TypeExpr.height_inside hu
    omega

theorem Unfolds.refl (t : TypeExpr) : Unfolds types t t :=
  ⟨t.nesting + 1, unfoldsWithin_self (Nat.lt_succ_self _)⟩

theorem Unfolds.of_expandAlias? {body : TypeExpr} (h : expandAlias? types t = some body)
    (hbody : Unfolds types body u) : Unfolds types t u := by
  obtain ⟨n, hbody⟩ := hbody
  exact ⟨n + 1, .inl ⟨body, h, hbody⟩⟩

/-- An alias is written out to what its body is written out to, or the two types are of one form. -/
theorem Unfolds.step (h : Unfolds types t u) :
    (∃ body, expandAlias? types t = some body ∧ Unfolds types body u) ∨
      (sameNames (Unfolds types)).Matches t u := by
  obtain ⟨n, h⟩ := h
  cases n with
  | zero => exact h.elim
  | succ n =>
    refine h.imp (fun ⟨body, hbody, h⟩ ↦ ⟨body, hbody, n, h⟩) fun h ↦ ?_
    have hsignature (a b : Signature) (hab : NamesMatch (UnfoldsWithin types n) a b) :
        NamesMatch (Unfolds types) a b :=
      ⟨hab.1, hab.2.imp fun _ _ _ huv ↦ ⟨n, huv⟩⟩
    exact h.imp (fun _ _ ↦ id) (fun _ _ _ huv ↦ ⟨n, huv⟩) (fun a _ b _ ↦ hsignature a b)
      fun a b _ ↦ hsignature a b

theorem eq_named_of_matches {R : TypeExpr → TypeExpr → Prop} {name : String}
    (h : (sameNames R).Matches (.named name) u) : u = .named name := by
  cases h with
  | reference hname hargs =>
    cases hname
    cases hargs
    rfl

theorem eq_of_matches_named {R : TypeExpr → TypeExpr → Prop} {name : String}
    (h : (sameNames R).Matches t (.named name)) : t = .named name := by
  cases h with
  | reference hname hargs =>
    cases hname
    cases hargs
    rfl

/-- What is written out to a name ends no earlier than the name. -/
theorem EndsWithin.of_unfolds_named {name : String} (h : EndsWithin types n t)
    (hname : Unfolds types t (.named name)) : EndsWithin types n (.named name) := by
  induction n generalizing t with
  | zero => exact absurd h not_endsWithin_zero
  | succ n ih =>
    rcases hname.step with ⟨body, hbody, hname⟩ | hmatch
    · exact (ih (h.aliasBody hbody) hname).succ
    · exact eq_of_matches_named hmatch ▸ h

/-- Chains that end do not come back to an alias. -/
theorem not_unfolds_named_of_expandAlias? {name : String} {body : TypeExpr}
    (h : EndsWithin types n (.named name))
    (hbody : expandAlias? types (.named name) = some body) : ¬Unfolds types body (.named name) := by
  intro hname
  induction n with
  | zero => exact not_endsWithin_zero h
  | succ n ih => exact ih ((h.aliasBody hbody).of_unfolds_named hname)

/-! ### Tables -/

structure AliasUnfolds (types : OrderedMap String TypeEntry) (a b : TypeAlias) : Prop where
  typeParams : a.typeParams.map TypeParam.name = b.typeParams.map TypeParam.name
  type : Unfolds types a.type b.type

theorem AliasUnfolds.typeParams_eq_nil_iff {a b : TypeAlias} (h : AliasUnfolds types a b) :
    a.typeParams = [] ↔ b.typeParams = [] := by
  rw [← List.map_eq_nil_iff, h.typeParams, List.map_eq_nil_iff]

/-- The tables have the same aliases, the second one with aliases written out in their bodies.  For
the bodies in the first one the levels of the audit suffice. -/
structure AliasesUnfold (types types' : OrderedMap String TypeEntry) : Prop where
  isShort : ∀ name a, types.get? name = some (.typeAlias a) → a.type.All (IsShort types)
  right : ∀ name a, types.get? name = some (.typeAlias a) →
    ∃ b, types'.get? name = some (.typeAlias b) ∧ AliasUnfolds types a b
  left : ∀ name b, types'.get? name = some (.typeAlias b) →
    ∃ a, types.get? name = some (.typeAlias a) ∧ AliasUnfolds types a b

theorem AliasesUnfold.all_isShort {body : TypeExpr} (h : AliasesUnfold types types')
    (ht : expandAlias? types t = some body) : body.All (IsShort types) := by
  obtain ⟨name, a, -, -, hget, -, -, rfl⟩ := expandAlias?_eq_some_iff.1 ht
  exact h.isShort name a hget

theorem AliasesUnfold.expandAlias?_eq_some {body : TypeExpr} (h : AliasesUnfold types types')
    (hends : EndsWithin types n t) (ht : expandAlias? types t = some body) :
    ∃ body', expandAlias? types' t = some body' ∧ Unfolds types body body' := by
  obtain ⟨name, a, rfl, hother, hget, hparams, hproper, rfl⟩ := expandAlias?_eq_some_iff.1 ht
  obtain ⟨b, hget', hab⟩ := h.right name a hget
  refine ⟨b.type, expandAlias?_eq_some_iff.2 ⟨name, b, rfl, hother, hget', ?_, ?_, rfl⟩, hab.type⟩
  · exact hab.typeParams_eq_nil_iff.1 hparams
  · intro hself
    exact not_unfolds_named_of_expandAlias? hends ht (hself ▸ hab.type)

theorem AliasesUnfold.expandAlias?_eq_none (h : AliasesUnfold types types')
    (ht : expandAlias? types t = none) : expandAlias? types' t = none := by
  by_contra hne
  obtain ⟨body', hbody'⟩ := Option.ne_none_iff_exists'.1 hne
  obtain ⟨name, b, rfl, hother, hget', hparams, hproper, rfl⟩ := expandAlias?_eq_some_iff.1 hbody'
  obtain ⟨a, hget, hab⟩ := h.left name b hget'
  -- The alias opens to nothing in the first table only if it is an alias of itself.
  have hself : a.type = .named name := by
    by_contra hne
    have := expandAlias?_eq_some_iff.2
      ⟨name, a, rfl, hother, hget, hab.typeParams_eq_nil_iff.2 hparams, hne, rfl⟩
    rw [ht] at this
    cases this
  have hstep := hab.type.step
  rw [hself, ht] at hstep
  rcases hstep with ⟨_, hnone, -⟩ | hmatch
  · cases hnone
  · exact hproper (eq_named_of_matches hmatch)

theorem expandAlias?_eq_none_of_ne_named (h : ∀ name, t ≠ .named name) :
    expandAlias? types t = none := by
  by_contra hne
  obtain ⟨body, hbody⟩ := Option.ne_none_iff_exists'.1 hne
  obtain ⟨name, a, rfl, -⟩ := expandAlias?_eq_some_iff.1 hbody
  exact h name rfl

theorem AliasesUnfold.expandAlias?_eq_none_of_matches {R : TypeExpr → TypeExpr → Prop}
    (h : AliasesUnfold types types') (ht : expandAlias? types t = none)
    (hmatch : (sameNames R).Matches t u) : expandAlias? types' u = none := by
  by_cases hu : ∃ name, u = .named name
  · obtain ⟨name, rfl⟩ := hu
    exact h.expandAlias?_eq_none (eq_of_matches_named hmatch ▸ ht)
  · exact expandAlias?_eq_none_of_ne_named fun name hname ↦ hu ⟨name, hname⟩

/-! ### Opening two types together -/

/-- Where the levels suffice, a type and what it is written out to can be opened together. -/
theorem unfolds_induction {C : Nat → TypeExpr → Nat → TypeExpr → Prop}
    (haliases : AliasesUnfold types types')
    (left : ∀ {k k' t u body}, expandAlias? types t = some body → C k body k' u → C (k + 1) t k' u)
    (both : ∀ {k k' t u body body'}, expandAlias? types t = some body →
      expandAlias? types' u = some body' → C k body k' body' → C (k + 1) t (k' + 1) u)
    (union : ∀ {k k' ts us}, List.Forall₂ (fun t u ↦ C k t k' u) ts us →
      C (k + 1) (.union ts) (k' + 1) (.union us))
    (leaf : ∀ {k k' t u}, expandAlias? types t = none → expandAlias? types' u = none →
      t.isUnion = false → t.All (IsShort types) → (sameNames (Unfolds types)).Matches t u →
        C (k + 1) t (k' + 1) u)
    {k k' : Nat} (hk : n ≤ k) (hk' : n ≤ k') (hends : EndsWithin types n t)
    (ht : t.All (IsShort types)) (h : Unfolds types t u) : C k t k' u := by
  induction n generalizing t u k k' with
  | zero => exact absurd hends not_endsWithin_zero
  | succ n ih =>
    obtain ⟨k, rfl⟩ := Nat.exists_eq_succ_of_ne_zero (Nat.ne_zero_of_lt hk)
    rcases h.step with ⟨body, hbody, h⟩ | hmatch
    · apply left hbody
      exact ih (Nat.le_of_succ_le_succ hk) (Nat.le_of_succ_le hk') (hends.aliasBody hbody)
        (haliases.all_isShort hbody) h
    obtain ⟨k', rfl⟩ := Nat.exists_eq_succ_of_ne_zero (Nat.ne_zero_of_lt hk')
    replace hk := Nat.le_of_succ_le_succ hk
    replace hk' := Nat.le_of_succ_le_succ hk'
    cases hexpand : expandAlias? types t with
    | some body =>
      -- A name that stays stands for a body that may have been written out.
      obtain ⟨name, -, rfl, -⟩ := expandAlias?_eq_some_iff.1 hexpand
      cases eq_named_of_matches hmatch
      obtain ⟨body', hexpand', h⟩ := haliases.expandAlias?_eq_some hends hexpand
      exact both hexpand hexpand'
        (ih hk hk' (hends.aliasBody hexpand) (haliases.all_isShort hexpand) h)
    | none =>
      have hexpand' := haliases.expandAlias?_eq_none_of_matches hexpand hmatch
      cases hunion : t.isUnion with
      | false => exact leaf hexpand hexpand' hunion ht hmatch
      | true =>
        cases hmatch with
        | union hmembers =>
          refine union (forall₂_imp_of_mem hmembers fun v hv w _ hvw ↦ ?_)
          exact ih hk hk' (hends.member hv) (ht.child hv) hvw
        | _ => cases hunion

/-! ### What types come to -/

theorem resolve_of_expandAlias? {body : TypeExpr} (h : expandAlias? types t = some body) (n : Nat) :
    resolve types (n + 1) t = resolve types n body := by
  simp only [resolve, h]

theorem resolve_union (members : List TypeExpr) (n : Nat) :
    resolve types (n + 1) (.union members) = .union (members.map (resolve types n)) :=
  rfl

theorem resolve_of_none (h : expandAlias? types t = none) (hunion : t.isUnion = false) (n : Nat) :
    resolve types (n + 1) t = t := by
  cases t with
  | union members => cases hunion
  | _ => simp only [resolve, h]

/-- The audit judges the types alike. -/
structure JudgedAlike (t u : TypeExpr) : Prop where
  isIndexValued : isIndexValued t = isIndexValued u
  isPlainNumber : isPlainNumber t = isPlainNumber u
  isNullish : isNullish t = isNullish u

theorem all_eq_of_forall₂ {α β : Type} {f : α → Bool} {g : β → Bool} {l : List α} {l' : List β}
    (h : List.Forall₂ (fun a b ↦ f a = g b) l l') : l.all f = l'.all g := by
  simpa [List.all_map] using congrArg (List.all · id) (map_eq_of_forall₂ h)

theorem any_eq_of_forall₂ {α β : Type} {f : α → Bool} {g : β → Bool} {l : List α} {l' : List β}
    (h : List.Forall₂ (fun a b ↦ f a = g b) l l') : l.any f = l'.any g := by
  simpa [List.any_map] using congrArg (List.any · id) (map_eq_of_forall₂ h)

theorem judgedAlike_union {ts us : List TypeExpr} (h : List.Forall₂ JudgedAlike ts us) :
    JudgedAlike (.union ts) (.union us) where
  isNullish := rfl
  isPlainNumber := by
    rw [isPlainNumber_union, isPlainNumber_union]
    exact any_eq_of_forall₂ (h.imp fun _ _ ↦ JudgedAlike.isPlainNumber)
  isIndexValued := by
    rw [isIndexValued_union, isIndexValued_union]
    congr 1
    · exact all_eq_of_forall₂ (h.imp fun _ _ h ↦ by rw [h.isNullish, h.isIndexValued])
    · exact any_eq_of_forall₂ (h.imp fun _ _ h ↦ by rw [h.isNullish])

theorem judgedAlike_of_matches {R : TypeExpr → TypeExpr → Prop} (hunion : t.isUnion = false)
    (h : (sameNames R).Matches t u) : JudgedAlike t u := by
  cases h with
  | union h => cases hunion
  | reference hname hargs =>
    obtain rfl := hname
    cases hargs with
    | nil => exact ⟨rfl, rfl, rfl⟩
    | cons _ _ =>
      refine ⟨?_, ?_, rfl⟩
      · simp [isIndexValued, isIndexType, TypeExpr.isReferenceTo]
      · simp [isPlainNumber]
  | _ =>
    refine ⟨?_, ?_, rfl⟩
    · simp [isIndexValued, isIndexType, TypeExpr.isReferenceTo]
    · simp [isPlainNumber]

theorem judgedAlike_resolve (haliases : AliasesUnfold types types') (ht : t.All (IsShort types))
    (h : Unfolds types t u) :
    JudgedAlike (resolve types maxRelationDepth t) (resolve types' maxRelationDepth u) := by
  refine unfolds_induction
    (C := fun k t k' u ↦ JudgedAlike (resolve types k t) (resolve types' k' u)) haliases ?_ ?_ ?_ ?_
    (Nat.le_refl _) (Nat.le_refl _) ht.self ht h
  · intro k k' t u body hbody hC
    rwa [resolve_of_expandAlias? hbody]
  · intro k k' t u body body' hbody hbody' hC
    rwa [resolve_of_expandAlias? hbody, resolve_of_expandAlias? hbody']
  · intro k k' ts us hC
    rw [resolve_union, resolve_union]
    exact judgedAlike_union (forall₂_map hC fun _ _ ↦ id)
  · intro k k' t u hnone hnone' hunion _ hmatch
    have hunion' : u.isUnion = false := by
      cases hmatch with
      | union h => cases hunion
      | _ => rfl
    rw [resolve_of_none hnone hunion, resolve_of_none hnone' hunion']
    exact judgedAlike_of_matches hunion hmatch

end Index
end TypeSurface
