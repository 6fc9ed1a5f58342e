import TypeSurface.Proofs.Relation.Capture
import TypeSurface.Proofs.Relation.Simulation

/-!
# Generic signatures up to their names

Signatures that are equal but for the names of type parameters cover one another, where the relation
can find it out: it renames the type parameters of methods but not those of function types, renames
by name, and leaves to equality what it does not look into.
-/

namespace TypeSurface
namespace Relation

/-! ### Types that are kept -/

/-- All type parameters that are declared here are written alike on both sides. -/
def IsKept (scope : Scope) (s t : TypeExpr) : Prop :=
  IsApart scope s t ∧ s.signatures.map Signature.typeParams = t.signatures.map Signature.typeParams

/-- The types are equal once the type parameters around them go by the same names. -/
def Kept : Scope → TypeExpr → TypeExpr → Prop := Alike IsKept

section Kept

variable {scope outer : Scope} {names : Renaming} {s t : TypeExpr}

theorem Scope.IsPlain.enter {a b : Signature} (hscope : scope.IsPlain)
    (hnames : a.typeParams.map TypeParam.name = b.typeParams.map TypeParam.name) :
    (scope.enter a b).IsPlain := by
  have hpairs : List.Forall₂ (fun p q : TypeParam ↦ p.name = q.name) a.typeParams b.typeParams := by
    rw [← List.forall₂_eq_eq_eq, List.forall₂_map_left_iff, List.forall₂_map_right_iff] at hnames
    exact hnames
  intro p hp
  rcases List.mem_append.1 hp with hp | hp
  · obtain ⟨⟨q, q'⟩, hq, rfl⟩ := List.mem_map.1 (List.mem_reverse.1 hp)
    exact List.forall₂_zip hpairs hq
  · exact hscope p hp

theorem Kept.swap (h : Kept scope s t) : Kept (scope.map Prod.swap) t s := by
  obtain ⟨n, h⟩ := h
  exact ⟨n, h.swap fun _ _ _ h ↦ ⟨h.1.swap, h.2.symm⟩⟩

theorem Kept.rename (houter : outer.IsPlain) (havoids : scope.Avoids names)
    (h : Kept (scope ++ (names.reverse ++ outer)) s t) :
    Kept (scope ++ outer) (renameType names s) t := by
  obtain ⟨n, h⟩ := h
  refine ⟨n, h.rename houter havoids (fun _ _ _ h ↦ h.1) fun scope s t _ h ↦ ⟨h.1.rename, ?_⟩⟩
  rw [map_typeParams_signatures_renameType, h.2]

/-- Parts are equal, but what signatures say of their type parameters is known elsewhere. -/
def equality : Correspondence where
  names := Eq
  types := Eq
  functions a b := a.typeParams = b.typeParams → a = b
  methods a b := a.typeParams = b.typeParams → a = b

theorem eq_of_signatureMatches {a b : Signature} (h : SignatureMatches Eq a b)
    (htypeParams : a.typeParams = b.typeParams) : a = b := by
  obtain ⟨typeParams, params, result⟩ := a
  obtain ⟨typeParams', params', result'⟩ := b
  have hparams : List.Forall₂ Eq params params' := h.params.imp fun p q hpq ↦ by
    cases p
    cases q
    cases hpq.name
    cases hpq.type
    cases hpq.isOptional
    cases hpq.isRest
    rfl
  rw [List.forall₂_eq_eq_eq] at hparams
  cases htypeParams
  cases hparams
  cases h.result
  rfl

theorem eq_of_elementMatches {d e : TupleElement} (h : ElementMatches Eq d e) : d = e := by
  cases d
  cases e
  cases h.type
  cases h.isOptional
  cases h.isRest
  rfl

theorem eq_of_formMatches {ms ns : List MemberForm}
    (h : List.Forall₂ (FormMatches equality.types equality.methods) ms ns)
    (htypeParams : (ms.flatMap MemberForm.signatures).map Signature.typeParams =
      (ns.flatMap MemberForm.signatures).map Signature.typeParams) : ms = ns := by
  induction h with
  | nil => rfl
  | cons hmn _ ih =>
    rw [List.flatMap_cons, List.flatMap_cons, List.map_append, List.map_append] at htypeParams
    cases hmn with
    | property name isReadonly isOptional h =>
      cases h
      rw [ih htypeParams]
    | index isReadonly keyName hkey h =>
      cases hkey
      cases h
      rw [ih htypeParams]
    | method name isOptional h =>
      obtain ⟨hhere, hrest⟩ := List.cons_eq_cons.1 htypeParams
      rw [h hhere, ih hrest]
    | call h =>
      obtain ⟨hhere, hrest⟩ := List.cons_eq_cons.1 htypeParams
      rw [h hhere, ih hrest]
    | construct h =>
      obtain ⟨hhere, hrest⟩ := List.cons_eq_cons.1 htypeParams
      rw [h hhere, ih hrest]

theorem eq_of_matches (h : equality.Matches s t)
    (htypeParams : s.signatures.map Signature.typeParams = t.signatures.map Signature.typeParams) :
    s = t := by
  have hlist {as bs : List TypeExpr} (hab : List.Forall₂ equality.types as bs) : as = bs := by
    change List.Forall₂ Eq as bs at hab
    rwa [List.forall₂_eq_eq_eq] at hab
  cases h with
  | keyword word => rfl
  | literal value => rfl
  | reference hname h =>
    cases hname
    rw [hlist h]
  | array h => exact congrArg _ h
  | @tuple ds es h =>
    have heq : List.Forall₂ Eq ds es := h.imp fun _ _ ↦ eq_of_elementMatches
    rw [List.forall₂_eq_eq_eq] at heq
    rw [heq]
  | union h => rw [hlist h]
  | intersection h => rw [hlist h]
  | function h => rw [h (List.cons_eq_cons.1 htypeParams).1]
  | construct h => rw [h (List.cons_eq_cons.1 htypeParams).1]
  | object h => rw [eq_of_formMatches h htypeParams]
  | keyOf h => exact congrArg _ h
  | readonly h => exact congrArg _ h
  | predicate parameter h => exact congrArg _ h

/-- Where all type parameters around go by the same names, what is kept is equal. -/
theorem Kept.eq (h : Kept scope s t) (hscope : scope.IsPlain) : s = t := by
  obtain ⟨n, h⟩ := h
  induction n generalizing scope s t with
  | zero => exact h.elim
  | succ n ih =>
    have hsignature (a b : Signature)
        (hab : SignatureMatches (AlikeWithin IsKept n (scope.enter a b)) a b)
        (htypeParams : a.typeParams = b.typeParams) : a = b :=
      eq_of_signatureMatches
        (hab.imp fun u v _ ↦ ih (hscope.enter (congrArg _ htypeParams))) htypeParams
    exact eq_of_matches (h.2.imp (fun _ _ ↦ hscope.links_iff.1) (fun _ _ _ ↦ ih hscope)
      (fun a _ b _ ↦ hsignature a b) fun a b _ ↦ hsignature a b) h.1.2

end Kept

/-! ### Types that are compared -/

/-- The relation finds out that two types are alike with `t` as the target: nothing is captured, and
the types are kept, or the relation looks into the target and neither the names of the type
parameters of a function type nor the types of the keys of index members are changed. -/
def IsFollowed (types : OrderedMap String TypeEntry) (scope : Scope) (s t : TypeExpr) : Prop :=
  IsApart scope s t ∧ (Kept scope s t ∨ IsTransparent types t ∧
    s.functionNames? = t.functionNames? ∧ List.Forall₂ (Kept scope) s.indexKeys t.indexKeys)

/-- The relation finds out in either direction that two types are alike. -/
def IsFollowedBoth (types : OrderedMap String TypeEntry) (scope : Scope) (s t : TypeExpr) : Prop :=
  IsApart scope s t ∧ (Kept scope s t ∨ (IsTransparent types s ∧ IsTransparent types t) ∧
    s.functionNames? = t.functionNames? ∧ List.Forall₂ (Kept scope) s.indexKeys t.indexKeys)

section Followed

variable {types : OrderedMap String TypeEntry} {scope outer : Scope} {names : Renaming}
  {s t : TypeExpr} {a b : Signature} {n : Nat}

theorem IsFollowedBoth.isFollowed (h : IsFollowedBoth types scope s t) :
    IsFollowed types scope s t :=
  h.imp_right fun h ↦ h.imp_right fun h ↦ ⟨h.1.2, h.2⟩

theorem IsFollowedBoth.swap (h : IsFollowedBoth types scope s t) :
    IsFollowedBoth types (scope.map Prod.swap) t s := by
  refine ⟨h.1.swap, h.2.imp Kept.swap fun ⟨⟨hs, ht⟩, hfunction, hkeys⟩ ↦ ?_⟩
  exact ⟨⟨ht, hs⟩, hfunction.symm, forall₂_swap hkeys fun _ _ ↦ Kept.swap⟩

theorem IsFollowed.rename (houter : outer.IsPlain) (havoids : scope.Avoids names)
    (h : IsFollowed types (scope ++ (names.reverse ++ outer)) s t) :
    IsFollowed types (scope ++ outer) (renameType names s) t := by
  refine ⟨h.1.rename, h.2.imp (Kept.rename houter havoids) fun ⟨ht, hfunction, hkeys⟩ ↦ ?_⟩
  rw [functionNames?_renameType, indexKeys_renameType]
  exact ⟨ht, hfunction, forall₂_map_left hkeys fun _ _ ↦ Kept.rename houter havoids⟩

/-- Types that are alike where all type parameters around go by the same names, such that the
relation finds it out. -/
def Follows (types : OrderedMap String TypeEntry) (s t : TypeExpr) : Prop :=
  ∃ n scope, Scope.IsPlain scope ∧ AlikeWithin (IsFollowed types) n scope s t

/-- Signatures that are alike match once the first has the names of the second. -/
theorem matches_namedFor (hscope : scope.IsPlain)
    (h : SignatureMatches (AlikeWithin (IsFollowed types) n (scope.enter a b)) a b) :
    SignatureMatches (Follows types) (namedFor a b) b := by
  unfold namedFor
  split
  · next hnames =>
    have hplain : (scope.enter a b).IsPlain :=
      hscope.enter ((haveSameNames_iff h.typeParams).1 hnames)
    exact h.imp fun u v _ huv ↦ ⟨n, _, hplain, huv⟩
  · have hrename (u v : TypeExpr)
        (huv : AlikeWithin (IsFollowed types) n (scope.enter a b) u v) :
        Follows types (renameType (namesFor a b.typeParams) u) v := by
      have hrenamed : AlikeWithin (IsFollowed types) n ([] ++ scope)
          (renameType (namesFor a b.typeParams) u) v :=
        AlikeWithin.rename hscope (Scope.avoids_nil _) (fun _ _ _ h ↦ h.1)
          (fun _ _ _ havoids ↦ IsFollowed.rename hscope havoids) huv
      exact ⟨n, scope, hscope, hrenamed⟩
    exact {
      typeParams := by simpa [renameTypeParams] using h.typeParams
      params := paramMatches_rename h.params hrename
      result := hrename _ _ h.result }

theorem isSimulation_follows : IsSimulation types (Follows types) := by
  rintro s t ⟨n, scope, hscope, h⟩
  cases n with
  | zero => exact h.elim
  | succ n =>
    obtain ⟨⟨-, hkept | ⟨htransparent, hfunction, hkeys⟩⟩, hmatching⟩ := h
    · exact .inl (hkept.eq hscope)
    have hindexKeys : s.indexKeys = t.indexKeys := by
      have heq : List.Forall₂ Eq s.indexKeys t.indexKeys := hkeys.imp fun _ _ h ↦ h.eq hscope
      rwa [List.forall₂_eq_eq_eq] at heq
    refine .inr (.inr ⟨hmatching.imp (fun _ _ ↦ hscope.links_iff.1)
      (fun u v _ huv ↦ ⟨n, scope, hscope, huv⟩) ?_ fun _ _ _ ↦ matches_namedFor hscope,
      htransparent, hmatching.formKeys_eq hindexKeys⟩)
    intro a ha b hb hab
    have hnames : a.typeParams.map TypeParam.name = b.typeParams.map TypeParam.name := by
      simpa [TypeExpr.functionNames?, Option.mem_def.1 ha, Option.mem_def.1 hb] using hfunction
    exact hab.imp fun u v _ huv ↦ ⟨n, _, hscope.enter hnames, huv⟩

end Followed

/-- Signatures that are equal but for the names of type parameters cover one another under every
table of aliases, if the relation finds out that the types inside are alike and its levels reach
them. -/
theorem signatureCovers_of_alike {types : OrderedMap String TypeEntry} {o w : Signature}
    (h : AlikeSignatures (IsFollowedBoth types) o w) (hlevels : w.levels < maxRelationDepth) :
    signatureCovers (isAssignable types) o w = true ∧
      signatureCovers (isAssignable types) w o = true := by
  obtain ⟨n, h⟩ := h
  -- The other direction is this one with the sides exchanged.
  have hswap :
      SignatureMatches (AlikeWithin (IsFollowedBoth types) n (Scope.enter [] w o)) w o := by
    have henter : (Scope.enter [] o w).map Prod.swap = Scope.enter [] w o :=
      Scope.enter_swap [] o w
    rw [← henter]
    exact h.swap fun _ _ huv ↦ huv.swap fun _ _ _ ↦ IsFollowedBoth.swap
  have hplain : Scope.IsPlain [] := fun _ h ↦ absurd h List.not_mem_nil
  have hfollowed (a b : Signature)
      (hab : SignatureMatches (AlikeWithin (IsFollowedBoth types) n (Scope.enter [] a b)) a b) :
      SignatureMatches (Follows types) (namedFor a b) b :=
    matches_namedFor hplain (hab.imp fun _ _ _ huv ↦ huv.imp fun _ _ _ ↦ IsFollowedBoth.isFollowed)
  have hsame : o.levels = w.levels :=
    congrArg greatest (map_eq_of_forall₂ (h.compared.imp fun u v huv ↦
      huv.height_eq fun _ _ _ hmatching ↦ hmatching.levelStep_eq))
  exact ⟨isSimulation_follows.signatureCovers (hfollowed o w h) hlevels,
    isSimulation_follows.signatureCovers (hfollowed w o hswap) (hsame ▸ hlevels)⟩

/-- `<T>(value: T, change: <U>(item: U) => U): T`, with the name of `U` given -/
def changed (name : String) : Signature :=
  ⟨[⟨"T", none, none⟩], [⟨"value", .named "T", false, false⟩,
    ⟨"change", .function ⟨[⟨name, none, none⟩], [⟨"item", .named name, false, false⟩],
      .named name⟩, false, false⟩], .named "T"⟩

/-- Signatures do not cover one another if a function type inside names its type parameter in
another way. -/
theorem not_signatureCovers_of_alike :
    ¬∀ (types : OrderedMap String TypeEntry) (o w : Signature),
      AlikeSignatures (fun _ _ _ ↦ True) o w → o.nesting < maxRelationDepth →
        signatureCovers (isAssignable types) o w = true ∧
          signatureCovers (isAssignable types) w o = true := by
  intro h
  have hname {scope : Scope} {a b : String} (n : Nat) (hab : scope.Links a b) :
      AlikeWithin (fun _ _ _ ↦ True) (n + 1) scope (.named a) (.named b) :=
    ⟨trivial, .reference hab .nil⟩
  have halike : AlikeSignatures (fun _ _ _ ↦ True) (changed "U") (changed "V") := by
    have hvalue : AlikeWithin (fun _ _ _ ↦ True) 2 [("T", "T")] (.named "T") (.named "T") :=
      hname 1 (.inl ⟨rfl, rfl⟩)
    have hitem : AlikeWithin (fun _ _ _ ↦ True) 1 [("U", "V"), ("T", "T")] (.named "U")
        (.named "V") :=
      hname 0 (.inl ⟨rfl, rfl⟩)
    refine ⟨2, rfl, .cons ⟨rfl, hvalue, rfl, rfl⟩ (.cons ⟨rfl, ?_, rfl, rfl⟩ .nil), hvalue⟩
    exact ⟨trivial, .function ⟨rfl, .cons ⟨rfl, hitem, rfl, rfl⟩ .nil, hitem⟩⟩
  have hnot : signatureCovers (isAssignable .empty) (changed "U") (changed "V") = false := by
    decide +kernel
  have hcovers := (h .empty _ _ halike (by decide +kernel)).1
  rw [hnot] at hcovers
  cases hcovers

/-- `{ map<U>(change: (item: T) => U): U[]; }`, with the names of `T` and `U` given -/
def mapper (outer inner : String) : TypeExpr :=
  .object [.method (.identifier "map") false ⟨[⟨inner, none, none⟩],
    [⟨"change", .function ⟨[], [⟨"item", .named outer, false, false⟩], .named inner⟩, false,
      false⟩], .array (.named inner)⟩]

/-- `<T>(source: { map<U>(change: (item: T) => U): U[]; }, key: keyof T): T | undefined`, with the
names of `T` and `U` given -/
def mapped (outer inner : String) : Signature :=
  ⟨[⟨outer, none, none⟩], [⟨"source", mapper outer inner, false, false⟩,
    ⟨"key", .keyOf (.named outer), false, false⟩], .union [.named outer, .keyword .undefined]⟩

theorem isFollowedBoth_of_no_signatures {types : OrderedMap String TypeEntry} {scope : Scope}
    {s t : TypeExpr} (happlied : s.appliedName? = t.appliedName?)
    (hdeclared : s.declaredNames ++ t.declaredNames = []) (hs : IsTransparent types s)
    (ht : IsTransparent types t) (hfunction : s.functionNames? = t.functionNames?)
    (hkeys : List.Forall₂ (Kept scope) s.indexKeys t.indexKeys) :
    IsFollowedBoth types scope s t := by
  refine ⟨⟨happlied, ?_⟩, .inr ⟨⟨hs, ht⟩, hfunction, hkeys⟩⟩
  rw [hdeclared]
  exact fun name hname ↦ absurd hname List.not_mem_nil

theorem alikeSignatures_mapped :
    AlikeSignatures (IsFollowedBoth .empty) (mapped "T" "U") (mapped "A" "B") := by
  have hname {scope : Scope} {a b : String} (n : Nat) (hab : scope.Links a b) :
      AlikeWithin (IsFollowedBoth .empty) (n + 1) scope (.named a) (.named b) :=
    ⟨isFollowedBoth_of_no_signatures rfl rfl trivial trivial rfl .nil, .reference hab .nil⟩
  have hinner : Scope.Links [("U", "B"), ("T", "A")] "U" "B" := .inl ⟨rfl, rfl⟩
  have houter : Scope.Links [("T", "A")] "T" "A" := .inl ⟨rfl, rfl⟩
  have houter' : Scope.Links [("U", "B"), ("T", "A")] "T" "A" := .inr ⟨by decide, by decide, houter⟩
  have hchange : AlikeWithin (IsFollowedBoth .empty) 2 [("U", "B"), ("T", "A")]
      (.function ⟨[], [⟨"item", .named "T", false, false⟩], .named "U"⟩)
      (.function ⟨[], [⟨"item", .named "A", false, false⟩], .named "B"⟩) :=
    ⟨isFollowedBoth_of_no_signatures rfl rfl trivial trivial rfl .nil,
      .function ⟨rfl, .cons ⟨rfl, hname 0 houter', rfl, rfl⟩ .nil, hname 0 hinner⟩⟩
  have hitems : AlikeWithin (IsFollowedBoth .empty) 2 [("U", "B"), ("T", "A")]
      (.array (.named "U")) (.array (.named "B")) :=
    ⟨isFollowedBoth_of_no_signatures rfl rfl trivial trivial rfl .nil, .array (hname 0 hinner)⟩
  have hsource : AlikeWithin (IsFollowedBoth .empty) 3 [("T", "A")] (mapper "T" "U")
      (mapper "A" "B") := by
    have hdistinct (outer inner : String) : IsTransparent .empty (mapper outer inner) :=
      List.nodup_singleton _
    refine ⟨⟨⟨rfl, by decide⟩, .inr ⟨⟨hdistinct _ _, hdistinct _ _⟩, rfl, .nil⟩⟩, ?_⟩
    exact .object (.cons (.method _ _ ⟨rfl, .cons ⟨rfl, hchange, rfl, rfl⟩ .nil, hitems⟩) .nil)
  have hkey : AlikeWithin (IsFollowedBoth .empty) 3 [("T", "A")] (.keyOf (.named "T"))
      (.keyOf (.named "A")) := by
    have hkept : Kept [("T", "A")] (.keyOf (.named "T")) (.keyOf (.named "A")) :=
      ⟨2, ⟨⟨rfl, by decide⟩, rfl⟩, .keyOf ⟨⟨⟨rfl, by decide⟩, rfl⟩, .reference houter .nil⟩⟩
    exact ⟨⟨⟨rfl, by decide⟩, .inl hkept⟩, .keyOf (hname 1 houter)⟩
  have hresult : AlikeWithin (IsFollowedBoth .empty) 3 [("T", "A")]
      (.union [.named "T", .keyword .undefined]) (.union [.named "A", .keyword .undefined]) := by
    have hplain (ts : List TypeExpr) : IsTransparent .empty (.union ts) :=
      fun _ y _ ↦ expandAlias?_empty y
    refine ⟨isFollowedBoth_of_no_signatures rfl rfl (hplain _) (hplain _) rfl .nil, .union ?_⟩
    refine .cons (hname 1 houter) (.cons ⟨?_, .keyword .undefined⟩ .nil)
    exact isFollowedBoth_of_no_signatures rfl rfl trivial trivial rfl .nil
  exact ⟨3, rfl, .cons ⟨rfl, hsource, rfl, rfl⟩ (.cons ⟨rfl, hkey, rfl, rfl⟩ .nil), hresult⟩

theorem signatureCovers_of_alike_mapped :
    signatureCovers (isAssignable .empty) (mapped "T" "U") (mapped "A" "B") = true ∧
      signatureCovers (isAssignable .empty) (mapped "A" "B") (mapped "T" "U") = true :=
  signatureCovers_of_alike alikeSignatures_mapped (by decide +kernel)

end Relation
end TypeSurface
