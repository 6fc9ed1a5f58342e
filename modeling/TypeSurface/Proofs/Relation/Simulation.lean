import TypeSurface.Proofs.Relation.Matching
import TypeSurface.Proofs.Syntax.Flat

/-!
# Simulations

A relation of types whose pairs are equal, or differ in how they name numbers, or match with pairs
of the relation inside, is part of assignability as far as the levels reach.  To match is not
enough: the relation does not look into every type, and it settles on a member of a target union
before it goes to the members of a source intersection.
-/

namespace TypeSurface

/-- `y` is the type itself, or a member of members of it, at a distance. -/
inductive Combination.PartAt (c : Combination) : Nat → TypeExpr → TypeExpr → Prop
  | here (t : TypeExpr) : c.PartAt 0 t t
  | member {p : Nat} {y m : TypeExpr} {ts : List TypeExpr} (hm : m ∈ ts) (h : c.PartAt p y m) :
    c.PartAt (p + 1) y (c.of ts)

theorem Combination.PartAt.inside {c : Combination} {p : Nat} {y t : TypeExpr} {ys : List TypeExpr}
    (h : c.PartAt p (c.of ys) t) (hy : y ∈ ys) : c.PartAt (p + 1) y t := by
  generalize hz : c.of ys = z at h
  induction h with
  | here t =>
    subst hz
    exact .member hy (.here y)
  | member hm _ ih => exact .member hm (ih hz)

theorem Combination.PartAt.eq_of_not_has {c : Combination} {p : Nat} {y t : TypeExpr}
    (h : c.PartAt p y t) (ht : c.has t = false) : y = t := by
  cases h with
  | here => rfl
  | member hm h => cases c <;> cases ht

namespace Relation

/-- `number` stands on one side and the index type on the other. -/
inductive IsExchange : TypeExpr → TypeExpr → Prop
  | index : IsExchange (.keyword .number) Index.type
  | number : IsExchange Index.type (.keyword .number)

section

variable (types : OrderedMap String TypeEntry)

/-- The relation looks into a target that differs from its source: under `readonly` there is a
structured type, no alias stands among the members of a combination and no union among those of an
intersection, and no two members of an object type have one key.  It never looks under `keyof`. -/
def IsTransparent : TypeExpr → Prop
  | .keyOf _ => False
  | .readonly operand => operand.isStructured = true
  | .union ts => ∀ p y, Combination.union.PartAt p y (.union ts) → expandAlias? types y = none
  | .intersection ts => ∀ p y, Combination.intersection.PartAt p y (.intersection ts) →
      expandAlias? types y = none ∧ y.isUnion = false
  | .object members => (members.map formKey).Nodup
  | _ => True

/-- Two types that match in types of a relation, where the rules find it out. -/
structure IsSeen (R : TypeExpr → TypeExpr → Prop) (s t : TypeExpr) : Prop where
  matching : (compares R).Matches s t
  isTransparent : IsTransparent types t
  formKeys_eq : s.formKeys = t.formKeys

def IsSimulation (R : TypeExpr → TypeExpr → Prop) : Prop :=
  ∀ s t, R s t → s = t ∨ IsExchange s t ∨ IsSeen types R s t

end

/-! ### One level -/

section Level

variable {types : OrderedMap String TypeEntry} {r : TypeExpr → TypeExpr → Bool}
  {Q R : TypeExpr → TypeExpr → Prop} {s t : TypeExpr}

theorem IsTransparent.nodup_formKeys (h : IsTransparent types t) : t.formKeys.Nodup := by
  cases t with
  | object members => exact h
  | _ => exact List.nodup_nil

theorem levelRelates_of_exchange (h : IsExchange s t) : levelRelates r types s t = true := by
  cases h with
  | index =>
    rw [levelRelates, expandAlias?_index]
    rfl
  | number =>
    rw [levelRelates, expandAlias?_index]
    rfl

theorem levelRelates_of_parts {answer : Bool} (hs : expandAlias? types s = none)
    (ht : expandAlias? types t = none) (hparts : relateParts? r s t = some answer)
    (hanswer : answer = true) : levelRelates r types s t = true := by
  rw [levelRelates, hs, ht]
  dsimp only
  rw [structureRelates_of_parts hparts, hanswer, Bool.or_true]

theorem relateParts?_union_right {ts : List TypeExpr} (hs : s.isUnion = false) :
    relateParts? r s (.union ts) = some (ts.any (r s ·)) := by
  cases s with
  | union ss => cases hs
  | _ => rfl

theorem relateParts?_intersection_left {ss : List TypeExpr} (ht : t.isUnion = false)
    (ht' : t.isIntersection = false) :
    relateParts? r (.intersection ss) t = some (ss.any (r · t)) := by
  cases t with
  | union ts => cases ht
  | intersection ts => cases ht'
  | _ => rfl

/-- Types that are related by their shapes alone. -/
def isShaped : TypeExpr → Bool
  | .readonly _ => true
  | t => t.isStructured

theorem isShaped_of_isStructured (h : t.isStructured = true) : isShaped t = true := by
  cases t with
  | readonly operand => rfl
  | _ => exact h

theorem expandAlias?_of_isShaped (h : isShaped t = true) : expandAlias? types t = none := by
  unfold expandAlias?
  split
  · cases h
  · rfl

theorem relateParts?_of_isShaped (hs : isShaped s = true) (ht : isShaped t = true) :
    relateParts? r s t = none := by
  unfold relateParts?
  split
  · cases hs
  · cases ht
  · cases ht
  · cases hs
  · rfl

theorem relatePrimitives?_of_isShaped (hs : isShaped s = true) (ht : isShaped t = true) :
    relatePrimitives? s t = none := by
  have hnumber : isNumberOrIndex t = false := by
    cases t with
    | reference name args =>
      cases args with
      | nil => cases ht
      | cons _ _ => rfl
    | keyword word => cases ht
    | _ => rfl
  unfold relatePrimitives?
  rw [hnumber, if_neg Bool.false_ne_true]
  split
  · cases ht
  · cases ht
  · cases ht
  · cases ht
  · cases hs
  · cases hs
  · cases ht
  · cases ht
  · rfl

theorem levelRelates_of_shapes (hs : isShaped s = true) (ht : isShaped t = true)
    (h : shapeRelates r (shapeOf s) (shapeOf t) = true) : levelRelates r types s t = true := by
  have hobject : t.isKeyword .object = false := by
    cases t with
    | keyword word => cases ht
    | _ => rfl
  rw [levelRelates, expandAlias?_of_isShaped hs, expandAlias?_of_isShaped ht]
  dsimp only
  rw [structureRelates_of_no_parts (relateParts?_of_isShaped hs ht), hobject,
    relatePrimitives?_of_isShaped hs ht]
  simpa using Or.inr h

end Level

/-! ### What corresponds inside -/

theorem Correspondence.Matches.isStructured_eq {c : Correspondence} {s t : TypeExpr}
    (h : c.Matches s t) : s.isStructured = t.isStructured := by
  cases h with
  | reference hname h => cases h <;> rfl
  | _ => rfl

section Inside

variable {types : OrderedMap String TypeEntry} {R : TypeExpr → TypeExpr → Prop} {s t : TypeExpr}
  {n : Nat}

/-- The types are equal, or related with an inside that is reached within `n` levels. -/
def Within (R : TypeExpr → TypeExpr → Prop) (n : Nat) (s t : TypeExpr) : Prop :=
  s = t ∨ R s t ∧ t.levels < n

theorem within_of_mem {u v : TypeExpr} (ht : t.levels ≤ n) (hv : v ∈ t.compared) (h : R u v) :
    Within R n u v := by
  have hinside := TypeExpr.levels_inside hv
  have hstep := t.one_le_levelStep
  exact .inr ⟨h, by omega⟩

theorem matches_within (h : (compares R).Matches s t) (ht : t.levels ≤ n) :
    (compares (Within R n)).Matches s t :=
  h.imp (fun _ _ ↦ id) (fun _ _ hv ↦ within_of_mem ht hv)
    (fun _ _ _ hb hab ↦ hab.imp fun _ _ hv ↦
      within_of_mem ht (TypeExpr.compared_eq_of_function? hb ▸ hv))
    (fun _ _ hsub hab ↦ hab.imp fun _ _ hv ↦ within_of_mem ht (hsub hv))

variable (hR : IsSimulation types R)

include hR

theorem IsSimulation.operand (h : R s t) (ht : t.isStructured = true) :
    s = t ∨ (compares R).Matches s t ∧ s.formKeys = t.formKeys ∧ t.formKeys.Nodup := by
  rcases hR s t h with heq | hexchange | hseen
  · exact .inl heq
  · cases hexchange <;> cases ht
  · exact .inr ⟨hseen.matching, hseen.formKeys_eq, hseen.isTransparent.nodup_formKeys⟩

/-- What corresponds corresponds as the type of an argument. -/
theorem IsSimulation.argumentType (isRest : Bool) (h : Within R n s t) :
    Within R n (argumentType isRest s) (argumentType isRest t) := by
  rcases h with rfl | ⟨h, hn⟩
  · exact .inl rfl
  cases isRest with
  | false => exact .inr ⟨h, hn⟩
  | true =>
  rcases hR s t h with rfl | hexchange | ⟨hmatching, htransparent, -⟩
  · exact .inl rfl
  · cases hexchange <;> exact .inr ⟨h, hn⟩
  cases hmatching with
  | array hinside => exact within_of_mem (Nat.le_of_lt hn) (List.mem_singleton_self _) hinside
  | reference hname hargs =>
    cases hname
    cases hargs with
    | nil => exact .inl rfl
    | cons hab hargs =>
      cases hargs with
      | nil =>
        have hinside : Within R n _ _ := within_of_mem (Nat.le_of_lt hn) List.mem_cons_self hab
        simp only [Relation.argumentType, shapeOf, if_true]
        split_ifs
        · exact hinside
        · exact hinside
        · exact .inr ⟨h, hn⟩
      | cons _ _ => exact .inr ⟨h, hn⟩
  | @readonly u v hinside =>
    have hlevels : v.levels < n := by
      have hv : v ∈ (TypeExpr.readonly v).compared := List.mem_singleton_self v
      have := TypeExpr.levels_inside hv
      omega
    rcases hR.operand hinside htransparent with rfl | ⟨hmatching, -⟩
    · exact .inl rfl
    cases hmatching with
    | array hinner => exact within_of_mem (Nat.le_of_lt hlevels) (List.mem_singleton_self _) hinner
    | _ => exact .inr ⟨h, hn⟩
  | _ => exact .inr ⟨h, hn⟩

end Inside

/-! ### All levels -/

section Levels

variable {types : OrderedMap String TypeEntry} {R : TypeExpr → TypeExpr → Prop} {s t x y : TypeExpr}
  {n p : Nat}

def OrEqual (R : TypeExpr → TypeExpr → Prop) (s t : TypeExpr) : Prop := s = t ∨ R s t

theorem forall₂_orEqual_self (ts : List TypeExpr) : List.Forall₂ (OrEqual R) ts ts :=
  List.forall₂_same.2 fun _ _ ↦ .inl rfl

/-- What assignability finds of a relation within `n` levels: its pairs, the parts of a union in the
union, and an intersection in the parts of it. -/
structure Reaches (types : OrderedMap String TypeEntry) (R : TypeExpr → TypeExpr → Prop) (n : Nat) :
    Prop where
  pair {s t : TypeExpr} : R s t → t.levels < n → assignableWithin types n s t = true
  intoUnion {p : Nat} {x y t : TypeExpr} : OrEqual R x y → Combination.union.PartAt p y t →
    (∀ q z, Combination.union.PartAt q z t → expandAlias? types z = none) → p + y.levels < n →
      assignableWithin types n x t = true
  fromIntersection {p : Nat} {x s t : TypeExpr} : OrEqual R x t →
    Combination.intersection.PartAt p x s →
    (∀ q z, Combination.intersection.PartAt q z t → expandAlias? types z = none ∧
      z.isUnion = false) → p + t.levels < n → assignableWithin types n s t = true

theorem reaches_zero : Reaches types R 0 where
  pair _ h := absurd h (Nat.not_lt_zero _)
  intoUnion _ _ _ h := absurd h (Nat.not_lt_zero _)
  fromIntersection _ _ _ h := absurd h (Nat.not_lt_zero _)

theorem Reaches.within (ih : Reaches types R n) (h : Within R n s t) :
    assignableWithin types n s t = true := by
  rcases h with rfl | ⟨h, hn⟩
  · exact assignableWithin_self types n s
  · exact ih.pair h hn

theorem assignableWithin_of_level
    (h : levelRelates (assignableWithin types n) types s t = true) :
    assignableWithin types (n + 1) s t = true := by
  rw [assignableWithin, h, Bool.or_true]

variable (hR : IsSimulation types R)

include hR

theorem IsSimulation.expandAlias?_eq_none (h : OrEqual R x y)
    (hy : expandAlias? types y = none) : expandAlias? types x = none := by
  rcases h with rfl | h
  · exact hy
  rcases hR x y h with rfl | hexchange | hseen
  · exact hy
  · cases hexchange with
    | index => rfl
    | number => exact expandAlias?_index types
  · cases hseen.matching with
    | reference hname hargs =>
      cases hname
      cases hargs with
      | nil => exact hy
      | cons _ _ => rfl
    | _ => rfl

theorem IsSimulation.union_left {xs : List TypeExpr} (h : OrEqual R (.union xs) y) :
    ∃ ys, y = .union ys ∧ List.Forall₂ (OrEqual R) xs ys := by
  rcases h with rfl | h
  · exact ⟨xs, rfl, forall₂_orEqual_self xs⟩
  rcases hR _ y h with rfl | hexchange | hseen
  · exact ⟨xs, rfl, forall₂_orEqual_self xs⟩
  · cases hexchange
  · cases hseen.matching with
    | union hinside => exact ⟨_, rfl, hinside.imp fun _ _ ↦ .inr⟩

theorem IsSimulation.intersection_right {ts : List TypeExpr} (h : OrEqual R x (.intersection ts)) :
    ∃ xs, x = .intersection xs ∧ List.Forall₂ (OrEqual R) xs ts := by
  rcases h with rfl | h
  · exact ⟨ts, rfl, forall₂_orEqual_self ts⟩
  rcases hR x _ h with rfl | hexchange | hseen
  · exact ⟨ts, rfl, forall₂_orEqual_self ts⟩
  · cases hexchange
  · cases hseen.matching with
    | intersection hinside => exact ⟨_, rfl, hinside.imp fun _ _ ↦ .inr⟩

theorem Reaches.structured (ih : Reaches types R n) (h : (compares R).Matches s t)
    (ht : t.isStructured = true) (hkeys : s.formKeys = t.formKeys) (hnodup : t.formKeys.Nodup)
    (hn : t.levels ≤ n) : shapeRelates (assignableWithin types n) (shapeOf s) (shapeOf t) = true ∧
      shapeRelates (assignableWithin types n) (shapeOf (.readonly s)) (shapeOf (.readonly t)) =
        true := by
  have hr (u v : TypeExpr) (huv : Within R n u v) : assignableWithin types n u v = true :=
    ih.within huv
  have hargument (isRest : Bool) (u v : TypeExpr) (huv : Within R n u v) :
      Within R n (argumentType isRest u) (argumentType isRest v) :=
    hR.argumentType isRest huv
  have hwithin := matches_within h hn
  exact ⟨shapeRelates_of_matches hr hargument hwithin ht hkeys hnodup,
    shapeRelates_readonly_of_matches hr hargument hwithin ht hkeys hnodup⟩

theorem Reaches.pair_succ (ih : Reaches types R n) (h : R s t) (hn : t.levels < n + 1) :
    assignableWithin types (n + 1) s t = true := by
  rcases hR s t h with rfl | hexchange | ⟨hmatching, htransparent, hkeys⟩
  · exact assignableWithin_self types (n + 1) s
  · exact assignableWithin_of_level (levelRelates_of_exchange hexchange)
  have hstructured (ht : t.isStructured = true) : assignableWithin types (n + 1) s t = true :=
    assignableWithin_of_level (levelRelates_of_shapes
      (isShaped_of_isStructured (hmatching.isStructured_eq.trans ht)) (isShaped_of_isStructured ht)
      (ih.structured hR hmatching ht hkeys htransparent.nodup_formKeys (Nat.lt_succ_iff.1 hn)).1)
  cases hmatching with
  | keyword word => exact assignableWithin_self types (n + 1) _
  | literal value => exact assignableWithin_self types (n + 1) _
  | reference hname hargs =>
    cases hname
    cases hargs with
    | nil => exact assignableWithin_self types (n + 1) _
    | cons _ _ => exact hstructured rfl
  | @union ss ts hinside =>
    refine assignableWithin_of_level (levelRelates_of_parts rfl rfl rfl ?_)
    rw [List.all_eq_true]
    intro x hx
    obtain ⟨y, hy, hxy⟩ := exists_mem_right hinside hx
    have hlevels : y.levels + 2 ≤ _ := TypeExpr.levels_inside (t := .union ts) hy
    exact ih.intoUnion (.inr hxy) (.member hy (.here y)) htransparent (by omega)
  | @intersection ss ts hinside =>
    refine assignableWithin_of_level (levelRelates_of_parts rfl rfl rfl ?_)
    rw [List.all_eq_true]
    intro y hy
    obtain ⟨x, hx, hxy⟩ := exists_mem_left hinside hy
    have hlevels : y.levels + 2 ≤ _ := TypeExpr.levels_inside (t := .intersection ts) hy
    exact ih.fromIntersection (.inr hxy) (.member hx (.here x))
      (fun q z hz ↦ htransparent (q + 1) z (.member hy hz)) (by omega)
  | keyOf hinside => exact htransparent.elim
  | @readonly u v hinside =>
    have hlevels : v.levels + 1 ≤ _ :=
      TypeExpr.levels_inside (t := .readonly v) (List.mem_singleton_self v)
    rcases hR.operand hinside htransparent with rfl | ⟨hmatching, hkeys, hnodup⟩
    · exact assignableWithin_self types (n + 1) _
    · exact assignableWithin_of_level (levelRelates_of_shapes rfl rfl
        (ih.structured hR hmatching htransparent hkeys hnodup (by omega)).2)
  | _ => exact hstructured rfl

theorem Reaches.intoUnion_succ (ih : Reaches types R n)
    (hpair : R x t → t.levels < n + 1 → assignableWithin types (n + 1) x t = true)
    (hxy : OrEqual R x y) (hy : Combination.union.PartAt p y t)
    (ht : ∀ q z, Combination.union.PartAt q z t → expandAlias? types z = none)
    (hn : p + y.levels < n + 1) : assignableWithin types (n + 1) x t = true := by
  have hxplain : expandAlias? types x = none := hR.expandAlias?_eq_none hxy (ht p y hy)
  have htplain : expandAlias? types t = none := ht 0 t (.here t)
  cases hx : x.isUnion with
  | true =>
    -- Each member of the source goes to the member of the target that it corresponds to.
    obtain ⟨xs, rfl⟩ : ∃ xs, x = .union xs := by
      cases x with
      | union xs => exact ⟨xs, rfl⟩
      | _ => cases hx
    obtain ⟨ys, rfl, hinside⟩ := hR.union_left hxy
    refine assignableWithin_of_level (levelRelates_of_parts hxplain htplain rfl ?_)
    rw [List.all_eq_true]
    intro x hx
    obtain ⟨y, hymem, hxy⟩ := exists_mem_right hinside hx
    have hlevels : y.levels + 2 ≤ _ := TypeExpr.levels_inside (t := .union ys) hymem
    exact ih.intoUnion hxy (Combination.PartAt.inside (c := .union) hy hymem) ht (by omega)
  | false =>
    cases hy with
    | here =>
      rcases hxy with rfl | hxy
      · exact assignableWithin_self types (n + 1) x
      · exact hpair hxy (by omega)
    | @member p _ m ts hm hy =>
      refine assignableWithin_of_level
        (levelRelates_of_parts hxplain htplain (relateParts?_union_right hx) ?_)
      rw [List.any_eq_true]
      exact ⟨m, hm, ih.intoUnion hxy hy (fun q z hz ↦ ht (q + 1) z (.member hm hz)) (by omega)⟩

theorem Reaches.fromIntersection_succ (ih : Reaches types R n)
    (hpair : R s t → t.levels < n + 1 → assignableWithin types (n + 1) s t = true)
    (hxt : OrEqual R x t) (hx : Combination.intersection.PartAt p x s)
    (ht : ∀ q z, Combination.intersection.PartAt q z t → expandAlias? types z = none ∧
      z.isUnion = false) (hn : p + t.levels < n + 1) :
    assignableWithin types (n + 1) s t = true := by
  obtain ⟨htplain, htunion⟩ := ht 0 t (.here t)
  cases htinter : t.isIntersection with
  | true =>
    -- Each member of the target is found in the source at the member that it corresponds to.
    obtain ⟨ts, rfl⟩ : ∃ ts, t = .intersection ts := by
      cases t with
      | intersection ts => exact ⟨ts, rfl⟩
      | _ => cases htinter
    obtain ⟨xs, rfl, hinside⟩ := hR.intersection_right hxt
    obtain ⟨ss, rfl⟩ : ∃ ss, s = .intersection ss := by
      cases hx with
      | here => exact ⟨xs, rfl⟩
      | member _ _ => exact ⟨_, rfl⟩
    refine assignableWithin_of_level (levelRelates_of_parts rfl htplain rfl ?_)
    rw [List.all_eq_true]
    intro y hy
    obtain ⟨x, hxmem, hxy⟩ := exists_mem_left hinside hy
    have hlevels : y.levels + 2 ≤ _ := TypeExpr.levels_inside (t := .intersection ts) hy
    exact ih.fromIntersection hxy (Combination.PartAt.inside (c := .intersection) hx hxmem)
      (fun q z hz ↦ ht (q + 1) z (.member hy hz)) (by omega)
  | false =>
    cases hx with
    | here =>
      rcases hxt with rfl | hxt
      · exact assignableWithin_self types (n + 1) _
      · exact hpair hxt (by omega)
    | @member p _ m ss hm hx =>
      refine assignableWithin_of_level (levelRelates_of_parts rfl htplain
        (relateParts?_intersection_left htunion htinter) ?_)
      rw [List.any_eq_true]
      exact ⟨m, hm, ih.fromIntersection hxt hx ht (by omega)⟩

theorem IsSimulation.reaches (n : Nat) : Reaches types R n := by
  induction n with
  | zero => exact reaches_zero
  | succ n ih =>
    -- A part at no distance is a pair again, so the pairs of this level come first.
    exact {
      pair := ih.pair_succ hR
      intoUnion := ih.intoUnion_succ hR (ih.pair_succ hR)
      fromIntersection := ih.fromIntersection_succ hR (ih.pair_succ hR) }

/-- The pairs of a simulation are assignable if the levels reach what is inside. -/
theorem IsSimulation.assignableWithin (h : R s t) (hn : t.levels < n) :
    assignableWithin types n s t = true :=
  (hR.reaches n).pair h hn

/-- Signatures that match in the types of a simulation cover one another. -/
theorem IsSimulation.signatureCovers {a b : Signature}
    (h : SignatureMatches R (namedFor a b) b) (hn : b.levels < n) :
    signatureCovers (Relation.assignableWithin types n) a b = true := by
  refine signatureCovers_of_matches (fun _ _ ↦ (hR.reaches n).within)
    (fun isRest _ _ ↦ hR.argumentType isRest) (h.imp fun u v hv huv ↦ .inr ⟨huv, ?_⟩)
  have hle := greatest_le_iff.1 (Nat.le_refl b.levels) _ (List.mem_map_of_mem hv)
  exact Nat.lt_of_le_of_lt hle hn

end Levels

end Relation
end TypeSurface
