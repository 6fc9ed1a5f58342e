import TypeSurface.Proofs.Relation.Simulation

/-!
# `number` and the index type

Types that differ only in which of `number` and `int` they say are assignable to one another, except
in two places.  The index members of object types are matched by the text of their key types, and a
target union inside an intersection is settled before the members of the source are gone through.
-/

namespace TypeSurface
namespace Relation

/-- Signatures that match and name their type parameters in the same way. -/
def NamesMatch (R : TypeExpr → TypeExpr → Prop) (a b : Signature) : Prop :=
  a.typeParams.map TypeParam.name = b.typeParams.map TypeParam.name ∧ SignatureMatches R a b

/-- The parts of types that have the same names for everything. -/
def sameNames (R : TypeExpr → TypeExpr → Prop) : Correspondence where
  names := Eq
  types := R
  functions := NamesMatch R
  methods := NamesMatch R

/-- The types are equal but for `number` and the index type, which may stand for one another at any
number of places, and are nested less than a number of times.  `P` is asked of the two types and of
all types inside them that correspond. -/
def ExchangedWithin (P : TypeExpr → TypeExpr → Prop) : Nat → TypeExpr → TypeExpr → Prop
  | 0, _, _ => False
  | n + 1, s, t => IsExchange s t ∨ P s t ∧ (sameNames (ExchangedWithin P n)).Matches s t

def Exchanged (P : TypeExpr → TypeExpr → Prop) (s t : TypeExpr) : Prop :=
  ∃ n, ExchangedWithin P n s t

/-- The operators and object types that the relation can look into: no `keyof`, `readonly` in front
of arrays, tuples or other structured types only, no two members under one key. -/
def IsTame : TypeExpr → Prop
  | .keyOf _ => False
  | .readonly operand => operand.isStructured = true
  | .object members => (members.map formKey).Nodup
  | _ => True

/-- An intersection with a union among its members, or among members of them. -/
def HoldsUnion (t : TypeExpr) : Prop :=
  t.isIntersection = true ∧ ∃ p y, Combination.intersection.PartAt p y t ∧ y.isUnion = true

/-- Where something is exchanged, the keys of index members are kept and no intersection holds a
union. -/
def IsUnobstructed (s t : TypeExpr) : Prop :=
  s = t ∨ s.indexKeys = t.indexKeys ∧ ¬HoldsUnion s ∧ ¬HoldsUnion t

section Exchange

variable {P P' : TypeExpr → TypeExpr → Prop} {s t : TypeExpr} {n : Nat}

theorem IsExchange.symm (h : IsExchange s t) : IsExchange t s := by
  cases h with
  | index => exact .number
  | number => exact .index

theorem ExchangedWithin.symm (hP : ∀ s t, P s t → P t s) (h : ExchangedWithin P n s t) :
    ExchangedWithin P n t s := by
  induction n generalizing s t with
  | zero => exact h.elim
  | succ n ih =>
    rcases h with h | ⟨hhere, h⟩
    · exact .inl h.symm
    · have hsignature (a b : Signature) (hab : NamesMatch (ExchangedWithin P n) a b) :
          NamesMatch (ExchangedWithin P n) b a :=
        ⟨hab.1.symm, hab.2.swap fun _ _ ↦ ih⟩
      exact .inr ⟨hP s t hhere,
        h.swap (fun _ _ ↦ Eq.symm) (fun _ _ ↦ ih) hsignature hsignature⟩

theorem ExchangedWithin.height_eq {step : TypeExpr → Nat} (h : ExchangedWithin P n s t)
    (hstep : ∀ (c : Correspondence) s t, c.Matches s t → step s = step t) :
    s.height step = t.height step := by
  induction n generalizing s t with
  | zero => exact h.elim
  | succ n ih =>
    rcases h with h | ⟨-, h⟩
    · rw [TypeExpr.height_eq, TypeExpr.height_eq]
      cases h <;> rfl
    · exact height_eq_of_forall₂ (hstep _ s t h) (h.compared (fun _ _ ↦ ih)
        (fun _ _ h ↦ h.2.imp fun _ _ _ ↦ ih) fun _ _ h ↦ h.2.imp fun _ _ _ ↦ ih)

theorem ExchangedWithin.isStructured_eq (h : ExchangedWithin P n s t) :
    s.isStructured = t.isStructured := by
  cases n with
  | zero => exact h.elim
  | succ n =>
    rcases h with h | ⟨-, h⟩
    · cases h <;> rfl
    · exact h.isStructured_eq

end Exchange

instance : DecidablePred IsTame := fun t ↦ by
  unfold IsTame
  split <;> infer_instance

theorem isTransparent_of_isTame {t : TypeExpr} (h : IsTame t) (hunion : ¬HoldsUnion t) :
    IsTransparent .empty t := by
  cases t with
  | union ts => exact fun p y _ ↦ expandAlias?_empty y
  | intersection ts =>
    refine fun p y hy ↦ ⟨expandAlias?_empty y, Bool.eq_false_iff.2 fun hy' ↦ ?_⟩
    exact hunion ⟨rfl, p, y, hy, hy'⟩
  | keyOf operand => exact h
  | readonly operand => exact h
  | object members => exact h
  | _ => trivial

theorem isTame_of_matches {P : TypeExpr → TypeExpr → Prop} {n : Nat} {s t : TypeExpr}
    (h : (sameNames (ExchangedWithin P n)).Matches s t) (ht : IsTame t)
    (hkeys : s.indexKeys = t.indexKeys) : IsTame s := by
  have hformKeys := h.formKeys_eq hkeys
  cases h with
  | keyOf hinside => exact ht
  | readonly hinside => exact (ExchangedWithin.isStructured_eq hinside).trans ht
  | object hinside =>
    change (TypeExpr.formKeys (.object _)).Nodup
    rw [hformKeys]
    exact ht
  | _ => trivial

/-- The two types are equal, or the relation can look into each of them for the other. -/
def IsOpen (s t : TypeExpr) : Prop :=
  s = t ∨ IsTransparent .empty s ∧ IsTransparent .empty t ∧ s.indexKeys = t.indexKeys

theorem IsOpen.symm {s t : TypeExpr} (h : IsOpen s t) : IsOpen t s := by
  rcases h with rfl | ⟨hs, ht, hkeys⟩
  · exact .inl rfl
  · exact .inr ⟨ht, hs, hkeys.symm⟩

theorem ExchangedWithin.isOpen {n : Nat} {s t : TypeExpr} (h : ExchangedWithin IsUnobstructed n s t)
    (ht : t.All IsTame) : ExchangedWithin IsOpen n s t := by
  induction n generalizing s t with
  | zero => exact h.elim
  | succ n ih =>
    rcases h with h | ⟨hhere, h⟩
    · exact .inl h
    have hinside {u v : TypeExpr} (hv : v ∈ t.compared)
        (huv : ExchangedWithin IsUnobstructed n u v) : ExchangedWithin IsOpen n u v :=
      ih huv (ht.child (t.compared_subset_children hv))
    refine .inr ⟨?_, h.imp (fun _ _ ↦ id) (fun _ _ ↦ hinside) ?_ ?_⟩
    · rcases hhere with heq | ⟨hkeys, hsunion, htunion⟩
      · exact .inl heq
      · exact .inr ⟨isTransparent_of_isTame (isTame_of_matches h ht.self hkeys) hsunion,
          isTransparent_of_isTame ht.self htunion, hkeys⟩
    · exact fun _ _ _ hb hab ↦ ⟨hab.1, hab.2.imp fun _ _ hv ↦
        hinside (TypeExpr.compared_eq_of_function? hb ▸ hv)⟩
    · exact fun _ _ hsub hab ↦ ⟨hab.1, hab.2.imp fun _ _ hv ↦ hinside (hsub hv)⟩

theorem isSimulation_exchanged : IsSimulation .empty (Exchanged IsOpen) := by
  rintro s t ⟨n, h⟩
  cases n with
  | zero => exact h.elim
  | succ n =>
    rcases h with h | ⟨rfl | ⟨-, ht, hkeys⟩, h⟩
    · exact .inr (.inl h)
    · exact .inl rfl
    have htypes (u v : TypeExpr) (huv : ExchangedWithin IsOpen n u v) : Exchanged IsOpen u v :=
      ⟨n, huv⟩
    refine .inr (.inr ⟨h.imp (fun _ _ ↦ id) (fun u v _ ↦ htypes u v) ?_ ?_, ht,
      h.formKeys_eq hkeys⟩)
    · exact fun _ _ _ _ hab ↦ hab.2.imp fun u v _ ↦ htypes u v
    · intro a b _ hab
      change SignatureMatches _ (namedFor a b) b
      rw [namedFor_of_names hab.1]
      exact hab.2.imp fun u v _ ↦ htypes u v

/-- Types that differ in `number` and `int` are assignable to one another, unless they differ in the
key of an index member or around a union inside an intersection. -/
theorem isAssignable_of_exchanged {s t : TypeExpr} (h : Exchanged IsUnobstructed s t)
    (htame : t.All IsTame) (hnesting : t.nesting < maxRelationDepth / 2) :
    isAssignable .empty s t = true ∧ isAssignable .empty t s = true := by
  obtain ⟨n, h⟩ := h
  have hnestings : s.nesting = t.nesting := h.height_eq fun _ _ _ _ ↦ rfl
  have hreaches {u : TypeExpr} (hu : u.nesting = t.nesting) : u.levels < maxRelationDepth := by
    have hlevels := u.levels_le
    have hdepth : maxRelationDepth = 64 := rfl
    omega
  have hopen := h.isOpen htame
  exact ⟨isSimulation_exchanged.assignableWithin ⟨n, hopen⟩ (hreaches rfl),
    isSimulation_exchanged.assignableWithin ⟨n, hopen.symm fun _ _ ↦ IsOpen.symm⟩
      (hreaches hnestings)⟩

/-- `{ [place: number]: string; }`, with the key given -/
def stringsBy (key : TypeExpr) : TypeExpr :=
  .object [.index false "place" key (.keyword .string)]

/-- Object types are not assignable if the keys of their index members are exchanged. -/
theorem not_isAssignable_of_exchanged :
    ¬∀ s t : TypeExpr, Exchanged (fun _ _ ↦ True) s t → t.All IsTame →
      t.nesting < maxRelationDepth / 2 →
        isAssignable .empty s t = true ∧ isAssignable .empty t s = true := by
  intro h
  have hexchanged : Exchanged (fun _ _ ↦ True) (stringsBy (.keyword .number))
      (stringsBy Index.type) := by
    refine ⟨2, .inr ⟨trivial, .object (.cons (.index _ _ ?_ ?_) .nil)⟩⟩
    · exact .inl .index
    · exact .inr ⟨trivial, .keyword _⟩
  have htame : (stringsBy Index.type).All IsTame := by
    unfold TypeExpr.All
    decide +kernel
  have hnesting : (stringsBy Index.type).nesting < maxRelationDepth / 2 := by
    decide +kernel
  have hnot :
      isAssignable .empty (stringsBy (.keyword .number)) (stringsBy Index.type) = false := by
    decide +kernel
  have hassignable := (h _ _ hexchanged htame hnesting).1
  rw [hnot] at hassignable
  cases hassignable

/-- `(place: number, ...others: Array<number>) =>
{ size?: Named & number; [name: string]: readonly number[] | [number]; }`, with the type of numbers
given -/
def measure (number : TypeExpr) : TypeExpr :=
  .function ⟨[], [⟨"place", number, false, false⟩,
      ⟨"others", .reference "Array" [number], false, true⟩],
    .object [.property (.identifier "size") false true (.intersection [.named "Named", number]),
      .index false "name" (.keyword .string)
        (.union [.readonly (.array number), .tuple [⟨number, false, false⟩]])]⟩

theorem not_holdsUnion {ts : List TypeExpr}
    (h : ∀ t ∈ ts, t.isUnion = false ∧ t.isIntersection = false) :
    ¬HoldsUnion (.intersection ts) := by
  rintro ⟨-, p, y, hy, hunion⟩
  cases hy with
  | here => cases hunion
  | member hm hy =>
    obtain ⟨hplain, hsingle⟩ := h _ hm
    rw [hy.eq_of_not_has hsingle, hplain] at hunion
    cases hunion

/-- Where nothing is compared by its text and nothing is an intersection, nothing is obstructed. -/
theorem isUnobstructed_of_plain {s t : TypeExpr} (hkeys : s.indexKeys = t.indexKeys)
    (hs : s.isIntersection = false) (ht : t.isIntersection = false) : IsUnobstructed s t := by
  refine .inr ⟨hkeys, fun h ↦ ?_, fun h ↦ ?_⟩
  · exact Bool.false_ne_true (hs.symm.trans h.1)
  · exact Bool.false_ne_true (ht.symm.trans h.1)

theorem exchanged_measure :
    Exchanged IsUnobstructed (measure (.keyword .number)) (measure Index.type) := by
  have hnumber (n : Nat) : ExchangedWithin IsUnobstructed (n + 1) (.keyword .number) Index.type :=
    .inl .index
  have hkept (n : Nat) (word : Keyword) :
      ExchangedWithin IsUnobstructed (n + 1) (.keyword word) (.keyword word) :=
    .inr ⟨.inl rfl, .keyword word⟩
  have hsize : ExchangedWithin IsUnobstructed 4 (.intersection [.named "Named", .keyword .number])
      (.intersection [.named "Named", Index.type]) := by
    have hmembers : IsUnobstructed (.intersection [.named "Named", .keyword .number])
        (.intersection [.named "Named", Index.type]) :=
      .inr ⟨rfl, not_holdsUnion (by decide), not_holdsUnion (by decide)⟩
    exact .inr ⟨hmembers, .intersection (.cons (.inr ⟨.inl rfl, .reference rfl .nil⟩)
      (.cons (hnumber 2) .nil))⟩
  have harrays : ExchangedWithin IsUnobstructed 4
      (.union [.readonly (.array (.keyword .number)), .tuple [⟨.keyword .number, false, false⟩]])
      (.union [.readonly (.array Index.type), .tuple [⟨Index.type, false, false⟩]]) := by
    refine .inr ⟨isUnobstructed_of_plain rfl rfl rfl, .union (.cons ?_ (.cons ?_ .nil))⟩
    · refine .inr ⟨isUnobstructed_of_plain rfl rfl rfl, .readonly ?_⟩
      exact .inr ⟨isUnobstructed_of_plain rfl rfl rfl, .array (hnumber 0)⟩
    · refine .inr ⟨isUnobstructed_of_plain rfl rfl rfl, .tuple (.cons ?_ .nil)⟩
      exact ⟨hnumber 1, rfl, rfl⟩
  have hothers : ExchangedWithin IsUnobstructed 5 (.reference "Array" [.keyword .number])
      (.reference "Array" [Index.type]) :=
    .inr ⟨isUnobstructed_of_plain rfl rfl rfl, .reference rfl (.cons (hnumber 3) .nil)⟩
  refine ⟨6, .inr ⟨isUnobstructed_of_plain rfl rfl rfl, .function ⟨rfl, rfl, ?_, ?_⟩⟩⟩
  · exact .cons ⟨rfl, hnumber 4, rfl, rfl⟩ (.cons ⟨rfl, hothers, rfl, rfl⟩ .nil)
  · refine .inr ⟨isUnobstructed_of_plain rfl rfl rfl, .object (.cons ?_ (.cons ?_ .nil))⟩
    · exact .property _ _ _ hsize
    · exact .index _ _ (hkept 3 .string) harrays

theorem isAssignable_of_exchanged_measure :
    isAssignable .empty (measure (.keyword .number)) (measure Index.type) = true ∧
      isAssignable .empty (measure Index.type) (measure (.keyword .number)) = true := by
  refine isAssignable_of_exchanged exchanged_measure ?_ (by decide +kernel)
  unfold TypeExpr.All
  decide +kernel

end Relation
end TypeSurface
