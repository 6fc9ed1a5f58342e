import TypeSurface.Proofs.Merge.Accounting
import TypeSurface.Proofs.Relation.Reflexivity

/-!
# Serving the users of the base

A merge without conflicts serves everyone who was written against the base, and declares everything
as the extension declares it.
-/

namespace TypeSurface
namespace Merge

section Serves

variable (table : OrderedMap String TypeEntry)

/-- Whether a body of the same kind can stand where another one was: a value for a value of a wider
type, overloads for overloads that they cover. -/
def BodyServes (old new : MemberBody) : Prop :=
  match old, new with
  | .property t, .property u => Relation.isAssignable table u t = true
  | .index _ _ t, .index _ _ u => Relation.isAssignable table u t = true
  | .method os, .method ns => Relation.overloadsCover (Relation.isAssignable table) ns os = true
  | .call os, .call ns => Relation.overloadsCover (Relation.isAssignable table) ns os = true
  | .construct os, .construct ns =>
    Relation.overloadsCover (Relation.isAssignable table) ns os = true
  | _, _ => False

/-- Whether users of the one member are served by the other: it is there whenever the old one was,
and cannot be written to where the old one could not. -/
structure MemberServes (old new : Member) : Prop where
  body : BodyServes table old.body new.body
  isOptional : new.isOptional = true → old.isOptional = true
  isReadonly : old.body.overloads? = none → old.isReadonly = true → new.isReadonly = true

structure InterfaceServes (old new : Interface) : Prop where
  typeParams : new.typeParams.map TypeParam.name = old.typeParams.map TypeParam.name
  heritage : ∀ t ∈ old.heritage, t ∈ new.heritage
  members : ∀ key m, old.members.get? key = some m →
    ∃ n, new.members.get? key = some n ∧ MemberServes table m n

/-- Whether everyone who was written against `base` is served by `surface`. -/
structure Serves (base surface : Declarations) : Prop where
  interfaces : ∀ name i, base.types.get? name = some (.interface i) →
    ∃ j, surface.types.get? name = some (.interface j) ∧ InterfaceServes table i j
  aliases : ∀ name a, base.types.get? name = some (.typeAlias a) →
    ∃ b, surface.types.get? name = some (.typeAlias b) ∧ b.typeParams = a.typeParams ∧
      b.type = a.type
  vars : ∀ name v, base.values.get? name = some (.variable v) →
    ∃ w, surface.values.get? name = some (.variable w) ∧ w.kind = v.kind ∧ w.type = v.type
  functions : ∀ name f, base.values.get? name = some (.function f) →
    ∃ g, surface.values.get? name = some (.function g) ∧
      Relation.overloadsCover (Relation.isAssignable table) g.overloads f.overloads = true

/-- Whether `surface` holds what `extension` declares as it is declared there. -/
structure Realizes (extension surface : Declarations) : Prop where
  members : ∀ name i, extension.types.get? name = some (.interface i) →
    ∃ j, surface.types.get? name = some (.interface j) ∧
      ∀ key m, i.members.get? key = some m → j.members.get? key = some m
  aliases : ∀ name a, extension.types.get? name = some (.typeAlias a) →
    ∃ b, surface.types.get? name = some (.typeAlias b) ∧ b.typeParams = a.typeParams ∧
      b.type = a.type
  vars : ∀ name v, extension.values.get? name = some (.variable v) →
    ∃ w, surface.values.get? name = some (.variable w) ∧ w.kind = v.kind ∧ w.type = v.type

end Serves

section Members

variable {table : OrderedMap String TypeEntry}

theorem bodyServes_self (body : MemberBody) : BodyServes table body body := by
  cases body with
  | property t => exact Relation.isAssignable_self table t
  | index keyName keyType t => exact Relation.isAssignable_self table t
  | method overloads =>
    exact Relation.overloadsCover_self (Relation.isAssignable_self table) overloads
  | call overloads =>
    exact Relation.overloadsCover_self (Relation.isAssignable_self table) overloads
  | construct overloads =>
    exact Relation.overloadsCover_self (Relation.isAssignable_self table) overloads

theorem memberServes_self (m : Member) : MemberServes table m m :=
  ⟨bodyServes_self m.body, id, fun _ ↦ id⟩

theorem memberServes_of_hasSameShape {m n : Member} (h : m.hasSameShape n = true) :
    MemberServes table m n := by
  simp only [Member.hasSameShape, Bool.and_eq_true, decide_eq_true_eq, beq_iff_eq] at h
  obtain ⟨⟨⟨-, hbody⟩, hreadonly⟩, hoptional⟩ := h
  refine ⟨hbody ▸ bodyServes_self m.body, ?_, ?_⟩
  · rw [hoptional]
    exact id
  · rw [hreadonly]
    exact fun _ ↦ id

/-- A member that is accepted serves the users of the one in whose place it stands. -/
theorem memberServes_of_member? {base extension m : Member}
    (h : member? table .replace base extension = some m) : MemberServes table base extension := by
  cases makesMember_of_member? h with
  | same hshape => exact memberServes_of_hasSameShape hshape
  | property hb he hoptional hreadonly hassignable =>
    refine ⟨?_, hoptional, fun _ ↦ hreadonly⟩
    rw [hb, he]
    exact hassignable
  | index hb he hoptional hreadonly hassignable =>
    refine ⟨?_, hoptional, fun _ ↦ hreadonly⟩
    rw [hb, he]
    exact hassignable
  | @covered k _ _ hb he hoptional hcovers =>
    refine ⟨?_, hoptional, fun hvalue ↦ ?_⟩
    · rw [hb, he]
      cases k <;> exact hcovers
    · rw [hb] at hvalue
      cases k <;> cases hvalue

theorem interfaceServes_self (i : Interface) : InterfaceServes table i i :=
  ⟨rfl, fun _ ↦ id, fun _ m hm ↦ ⟨m, hm, memberServes_self m⟩⟩

end Members

section Clean

variable {base extension surface : Declarations}

/-- A merge that reports no conflict had no clash. -/
theorem not_isClash_of_clean {merged : Merged Declarations}
    (h : IsAccounted base extension merged) (hclean : merged.conflicts = []) (c : Clash) :
    ¬IsClash (aliases base.types extension.types) base extension c := by
  obtain ⟨cs, hconflicts, -, -, hmem⟩ := h.conflicts
  have hnil : cs = [] := by
    rw [hclean] at hconflicts
    exact List.map_eq_nil_iff.1 hconflicts.symm
  intro hc
  have := (hmem c).2 hc
  simp [hnil] at this

/-- Without clashes, every member that both declare is accepted. -/
theorem member?_of_not_isClash {table : OrderedMap String TypeEntry}
    (hno : ∀ c, ¬IsClash table base extension c) {name : String} {b e : Interface}
    (hb : base.types.get? name = some (.interface b))
    (he : extension.types.get? name = some (.interface e)) {key : MemberKey} {x y : Member}
    (hx : b.members.get? key = some x) (hy : e.members.get? key = some y) :
    ∃ m, member? table .replace x y = some m := by
  refine Option.ne_none_iff_exists'.1 ?_
  intro hnone
  exact hno (.member name b e key x y) ⟨hb, he, hx, hy, hnone⟩

theorem interfaceServes_of_meet {table : OrderedMap String TypeEntry}
    (hno : ∀ c, ¬IsClash table base extension c) {name : String} {b e i : Interface}
    (hb : base.types.get? name = some (.interface b))
    (he : extension.types.get? name = some (.interface e)) (hi : InterfaceMeet table b e i) :
    InterfaceServes table b i := by
  refine ⟨by rw [hi.typeParams], ?_, ?_⟩
  · intro t ht
    rw [hi.heritage]
    exact List.mem_append_left _ ht
  · intro key m hm
    cases hy : e.members.get? key with
    | none => exact ⟨m, by rw [hi.members.base_only key hy, hm], memberServes_self m⟩
    | some y =>
      obtain ⟨n, hn, hmeet⟩ := hi.members.both key m y hm hy
      obtain ⟨_, haccepted⟩ := member?_of_not_isClash hno hb he hm hy
      have hny : n = y := by simpa [MemberMeet, haccepted] using hmeet
      exact ⟨n, hn, hny ▸ memberServes_of_member? haccepted⟩

/-- Under one name, one side is an interface and the other an alias: that would be a clash. -/
theorem not_typeKind_clash {table : OrderedMap String TypeEntry}
    (hno : ∀ c, ¬IsClash table base extension c) {name : String} {b e : TypeEntry}
    (hb : base.types.get? name = some b) (he : extension.types.get? name = some e) :
    b.interface?.isSome = e.interface?.isSome := by
  by_contra hne
  exact hno (.typeKind name b e) ⟨hb, he, hne⟩

theorem not_value_clash {table : OrderedMap String TypeEntry}
    (hno : ∀ c, ¬IsClash table base extension c) {name : String} {b e : ValueEntry}
    (hb : base.values.get? name = some b) (he : extension.values.get? name = some e) :
    ¬ValuesDiffer table b e :=
  fun hdiffer ↦ hno (.value name b e) ⟨hb, he, hdiffer⟩

theorem serves_of_clean {merged : Merged Declarations} (h : IsAccounted base extension merged)
    (hclean : merged.conflicts = []) :
    Serves (aliases base.types extension.types) base merged.value := by
  have hno := not_isClash_of_clean h hclean
  refine ⟨?_, ?_, ?_, ?_⟩
  · intro name b hb
    cases he : extension.types.get? name with
    | none => exact ⟨b, by rw [h.types.base_only name he, hb], interfaceServes_self b⟩
    | some entry =>
      obtain ⟨m, hm, hmeet⟩ := h.types.both name _ _ hb he
      cases entry with
      | interface e =>
        obtain ⟨i, rfl, hi⟩ := hmeet
        exact ⟨i, hm, interfaceServes_of_meet hno hb he hi⟩
      | typeAlias a => simpa [TypeEntry.interface?] using not_typeKind_clash hno hb he
  · intro name a ha
    cases he : extension.types.get? name with
    | none => exact ⟨a, by rw [h.types.base_only name he, ha], rfl, rfl⟩
    | some entry =>
      obtain ⟨m, hm, hmeet⟩ := h.types.both name _ _ ha he
      cases entry with
      | interface e => simpa [TypeEntry.interface?] using not_typeKind_clash hno ha he
      | typeAlias b =>
        cases hmeet
        exact ⟨a, hm, rfl, rfl⟩
  · intro name v hv
    cases he : extension.values.get? name with
    | none => exact ⟨v, by rw [h.values.base_only name he, hv], rfl, rfl⟩
    | some entry =>
      obtain ⟨m, hm, hmeet⟩ := h.values.both name _ _ hv he
      rcases entry with w | g
      · cases hmeet
        exact ⟨v, hm, rfl, rfl⟩
      · exact absurd trivial (not_value_clash hno hv he)
  · intro name f hf
    cases he : extension.values.get? name with
    | none =>
      exact ⟨f, by rw [h.values.base_only name he, hf],
        Relation.overloadsCover_self (Relation.isAssignable_self _) f.overloads⟩
    | some entry =>
      obtain ⟨m, hm, hmeet⟩ := h.values.both name _ _ hf he
      rcases entry with w | g
      · exact absurd trivial (not_value_clash hno hf he)
      · have hcover := not_value_clash hno hf he
        simp only [ValuesDiffer, Bool.not_eq_false] at hcover
        have hmg : m = .function g := by simpa [ValueMeet, hcover] using hmeet
        exact ⟨g, hmg ▸ hm, hcover⟩

theorem realizes_of_clean {merged : Merged Declarations} (h : IsAccounted base extension merged)
    (hclean : merged.conflicts = []) : Realizes extension merged.value := by
  have hno := not_isClash_of_clean h hclean
  refine ⟨?_, ?_, ?_⟩
  · intro name e he
    cases hb : base.types.get? name with
    | none => exact ⟨e, by rw [h.types.extension_only name hb, he], fun _ _ ↦ id⟩
    | some entry =>
      obtain ⟨m, hm, hmeet⟩ := h.types.both name _ _ hb he
      cases entry with
      | typeAlias a => simpa [TypeEntry.interface?] using not_typeKind_clash hno hb he
      | interface b =>
        obtain ⟨i, rfl, hi⟩ := hmeet
        refine ⟨i, hm, ?_⟩
        intro key y hy
        cases hx : b.members.get? key with
        | none => rw [hi.members.extension_only key hx, hy]
        | some x =>
          obtain ⟨n, hn, hmeet⟩ := hi.members.both key x y hx hy
          obtain ⟨_, haccepted⟩ := member?_of_not_isClash hno hb he hx hy
          have hny : n = y := by simpa [MemberMeet, haccepted] using hmeet
          rw [hn, hny]
  · intro name a ha
    cases hb : base.types.get? name with
    | none => exact ⟨a, by rw [h.types.extension_only name hb, ha], rfl, rfl⟩
    | some entry =>
      obtain ⟨m, hm, hmeet⟩ := h.types.both name _ _ hb ha
      cases entry with
      | interface i => simpa [TypeEntry.interface?] using not_typeKind_clash hno hb ha
      | typeAlias b =>
        cases hmeet
        have hsame : b.typeParams = a.typeParams ∧ b.type = a.type := by
          by_contra hne
          exact hno (.typeAlias name b a) ⟨hb, ha, hne⟩
        exact ⟨b, hm, hsame⟩
  · intro name w hw
    cases hb : base.values.get? name with
    | none => exact ⟨w, by rw [h.values.extension_only name hb, hw], rfl, rfl⟩
    | some entry =>
      obtain ⟨m, hm, hmeet⟩ := h.values.both name _ _ hb hw
      rcases entry with v | f
      · cases hmeet
        have hsame := not_value_clash hno hb hw
        simp only [ValuesDiffer, not_or, not_not] at hsame
        exact ⟨v, hm, hsame⟩
      · exact absurd trivial (not_value_clash hno hb hw)

end Clean

end Merge
end TypeSurface
