import TypeSurface.Index.Basic
import TypeSurface.Proofs.Syntax.Written

/-!
# The constituents of unions

A union inside a union adds its members to those around it.  Whether a union is index valued is
decided by the constituents that are no unions themselves, at whatever level they stand, and by one
thing more: each of the unions inside has to have a constituent that is neither `undefined` nor
`null`.
-/

namespace TypeSurface
namespace Index

/-- The types that a type is a union of, at any level; a type that is no union is one itself. -/
def constituents : TypeExpr → List TypeExpr
  | .union members => members.attach.flatMap fun ⟨m, _⟩ ↦ constituents m
  | t => [t]
termination_by t => sizeOf t

/-- The unions that a type is put together from, itself included. -/
def unions : TypeExpr → List TypeExpr
  | .union members => .union members :: members.attach.flatMap fun ⟨m, _⟩ ↦ unions m
  | _ => []
termination_by t => sizeOf t

/-- What the constituents of an index-valued union may be. -/
inductive IsAdmissible : TypeExpr → Prop
  | undefined : IsAdmissible (.keyword .undefined)
  | null : IsAdmissible (.keyword .null)
  | index : IsAdmissible type
  | integral {text : String} {value : Binary64}
    (hvalue : (Literal.number text).numericValue? = some value) (h : value.isIntegral = true) :
    IsAdmissible (.literal (.number text))

/-- Whether a type has a constituent that is neither `undefined` nor `null`. -/
def HasProper (t : TypeExpr) : Prop := ∃ c ∈ constituents t, isNullish c = false

/-- Whether none of the unions among the members, at any level, is made of `undefined` and `null`
alone. -/
def AreProper (members : List TypeExpr) : Prop := ∀ m ∈ members, ∀ u ∈ unions m, HasProper u

section Constituents

variable {t c : TypeExpr} {members others : List TypeExpr}

theorem constituents_union (members : List TypeExpr) :
    constituents (.union members) = members.flatMap constituents := by
  rw [constituents]
  simp

theorem unions_union (members : List TypeExpr) :
    unions (.union members) = .union members :: members.flatMap unions := by
  rw [unions]
  simp

theorem constituents_of_not_isUnion (h : t.isUnion = false) : constituents t = [t] := by
  cases t with
  | union members => cases h
  | _ => rw [constituents]; simp

theorem unions_of_not_isUnion (h : t.isUnion = false) : unions t = [] := by
  cases t with
  | union members => cases h
  | _ => rw [unions]; simp

theorem not_isUnion_of_isNullish (h : isNullish t = true) : t.isUnion = false := by
  cases t with
  | union members => cases h
  | _ => rfl

theorem hasProper_union : HasProper (.union members) ↔ ∃ m ∈ members, HasProper m := by
  simp only [HasProper, constituents_union, List.mem_flatMap]
  constructor
  · rintro ⟨c, ⟨m, hm, hc⟩, hproper⟩
    exact ⟨m, hm, c, hc, hproper⟩
  · rintro ⟨m, hm, c, hc, hproper⟩
    exact ⟨c, ⟨m, hm, hc⟩, hproper⟩

theorem hasProper_of_not_isUnion (h : t.isUnion = false) :
    HasProper t ↔ isNullish t = false := by
  simp [HasProper, constituents_of_not_isUnion h]

/-- A member that has a proper constituent is not `undefined` or `null` itself. -/
theorem HasProper.not_isNullish (h : HasProper t) : isNullish t = false := by
  by_contra hnullish
  rw [Bool.not_eq_false] at hnullish
  rw [hasProper_of_not_isUnion (not_isUnion_of_isNullish hnullish), hnullish] at h
  cases h

end Constituents

/-! ### Types that are no unions -/

section Simple

variable {t : TypeExpr}

theorem not_isNullish_of_isIndexValued (h : isIndexValued t = true) : isNullish t = false := by
  cases t with
  | keyword word =>
    rw [isIndexValued] at h
    · cases h
    all_goals simp
  | _ => rfl

theorem isIndexType_iff : isIndexType t = true ↔ t = type := by
  unfold isIndexType TypeExpr.isReferenceTo type TypeExpr.named
  split
  · simp
  · next hno => exact ⟨nofun, fun h ↦ absurd h (hno _)⟩

/-- A type that is no union may be a constituent if it is index valued, `undefined` or `null`. -/
theorem isAdmissible_iff (h : t.isUnion = false) :
    IsAdmissible t ↔ isNullish t = true ∨ isIndexValued t = true := by
  constructor
  · rintro (_ | _ | _ | ⟨hvalue, hintegral⟩)
    · exact .inl rfl
    · exact .inl rfl
    · right
      rw [isIndexValued]
      · exact isIndexType_iff.2 rfl
      all_goals simp [type, TypeExpr.named]
    · right
      rw [isIndexValued, hvalue]
      exact hintegral
  · rintro (hnullish | hvalued)
    · cases t with
      | keyword word =>
        cases word with
        | undefined => exact .undefined
        | null => exact .null
        | _ => cases hnullish
      | _ => cases hnullish
    · cases t with
      | union members => cases h
      | literal value =>
        rw [isIndexValued, Option.any_eq_true] at hvalued
        obtain ⟨x, hx, hintegral⟩ := hvalued
        cases value with
        | number text => exact .integral hx hintegral
        | _ => cases hx
      | _ =>
        rw [isIndexValued] at hvalued
        · exact isIndexType_iff.1 hvalued ▸ .index
        all_goals simp

end Simple

/-! ### Unions -/

/-- `undefined` and `null` may be constituents and hold no union. -/
theorem admits_of_isNullish {t : TypeExpr} (h : isNullish t = true) :
    (∀ c ∈ constituents t, IsAdmissible c) ∧ ∀ u ∈ unions t, HasProper u := by
  have hsimple := not_isUnion_of_isNullish h
  rw [constituents_of_not_isUnion hsimple, unions_of_not_isUnion hsimple, List.forall_mem_singleton]
  exact ⟨(isAdmissible_iff hsimple).2 (.inl h), List.forall_mem_nil _⟩

theorem isIndexValued_iff_of_not_isUnion {t : TypeExpr} (h : t.isUnion = false) :
    isIndexValued t = true ↔
      (∀ c ∈ constituents t, IsAdmissible c) ∧ HasProper t ∧ ∀ u ∈ unions t, HasProper u := by
  rw [constituents_of_not_isUnion h, unions_of_not_isUnion h, hasProper_of_not_isUnion h,
    List.forall_mem_singleton, isAdmissible_iff h]
  constructor
  · intro hvalued
    exact ⟨.inr hvalued, not_isNullish_of_isIndexValued hvalued, List.forall_mem_nil _⟩
  · rintro ⟨hnullish | hvalued, hproper, -⟩
    · rw [hproper] at hnullish
      cases hnullish
    · exact hvalued

/-- A type is index valued if its constituents may be those of such a type and every union that it
is put together from has a proper one. -/
theorem isIndexValued_iff (t : TypeExpr) :
    isIndexValued t = true ↔
      (∀ c ∈ constituents t, IsAdmissible c) ∧ HasProper t ∧ ∀ u ∈ unions t, HasProper u := by
  induction t using TypeExpr.induction_on_children with
  | h t ih =>
    cases hunion : t.isUnion with
    | false => exact isIndexValued_iff_of_not_isUnion hunion
    | true =>
      obtain ⟨members, rfl⟩ : ∃ members, t = .union members := by
        cases t with
        | union members => exact ⟨members, rfl⟩
        | _ => cases hunion
      rw [isIndexValued_union, Bool.and_eq_true, List.all_eq_true, List.any_eq_true,
        constituents_union, unions_union, List.forall_mem_cons]
      simp only [List.mem_flatMap, Bool.or_eq_true, Bool.not_eq_true', forall_exists_index, and_imp]
      constructor
      · rintro ⟨hall, m, hm, hproper⟩
        have hadmits (n : TypeExpr) (hn : n ∈ members) :
            (∀ c ∈ constituents n, IsAdmissible c) ∧ ∀ u ∈ unions n, HasProper u :=
          (hall n hn).elim admits_of_isNullish fun h ↦ ((ih n hn).1 h).imp_right And.right
        have hvalued : isIndexValued m = true := (hall m hm).resolve_left (by simp [hproper])
        have hhas : HasProper (.union members) :=
          hasProper_union.2 ⟨m, hm, ((ih m hm).1 hvalued).2.1⟩
        exact ⟨fun c n hn ↦ (hadmits n hn).1 c, hhas, hhas, fun u n hn ↦ (hadmits n hn).2 u⟩
      · rintro ⟨hadmissible, hhas, -, hunions⟩
        obtain ⟨m, hm, hproper⟩ := hasProper_union.1 hhas
        refine ⟨fun n hn ↦ ?_, m, hm, hproper.not_isNullish⟩
        cases hsimple : n.isUnion with
        | false =>
          apply (isAdmissible_iff hsimple).1
          apply hadmissible n n hn
          rw [constituents_of_not_isUnion hsimple]
          exact List.mem_singleton_self n
        | true =>
          refine .inr ((ih n hn).2 ⟨fun c ↦ hadmissible c n hn, ?_, fun u ↦ hunions u n hn⟩)
          -- A union among the members is one of the unions that have a proper constituent.
          apply hunions n n hn
          cases n with
          | union inner => rw [unions_union]; exact List.mem_cons_self
          | _ => cases hsimple

/-- What is index valued holds no number that is none of an index. -/
theorem isPlainNumber_of_isIndexValued (t : TypeExpr) (h : isIndexValued t = true) :
    isPlainNumber t = false := by
  induction t using TypeExpr.induction_on_children with
  | h t ih =>
    cases t with
    | union members =>
      rw [isIndexValued_union, Bool.and_eq_true, List.all_eq_true] at h
      rw [isPlainNumber_union, List.any_eq_false]
      intro m hm
      rw [Bool.not_eq_true]
      rcases Bool.or_eq_true_iff.1 (h.1 m hm) with hnullish | hvalued
      · cases m with
        | keyword word =>
          cases word with
          | number => cases hnullish
          | _ => rw [isPlainNumber] <;> simp
        | _ => cases hnullish
      · exact ih m hm hvalued
    | keyword word =>
      rw [isIndexValued] at h
      · cases h
      all_goals simp
    | literal value =>
      rw [isIndexValued, Option.any_eq_true] at h
      obtain ⟨x, hx, hintegral⟩ := h
      rw [isPlainNumber, hx, Option.any_some, hintegral]
      rfl
    | _ => rw [isPlainNumber] <;> simp

/-- Whether a union is index valued depends on its constituents alone as soon as no union inside it
is made of `undefined` and `null` alone, and a union with such a union inside is not index valued.
What is index valued is no plain number. -/
theorem index_valued_by_constituents (members others : List TypeExpr) (t : TypeExpr) :
    (isIndexValued (.union members) = true ↔
      (∀ c ∈ constituents (.union members), IsAdmissible c) ∧ HasProper (.union members) ∧
        AreProper members) ∧
      (AreProper members → AreProper others →
        (∀ c, c ∈ constituents (.union members) ↔ c ∈ constituents (.union others)) →
          isIndexValued (.union members) = isIndexValued (.union others)) ∧
      (isIndexValued t = true → isPlainNumber t = false) := by
  have hiff (members : List TypeExpr) : isIndexValued (.union members) = true ↔
      (∀ c ∈ constituents (.union members), IsAdmissible c) ∧ HasProper (.union members) ∧
        AreProper members := by
    rw [isIndexValued_iff, unions_union, List.forall_mem_cons]
    simp only [AreProper, List.mem_flatMap, forall_exists_index, and_imp]
    constructor
    · rintro ⟨hadmissible, hhas, -, hunions⟩
      exact ⟨hadmissible, hhas, fun m hm u ↦ hunions u m hm⟩
    · rintro ⟨hadmissible, hhas, hproper⟩
      exact ⟨hadmissible, hhas, hhas, fun u m hm ↦ hproper m hm u⟩
  refine ⟨hiff members, fun hmembers hothers hsame ↦ ?_, isPlainNumber_of_isIndexValued t⟩
  rw [Bool.eq_iff_iff, hiff, hiff]
  simp only [HasProper, hsame, hmembers, hothers]

/-- `int | 1 | (null | int)` and `(int | null) | 1` -/
theorem index_valued_by_constituents_regrouped :
    let one : TypeExpr := .literal (.number "1")
    let null : TypeExpr := .keyword .null
    let members := [type, one, .union [null, type]]
    let others := [.union [type, null], one]
    AreProper members ∧ AreProper others ∧ isIndexValued (.union members) = true ∧
      isIndexValued (.union others) = true ∧ isPlainNumber (.union others) = false := by
  intro one null members others
  have hone : ∃ x, (Literal.number "1").numericValue? = some x ∧ x.isIntegral = true := by
    decide +kernel
  have htype : unions type = [] ∧ constituents type = [type] ∧ isNullish type = false :=
    ⟨unions_of_not_isUnion rfl, constituents_of_not_isUnion rfl, rfl⟩
  have hunits : unions one = [] ∧ unions null = [] ∧ constituents one = [one] ∧
      constituents null = [null] :=
    ⟨unions_of_not_isUnion rfl, unions_of_not_isUnion rfl, constituents_of_not_isUnion rfl,
      constituents_of_not_isUnion rfl⟩
  have hmembers : AreProper members := by
    simp [AreProper, members, HasProper, unions_union, constituents_union, htype, hunits]
  have hothers : AreProper others := by
    simp [AreProper, others, HasProper, unions_union, constituents_union, htype, hunits]
  have hadmissible : ∀ c ∈ constituents (.union members), IsAdmissible c := by
    obtain ⟨x, hx, hintegral⟩ := hone
    simp [members, constituents_union, htype, hunits, one, null, IsAdmissible.index,
      IsAdmissible.null, IsAdmissible.integral hx hintegral]
  have hhas : HasProper (.union members) := by
    simp [HasProper, members, constituents_union, htype, hunits]
  obtain ⟨hiff, hregroup, hnumber⟩ := index_valued_by_constituents members others (.union others)
  have hvalued := hiff.2 ⟨hadmissible, hhas, hmembers⟩
  have hsame := hregroup hmembers hothers fun c ↦ by
    simp only [members, others, constituents_union, htype, hunits, List.flatMap_cons,
      List.flatMap_nil, List.mem_append, List.mem_singleton]
    tauto
  exact ⟨hmembers, hothers, hvalued, hsame ▸ hvalued, hnumber (hsame ▸ hvalued)⟩

/-- `int | (undefined | null)` is not index valued, though `int | undefined | null` is. -/
theorem not_index_valued_by_constituents :
    ¬∀ members, isIndexValued (.union members) = true ↔
      (∀ c ∈ constituents (.union members), IsAdmissible c) ∧ HasProper (.union members) := by
  intro h
  have hsimple : constituents type = [type] ∧
      constituents (.keyword .undefined) = [.keyword .undefined] ∧
      constituents (.keyword .null) = [.keyword .null] :=
    ⟨constituents_of_not_isUnion rfl, constituents_of_not_isUnion rfl,
      constituents_of_not_isUnion rfl⟩
  have hvalued := (h [type, .union [.keyword .undefined, .keyword .null]]).2 ⟨by
    simp [constituents_union, hsimple, IsAdmissible.index, IsAdmissible.undefined,
      IsAdmissible.null], type, by simp [constituents_union, hsimple], rfl⟩
  rw [isIndexValued_union] at hvalued
  simp [isIndexValued_union, isNullish, type, TypeExpr.named, TypeExpr.isKeyword] at hvalued

end Index
end TypeSurface
