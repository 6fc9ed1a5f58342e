import TypeSurface.Profile.Exclusion
import TypeSurface.Profile.Standard
import TypeSurface.Proofs.Syntax.Nodes

/-!
# What the exclusions of a profile rule out

The places of a declaration at which a type is written are stated one by one, without the traversal
that looks for defects.  No defect means that no excluded name is declared and that none is referred
to at those places, at any depth.  The bounds and the defaults that an interface or an alias gives
to its own type parameters are places too, and the traversal leaves them out.
-/

namespace TypeSurface

/-- The types that are written in a member. -/
def MemberBody.types : MemberBody → List TypeExpr
  | .property type => [type]
  | .index _ keyType value => [keyType, value]
  | .method overloads | .call overloads | .construct overloads => overloads.flatMap Signature.types

namespace Declarations

/-- The type is written in one of the declarations, and not for a type parameter of its head. -/
inductive Writes (d : Declarations) : TypeExpr → Prop
  | heritage {name : String} {i : Interface} {t : TypeExpr}
      (hi : (name, .interface i) ∈ d.types.entries) (ht : t ∈ i.heritage) : Writes d t
  | member {name : String} {i : Interface} {key : MemberKey} {m : Member} {t : TypeExpr}
      (hi : (name, .interface i) ∈ d.types.entries) (hm : (key, m) ∈ i.members.entries)
      (ht : t ∈ m.body.types) : Writes d t
  | aliasBody {name : String} {a : TypeAlias}
      (ha : (name, .typeAlias a) ∈ d.types.entries) : Writes d a.type
  | variableType {name : String} {v : Variable}
      (hv : (name, .variable v) ∈ d.values.entries) : Writes d v.type
  | overload {name : String} {f : Function} {s : Signature} {t : TypeExpr}
      (hf : (name, .function f) ∈ d.values.entries) (hs : s ∈ f.overloads) (ht : t ∈ s.types) :
      Writes d t

/-- The type bounds, or is the default of, a type parameter of an interface or of an alias. -/
inductive Bounds (d : Declarations) : TypeExpr → Prop
  | interface {name : String} {i : Interface} {p : TypeParam} {t : TypeExpr}
      (hi : (name, .interface i) ∈ d.types.entries) (hp : p ∈ i.typeParams) (ht : t ∈ p.types) :
      Bounds d t
  | typeAlias {name : String} {a : TypeAlias} {p : TypeParam} {t : TypeExpr}
      (ha : (name, .typeAlias a) ∈ d.types.entries) (hp : p ∈ a.typeParams) (ht : t ∈ p.types) :
      Bounds d t

end Declarations

namespace Profile

/-- A dotted name up to its first dot. -/
def firstSegment (name : String) : String := String.ofList (name.toList.takeWhile (· ≠ '.'))

/-- The type is a reference whose name, or whose first segment, is excluded. -/
inductive RefersTo (excluded : List String) : TypeExpr → Prop
  | whole {name : String} (args : List TypeExpr) (h : name ∈ excluded) :
      RefersTo excluded (.reference name args)
  | segment {name : String} (args : List TypeExpr) (h : firstSegment name ∈ excluded) :
      RefersTo excluded (.reference name args)

/-- Such a reference stands somewhere in the type. -/
def Exposes (p : Profile) (t : TypeExpr) : Prop := ∃ u : TypeExpr, u.Occurs t ∧ RefersTo p.excluded u

/-- No excluded name is declared. -/
def IsUndeclared (p : Profile) (d : Declarations) : Prop :=
  ∀ name ∈ p.excluded, d.declares name = false

/-- No excluded name is declared, and none can be reached through a type. -/
structure Conceals (p : Profile) (d : Declarations) : Prop where
  undeclared : p.IsUndeclared d
  written : ∀ t, d.Writes t → ¬p.Exposes t
  bounds : ∀ t, d.Bounds t → ¬p.Exposes t

variable {p : Profile} {d : Declarations} {excluded : List String}

/-! ### One type -/

theorem excludedName?_reference (name : String) (args : List TypeExpr) :
    excludedName? excluded (.reference name args) =
      if firstSegment name ∈ excluded then some (firstSegment name)
      else if name ∈ excluded then some name else none := by
  by_cases hsegment : firstSegment name ∈ excluded
  · have : excluded.contains (firstSegment name) = true := List.contains_iff_mem.2 hsegment
    rw [if_pos hsegment]
    exact if_pos this
  · have : ¬excluded.contains (firstSegment name) = true := by simpa using hsegment
    rw [if_neg hsegment]
    exact (if_neg this).trans (by simp only [List.contains_iff_mem])

theorem excludedName?_eq_none_iff {t : TypeExpr} :
    excludedName? excluded t = none ↔ ¬RefersTo excluded t := by
  constructor
  · intro h href
    cases href with
    | @whole name args hname =>
      rw [excludedName?_reference, if_pos hname] at h
      split at h <;> cases h
    | segment args hname =>
      rw [excludedName?_reference, if_pos hname] at h
      cases h
  · intro h
    cases t with
    | reference name args =>
      have hwhole : name ∉ excluded := fun hname ↦ h (.whole args hname)
      have hsegment : firstSegment name ∉ excluded := fun hname ↦ h (.segment args hname)
      rw [excludedName?_reference, if_neg hsegment, if_neg hwhole]
    | _ => rfl

theorem mem_of_excludedName? {t : TypeExpr} {name : String}
    (h : excludedName? excluded t = some name) : name ∈ excluded := by
  cases t with
  | reference written args =>
    rw [excludedName?_reference] at h
    split at h
    · next hsegment => exact Option.some.inj h ▸ hsegment
    · split at h
      · next hwhole => exact Option.some.inj h ▸ hwhole
      · cases h
  | _ => cases h

theorem name_mem_of_mem_exposures {path : String} {nodes : List TypeExpr} {e : Exposure}
    (h : e ∈ exposures excluded path nodes) : e.name ∈ excluded := by
  obtain ⟨name, hname, rfl⟩ := List.mem_map.1 h
  obtain ⟨t, _, ht⟩ := List.mem_filterMap.1 hname
  exact mem_of_excludedName? ht

/-- The types are gone through to the bottom. -/
theorem exposures_eq_nil_iff {path : String} {types : List TypeExpr} :
    exposures p.excluded path (types.flatMap TypeExpr.nodes) = [] ↔ ∀ t ∈ types, ¬p.Exposes t := by
  have hnodes : exposures p.excluded path (types.flatMap TypeExpr.nodes) = [] ↔
      ∀ t ∈ types, ∀ u ∈ t.nodes, excludedName? p.excluded u = none := by
    simp only [exposures, List.map_eq_nil_iff, List.filterMap_eq_nil_iff, List.mem_flatMap]
    exact ⟨fun h t ht u hu ↦ h u ⟨t, ht, hu⟩, by rintro h u ⟨t, ht, hu⟩; exact h t ht u hu⟩
  rw [hnodes]
  apply forall₂_congr
  intro t _
  simp only [TypeExpr.mem_nodes_iff, excludedName?_eq_none_iff, Exposes, not_exists, not_and]

theorem memberNodes_eq (body : MemberBody) :
    memberNodes body = body.types.flatMap TypeExpr.nodes := by
  cases body <;>
    simp [memberNodes, MemberBody.types, List.flatMap_assoc, funext Signature.nodes_eq]

/-! ### One declaration -/

theorem name_mem_of_mem_typeExposures {name : String} {entry : TypeEntry} {e : Exposure}
    (h : e ∈ typeExposures excluded name entry) : e.name ∈ excluded := by
  cases entry with
  | interface i =>
    rcases List.mem_append.1 h with h | h
    · exact name_mem_of_mem_exposures h
    · obtain ⟨⟨key, m⟩, _, h⟩ := List.mem_flatMap.1 h
      exact name_mem_of_mem_exposures h
  | typeAlias a => exact name_mem_of_mem_exposures h

theorem name_mem_of_mem_valueExposures {name : String} {entry : ValueEntry} {e : Exposure}
    (h : e ∈ valueExposures excluded name entry) : e.name ∈ excluded := by
  rcases entry with v | f
  · exact name_mem_of_mem_exposures h
  · exact name_mem_of_mem_exposures h

theorem typeExposures_interface_eq_nil_iff {name : String} {i : Interface} :
    typeExposures p.excluded name (.interface i) = [] ↔
      (∀ t ∈ i.heritage, ¬p.Exposes t) ∧
        ∀ e ∈ i.members.entries, ∀ t ∈ e.2.body.types, ¬p.Exposes t := by
  simp only [typeExposures, List.append_eq_nil_iff, List.flatMap_eq_nil_iff, memberNodes_eq,
    exposures_eq_nil_iff]

theorem typeExposures_typeAlias_eq_nil_iff {name : String} {a : TypeAlias} :
    typeExposures p.excluded name (.typeAlias a) = [] ↔ ¬p.Exposes a.type := by
  simpa [typeExposures] using
    @exposures_eq_nil_iff p name [a.type]

theorem valueExposures_variable_eq_nil_iff {name : String} {v : Variable} :
    valueExposures p.excluded name (.variable v) = [] ↔ ¬p.Exposes v.type := by
  simpa [valueExposures] using
    @exposures_eq_nil_iff p name [v.type]

theorem valueExposures_function_eq_nil_iff {name : String} {f : Function} :
    valueExposures p.excluded name (.function f) = [] ↔
      ∀ s ∈ f.overloads, ∀ t ∈ s.types, ¬p.Exposes t := by
  have hnodes : f.overloads.flatMap Signature.nodes =
      (f.overloads.flatMap Signature.types).flatMap TypeExpr.nodes := by
    simp [List.flatMap_assoc, funext Signature.nodes_eq]
  simp only [valueExposures, hnodes, exposures_eq_nil_iff, List.mem_flatMap]
  exact ⟨fun h s hs t ht ↦ h t ⟨s, hs, ht⟩, by rintro h t ⟨s, hs, ht⟩; exact h s hs t ht⟩

/-! ### Defects -/

theorem ne_nil_of_foldl_firstOfEach {found kept : List Exposure} (h : kept ≠ []) :
    found.foldl (fun kept e ↦ if kept.any (·.name == e.name) then kept else kept ++ [e]) kept ≠
      [] := by
  induction found generalizing kept with
  | nil => exact h
  | cons e found ih =>
    rw [List.foldl_cons]
    apply ih
    split
    · exact h
    · simp

theorem firstOfEach_eq_nil_iff {found : List Exposure} : firstOfEach found = [] ↔ found = [] := by
  cases found with
  | nil => simp [firstOfEach]
  | cons e found =>
    have : firstOfEach (e :: found) ≠ [] := by
      rw [firstOfEach, List.foldl_cons]
      exact ne_nil_of_foldl_firstOfEach (by simp)
    exact iff_of_false this (List.cons_ne_nil _ _)

/-- The name of the declaration itself counts nowhere, which is of no consequence as long as the
declaration is not an excluded one. -/
theorem exposureDefects_eq_nil_iff {owner : String} {origin : Origin} {found : List Exposure}
    (hfound : ∀ e ∈ found, e.name ∈ p.excluded) (howner : owner ∉ p.excluded) :
    p.exposureDefects owner origin found = [] ↔ found = [] := by
  have hall : found.filter (·.name ≠ owner) = found := by
    apply List.filter_eq_self.2
    intro e he
    have : e.name ≠ owner := by
      rintro rfl
      exact howner (hfound e he)
    simpa using this
  rw [exposureDefects, hall, List.map_eq_nil_iff, firstOfEach_eq_nil_iff]

theorem originOf?_eq_none_iff {name : String} :
    d.originOf? name = none ↔ d.declares name = false := by
  have hget {ν : Type} (m : OrderedMap String ν) :
      m.get? name = none ↔ m.contains name = false := by
    simp only [OrderedMap.get?, OrderedMap.contains, OrderedMap.keys, Option.map_eq_none_iff,
      List.find?_eq_none, decide_eq_true_eq, List.contains_eq_mem, decide_eq_false_iff_not,
      List.mem_map]
    exact ⟨by rintro h ⟨e, he, rfl⟩; exact h e he rfl, fun h e he same ↦ h ⟨e, he, same⟩⟩
  rw [Declarations.declares, Bool.or_eq_false_iff, ← hget, ← hget, Declarations.originOf?]
  cases d.types.get? name with
  | none => simp
  | some entry => simp

theorem declarationDefects_eq_nil_iff : p.declarationDefects d = [] ↔ p.IsUndeclared d := by
  simp only [declarationDefects, List.filterMap_eq_nil_iff, Option.map_eq_none_iff,
    originOf?_eq_none_iff, IsUndeclared]

theorem IsUndeclared.not_mem_keys {name : String} (h : p.IsUndeclared d)
    (hname : name ∈ p.excluded) : name ∉ d.types.keys ∧ name ∉ d.values.keys := by
  have hdeclares := h name hname
  rwa [Declarations.declares, Bool.or_eq_false_iff, OrderedMap.contains, OrderedMap.contains,
    List.contains_eq_mem, List.contains_eq_mem, decide_eq_false_iff_not,
    decide_eq_false_iff_not] at hdeclares

theorem IsUndeclared.not_mem_of_type {e : String × TypeEntry} (h : p.IsUndeclared d)
    (he : e ∈ d.types.entries) : e.1 ∉ p.excluded :=
  fun hname ↦ (h.not_mem_keys hname).1 (List.mem_map_of_mem he)

theorem IsUndeclared.not_mem_of_value {e : String × ValueEntry} (h : p.IsUndeclared d)
    (he : e ∈ d.values.entries) : e.1 ∉ p.excluded :=
  fun hname ↦ (h.not_mem_keys hname).2 (List.mem_map_of_mem he)

/-- Without an excluded declaration, the defects are those of the exposures. -/
theorem exclusionDefects_eq_nil_iff_exposures (h : p.IsUndeclared d) :
    p.exclusionDefects d = [] ↔
      (∀ e ∈ d.types.entries, typeExposures p.excluded e.1 e.2 = []) ∧
        ∀ e ∈ d.values.entries, valueExposures p.excluded e.1 e.2 = [] := by
  have htypes : ∀ e ∈ d.types.entries,
      (p.exposureDefects e.1 e.2.origin (typeExposures p.excluded e.1 e.2) = [] ↔
        typeExposures p.excluded e.1 e.2 = []) := fun e he ↦
    exposureDefects_eq_nil_iff (fun _ ↦ name_mem_of_mem_typeExposures) (h.not_mem_of_type he)
  have hvalues : ∀ e ∈ d.values.entries,
      (p.exposureDefects e.1 e.2.origin (valueExposures p.excluded e.1 e.2) = [] ↔
        valueExposures p.excluded e.1 e.2 = []) := fun e he ↦
    exposureDefects_eq_nil_iff (fun _ ↦ name_mem_of_mem_valueExposures) (h.not_mem_of_value he)
  simp only [exclusionDefects, List.append_eq_nil_iff, List.flatMap_eq_nil_iff,
    declarationDefects_eq_nil_iff.2 h, true_and]
  exact and_congr (forall₂_congr htypes) (forall₂_congr hvalues)

/-- The traversal comes to every place at which a type is written, and to no other. -/
theorem exposures_eq_nil_iff_writes :
    ((∀ e ∈ d.types.entries, typeExposures p.excluded e.1 e.2 = []) ∧
        ∀ e ∈ d.values.entries, valueExposures p.excluded e.1 e.2 = []) ↔
      ∀ t, d.Writes t → ¬p.Exposes t := by
  constructor
  · rintro ⟨htypes, hvalues⟩ t ht
    cases ht with
    | heritage hi ht => exact (typeExposures_interface_eq_nil_iff.1 (htypes _ hi)).1 t ht
    | member hi hm ht => exact (typeExposures_interface_eq_nil_iff.1 (htypes _ hi)).2 _ hm t ht
    | aliasBody ha => exact typeExposures_typeAlias_eq_nil_iff.1 (htypes _ ha)
    | variableType hv => exact valueExposures_variable_eq_nil_iff.1 (hvalues _ hv)
    | overload hf hs ht => exact valueExposures_function_eq_nil_iff.1 (hvalues _ hf) _ hs t ht
  · intro h
    constructor
    · rintro ⟨name, entry⟩ he
      cases entry with
      | interface i =>
        apply typeExposures_interface_eq_nil_iff.2
        exact ⟨fun t ht ↦ h t (.heritage he ht), fun m hm t ht ↦ h t (.member he hm ht)⟩
      | typeAlias a => exact typeExposures_typeAlias_eq_nil_iff.2 (h _ (.aliasBody he))
    · rintro ⟨name, entry⟩ he
      rcases entry with v | f
      · exact valueExposures_variable_eq_nil_iff.2 (h _ (.variableType he))
      · apply valueExposures_function_eq_nil_iff.2
        exact fun s hs t ht ↦ h t (.overload he hs ht)

theorem isUndeclared_of_exclusionDefects (h : p.exclusionDefects d = []) : p.IsUndeclared d := by
  simp only [exclusionDefects, List.append_eq_nil_iff] at h
  exact declarationDefects_eq_nil_iff.1 h.1.1

/-- There is no defect exactly if no excluded name is declared and none is referred to outside the
bounds of type parameters of heads.  What is left to make a profile conceal its names are those
bounds. -/
theorem exclusionDefects_eq_nil_iff (p : Profile) (d : Declarations) :
    (p.exclusionDefects d = [] ↔ p.IsUndeclared d ∧ ∀ t, d.Writes t → ¬p.Exposes t) ∧
      (p.Conceals d ↔ p.exclusionDefects d = [] ∧ ∀ t, d.Bounds t → ¬p.Exposes t) := by
  have hdefects : p.exclusionDefects d = [] ↔
      p.IsUndeclared d ∧ ∀ t, d.Writes t → ¬p.Exposes t := by
    constructor
    · intro h
      have hnone := isUndeclared_of_exclusionDefects h
      refine ⟨hnone, exposures_eq_nil_iff_writes.1 ?_⟩
      exact (exclusionDefects_eq_nil_iff_exposures hnone).1 h
    · rintro ⟨hnone, hwritten⟩
      apply (exclusionDefects_eq_nil_iff_exposures hnone).2
      exact exposures_eq_nil_iff_writes.2 hwritten
  refine ⟨hdefects, ?_⟩
  rw [hdefects]
  constructor
  · exact fun h ↦ ⟨⟨h.undeclared, h.written⟩, h.bounds⟩
  · rintro ⟨⟨hnone, hwritten⟩, hbounds⟩
    exact ⟨hnone, hwritten, hbounds⟩

/-- An interface whose type parameter is bounded by a name that host-native code must not see. -/
def boundByWindow : Declarations :=
  ⟨.singleton "I" (.interface
    ⟨"I", [⟨"T", some (.named "window"), none⟩], [], .empty, ⟨"i", "i.d.ts", ⟨19, 51⟩⟩⟩), .empty⟩

theorem exposes_window : (standard .hostNative).Exposes (.named "window") := by
  refine ⟨_, TypeExpr.Occurs.here _, RefersTo.whole [] ?_⟩
  decide

theorem not_conceals_of_no_exclusionDefects :
    ¬∀ (p : Profile) (d : Declarations), p.exclusionDefects d = [] ↔ p.Conceals d := by
  intro h
  have hnone : (standard .hostNative).exclusionDefects boundByWindow = [] := by
    decide +kernel
  have hbound : boundByWindow.Bounds (.named "window") := by
    refine .interface (List.mem_singleton_self _) (List.mem_singleton_self _) ?_
    exact List.mem_singleton_self _
  exact ((h _ _).1 hnone).bounds _ hbound exposes_window

end Profile
end TypeSurface
