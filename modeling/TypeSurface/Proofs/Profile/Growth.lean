import TypeSurface.Proofs.Merge.Serving
import TypeSurface.Proofs.Profile.Heritage

/-!
# Growing declarations

Declarations that grow keep what they meet: every name stays declared, and every chain of interfaces
leads on to the members that it led to.  A merge only lets the base grow, and without conflicts it
lets the extension grow as well.
-/

namespace TypeSurface

structure Interface.GrowsTo (i j : Interface) : Prop where
  heritage : i.heritage ⊆ j.heritage
  members : i.members.keys ⊆ j.members.keys

/-- Nothing that is declared is lost, and every interface is still one. -/
structure Declarations.GrowsTo (d e : Declarations) : Prop where
  interfaces : ∀ name i, d.types.get? name = some (.interface i) →
    ∃ j, e.types.get? name = some (.interface j) ∧ i.GrowsTo j
  types : d.types.keys ⊆ e.types.keys
  values : d.values.keys ⊆ e.values.keys

theorem Interface.GrowsTo.refl (i : Interface) : i.GrowsTo i :=
  ⟨List.Subset.refl _, List.Subset.refl _⟩

namespace Profile

variable {d e : Declarations} {member : String} {i j k : Interface}

theorem isSome_member?_iff : (i.member? member).isSome = true ↔ .named member ∈ i.members.keys := by
  rw [OrderedMap.mem_keys_iff, Option.isSome_iff_exists]
  rfl

theorem exists_extends_of_growsTo (hgrows : d.GrowsTo e) (hi : i.GrowsTo j) (h : Extends d i k) :
    ∃ l, Extends e j l ∧ k.GrowsTo l := by
  obtain ⟨name, args, ht, hk⟩ := h
  obtain ⟨l, hl, hkl⟩ := hgrows.interfaces name k (Declarations.interface?_eq_some_iff.1 hk)
  exact ⟨l, ⟨name, args, hi.heritage ht, Declarations.interface?_eq_some_iff.2 hl⟩, hkl⟩

theorem Inherits.grow (hgrows : d.GrowsTo e) (hi : i.GrowsTo j) (h : Inherits d member i) :
    Inherits e member j := by
  obtain ⟨k, hchain, hk⟩ := h
  -- Along the chain each interface has grown into one that the same names lead to.
  have hend : ∃ l, Relation.ReflTransGen (Extends e) j l ∧ k.GrowsTo l := by
    clear hk
    induction hchain with
    | refl => exact ⟨j, .refl, hi⟩
    | tail _ hextends ih =>
      obtain ⟨l, hchain, hl⟩ := ih
      obtain ⟨m, hm, hgrown⟩ := exists_extends_of_growsTo hgrows hl hextends
      exact ⟨m, hchain.tail hm, hgrown⟩
  obtain ⟨l, hchain, hl⟩ := hend
  exact ⟨l, hchain, isSome_member?_iff.2 (hl.members (isSome_member?_iff.1 hk))⟩

theorem Meets.grow {r : Requirement} (hgrows : d.GrowsTo e) (h : Meets d r) : Meets e r := by
  cases r with
  | member owner name =>
    obtain ⟨i, hi, hinherits⟩ := h
    obtain ⟨j, hj, hij⟩ := hgrows.interfaces owner i (Declarations.interface?_eq_some_iff.1 hi)
    exact ⟨j, Declarations.interface?_eq_some_iff.2 hj, hinherits.grow hgrows hij⟩
  | global name => exact h.imp (fun h ↦ hgrows.types h) fun h ↦ hgrows.values h

end Profile

/-! ### Merging -/

namespace Merge

section Joins

variable {κ ν : Type} [DecidableEq κ] {meet : κ → ν → ν → ν → Prop}
  {base extension joined : OrderedMap κ ν}

theorem Joins.base_subset (h : Joins meet base extension joined) : base.keys ⊆ joined.keys := by
  rw [h.keys]
  exact List.subset_append_left _ _

theorem Joins.extension_subset (h : Joins meet base extension joined) :
    extension.keys ⊆ joined.keys := by
  intro k hk
  rw [h.keys, List.mem_append]
  by_cases hb : k ∈ base.keys
  · exact Or.inl hb
  · exact Or.inr (List.mem_filter.2 ⟨hk, by simpa using hb⟩)

end Joins

variable {table : OrderedMap String TypeEntry} {base extension i : Interface}

theorem InterfaceMeet.base_growsTo (h : InterfaceMeet table base extension i) :
    base.GrowsTo i where
  heritage := by
    rw [h.heritage]
    exact List.subset_append_left _ _
  members := h.members.base_subset

theorem InterfaceMeet.extension_growsTo (h : InterfaceMeet table base extension i) :
    extension.GrowsTo i where
  heritage t ht := by
    rw [h.heritage, ← appendNew_eq]
    exact mem_appendNew.2 (Or.inr ht)
  members := h.members.extension_subset

end Merge

section Accounted

variable {base extension : Declarations} {merged : Merged Declarations}

theorem Declarations.growsTo_of_base (h : Merge.IsAccounted base extension merged) :
    base.GrowsTo merged.value where
  types := h.types.base_subset
  values := h.values.base_subset
  interfaces name i hi := by
    cases he : extension.types.get? name with
    | none => exact ⟨i, by rw [h.types.base_only name he, hi], .refl i⟩
    | some entry =>
      obtain ⟨m, hm, hmeet⟩ := h.types.both name _ _ hi he
      cases entry with
      | interface e =>
        obtain ⟨j, rfl, hj⟩ := hmeet
        exact ⟨j, hm, hj.base_growsTo⟩
      | typeAlias a => exact ⟨i, hmeet ▸ hm, .refl i⟩

theorem Declarations.growsTo_of_extension (h : Merge.IsAccounted base extension merged)
    (hclean : merged.conflicts = []) : extension.GrowsTo merged.value where
  types := h.types.extension_subset
  values := h.values.extension_subset
  interfaces name i hi := by
    cases hb : base.types.get? name with
    | none => exact ⟨i, by rw [h.types.extension_only name hb, hi], .refl i⟩
    | some entry =>
      obtain ⟨m, hm, hmeet⟩ := h.types.both name _ _ hb hi
      cases entry with
      | interface b =>
        obtain ⟨j, rfl, hj⟩ := hmeet
        exact ⟨j, hm, hj.extension_growsTo⟩
      | typeAlias a =>
        have hno := Merge.not_isClash_of_clean h hclean
        simpa [TypeEntry.interface?] using Merge.not_typeKind_clash hno hb hi

theorem Declarations.IsKeyed.declarations (hbase : base.IsKeyed) (hextension : extension.IsKeyed)
    (policy : Merge.Policy) : (Merge.declarations policy base extension).value.IsKeyed := by
  apply Merge.mapsWith_forall hbase hextension
  intro name b e hb _
  cases b <;> cases e <;> exact hb

end Accounted

namespace Profile

/-- What the base meets is met by the merged declarations whether or not the two sides go together,
and what the extension meets is met if they do. -/
theorem isSatisfied_of_merge {base extension : Declarations} (hbase : base.IsKeyed)
    (hextension : extension.IsKeyed) (r : Requirement) :
    (isSatisfied base r = true →
      isSatisfied (Merge.declarations .replace base extension).value r = true) ∧
    ((Merge.declarations .replace base extension).conflicts = [] →
      isSatisfied extension r = true →
        isSatisfied (Merge.declarations .replace base extension).value r = true) := by
  have hmerged := hbase.declarations hextension .replace
  have haccounted := Merge.declarations_isAccounted base extension
  rw [isSatisfied_iff hbase, isSatisfied_iff hextension, isSatisfied_iff hmerged]
  constructor
  · exact Meets.grow (Declarations.growsTo_of_base haccounted)
  · intro hclean
    exact Meets.grow (Declarations.growsTo_of_extension haccounted hclean)

/-- `A` extends `B`, and `B` declares nothing and extends nothing. -/
def lowerChain : Declarations :=
  ⟨.ofList [namedInterface "A" ["B"] [], namedInterface "B" [] []], .empty⟩

/-- `B` extends `C`, and `C` declares `x`. -/
def upperChain : Declarations :=
  ⟨.ofList [namedInterface "B" ["C"] [], namedInterface "C" [] [namedProperty "x"]], .empty⟩

theorem isSatisfied_of_merge_chains :
    lowerChain.IsKeyed ∧ upperChain.IsKeyed ∧ isSatisfied upperChain (.member "B" "x") = true ∧
      isSatisfied (Merge.declarations .replace lowerChain upperChain).value (.member "B" "x") =
        true := by
  have hlower : lowerChain.IsKeyed := Declarations.isKeyed_iff.2 (by decide +kernel)
  have hupper : upperChain.IsKeyed := Declarations.isKeyed_iff.2 (by decide +kernel)
  have hclean : (Merge.declarations .replace lowerChain upperChain).conflicts = [] := by
    decide +kernel
  have hmeets : isSatisfied upperChain (.member "B" "x") = true := by
    rw [isSatisfied_iff hupper]
    exact ⟨_, rfl, _, .single ⟨"C", [], List.mem_cons_self, rfl⟩, by decide +kernel⟩
  have hgrows := isSatisfied_of_merge hlower hupper (.member "B" "x")
  exact ⟨hlower, hupper, hmeets, hgrows.2 hclean hmeets⟩

end Profile
end TypeSurface
