import Mathlib.Logic.Relation
import TypeSurface.Profile.Coverage
import TypeSurface.Proofs.Merge.OrderedMaps

/-!
# Heritage

A member that is looked for is found exactly if some chain of interfaces, each extending the next
one, leads to an interface that declares it.  The search goes depth first and shares one list of
visited names among all branches, so a branch may end at an interface only because another branch
has been there; that none of them found the member is told by the list as a whole, which is closed
under heritage when the search has failed.
-/

namespace TypeSurface

/-- Every type stands under its own name. -/
def Declarations.IsKeyed (d : Declarations) : Prop :=
  ∀ name entry, d.types.get? name = some entry → entry.name = name

theorem Declarations.isKeyed_iff {d : Declarations} :
    d.IsKeyed ↔ ∀ e ∈ d.types.entries, e.2.name = e.1 := by
  constructor
  · exact fun h e he ↦ h e.1 e.2 (OrderedMap.get?_eq_some_iff.2 he)
  · exact fun h name entry hentry ↦ h (name, entry) (OrderedMap.get?_eq_some_iff.1 hentry)

theorem Declarations.interface?_eq_some_iff {d : Declarations} {name : String} {i : Interface} :
    d.interface? name = some i ↔ d.types.get? name = some (.interface i) := by
  unfold Declarations.interface?
  cases d.types.get? name with
  | none => simp
  | some entry => cases entry <;> simp [TypeEntry.interface?]

theorem Declarations.IsKeyed.name_eq {d : Declarations} (h : d.IsKeyed) {name : String}
    {i : Interface} (hi : d.interface? name = some i) : i.name = name :=
  h name _ (Declarations.interface?_eq_some_iff.1 hi)

theorem Declarations.IsKeyed.interface?_name {d : Declarations} (h : d.IsKeyed) {name : String}
    {i : Interface} (hi : d.interface? name = some i) : d.interface? i.name = some i :=
  (h.name_eq hi).symm ▸ hi

namespace Profile

/-- The first interface extends the second one by its name. -/
def Extends (d : Declarations) (i j : Interface) : Prop :=
  ∃ name args, .reference name args ∈ i.heritage ∧ d.interface? name = some j

/-- A chain of interfaces leads from `i` to one that declares the member. -/
def Inherits (d : Declarations) (member : String) (i : Interface) : Prop :=
  ∃ j, Relation.ReflTransGen (Extends d) i j ∧ (j.member? member).isSome = true

/-- What it is to meet a requirement. -/
def Meets (d : Declarations) : Requirement → Prop
  | .member owner name => ∃ i, d.interface? owner = some i ∧ Inherits d name i
  | .global name => name ∈ d.types.keys ∨ name ∈ d.values.keys

variable {d : Declarations} {member name : String} {visited pending : List String}
  {i j : Interface}

theorem mem_parents_iff : name ∈ parents i ↔ ∃ args, .reference name args ∈ i.heritage := by
  unfold parents
  rw [List.mem_filterMap]
  constructor
  · rintro ⟨t, ht, hname⟩
    cases t with
    | reference n args =>
      obtain rfl := Option.some.inj hname
      exact ⟨args, ht⟩
    | _ => cases hname
  · rintro ⟨args, ht⟩
    exact ⟨_, ht, rfl⟩

/-! ### What has been visited -/

theorem nodup_search (member : String) (pending : List String) (h : visited.Nodup) :
    (search d member visited pending).2.Nodup := by
  fun_induction search d member visited pending with
  | case1 visited => exact h
  | case2 visited name pending hnone ih => exact ih h
  | case3 visited name pending i hi hvisited ih => exact ih h
  | case4 visited name pending i hi hfresh hfound =>
    exact List.nodup_cons.2 ⟨by simpa using hfresh, h⟩
  | case5 visited name pending i hi hfresh hmissing ih =>
    exact ih (List.nodup_cons.2 ⟨by simpa using hfresh, h⟩)

theorem interface?_of_mem_search (hd : d.IsKeyed) (member : String) (pending : List String)
    (h : ∀ n ∈ visited, ∃ i, d.interface? n = some i) :
    ∀ n ∈ (search d member visited pending).2, ∃ i, d.interface? n = some i := by
  fun_induction search d member visited pending with
  | case1 visited => exact h
  | case2 visited name pending hnone ih => exact ih h
  | case3 visited name pending i hi hvisited ih => exact ih h
  | case4 visited name pending i hi hfresh hfound =>
    exact List.forall_mem_cons.2 ⟨⟨i, hd.interface?_name hi⟩, h⟩
  | case5 visited name pending i hi hfresh hmissing ih =>
    exact ih (List.forall_mem_cons.2 ⟨⟨i, hd.interface?_name hi⟩, h⟩)

theorem subset_search (member : String) (visited pending : List String) :
    visited ⊆ (search d member visited pending).2 := by
  fun_induction search d member visited pending with
  | case1 visited => exact List.Subset.refl _
  | case2 visited name pending hnone ih => exact ih
  | case3 visited name pending i hi hvisited ih => exact ih
  | case4 visited name pending i hi hfresh hfound => exact List.subset_cons_self _ _
  | case5 visited name pending i hi hfresh hmissing ih =>
    exact List.Subset.trans (List.subset_cons_self _ _) ih

/-- All pending interfaces are visited by a search that fails. -/
theorem mem_search_of_pending (h : (search d member visited pending).1 = false)
    (hname : name ∈ pending) (hi : d.interface? name = some i) :
    i.name ∈ (search d member visited pending).2 := by
  fun_induction search d member visited pending with
  | case1 visited => cases hname
  | case2 visited first pending hnone ih =>
    rcases List.mem_cons.1 hname with rfl | hname
    · rw [hi] at hnone
      cases hnone
    · exact ih h hname
  | case3 visited first pending j hj hvisited ih =>
    rcases List.mem_cons.1 hname with rfl | hname
    · obtain rfl := Option.some.inj (hi.symm.trans hj)
      exact subset_search member visited pending (by simpa using hvisited)
    · exact ih h hname
  | case4 visited first pending j hj hfresh hfound => cases h
  | case5 visited first pending j hj hfresh hmissing ih =>
    rcases List.mem_cons.1 hname with rfl | hname
    · obtain rfl := Option.some.inj (hi.symm.trans hj)
      exact subset_search member _ _ List.mem_cons_self
    · exact ih h (List.mem_append_right _ hname)

/-- What a search that fails has visited lacks the member, and whatever it extends has been visited
as well. -/
theorem closed_of_search (hd : d.IsKeyed) (h : (search d member visited pending).1 = false)
    (hi : d.interface? i.name = some i) (hmem : i.name ∈ (search d member visited pending).2)
    (hold : i.name ∉ visited) :
    i.member? member = none ∧
      ∀ j, Extends d i j → j.name ∈ (search d member visited pending).2 := by
  fun_induction search d member visited pending with
  | case1 visited => exact absurd hmem hold
  | case2 visited name pending hnone ih => exact ih h hmem hold
  | case3 visited name pending j hj hvisited ih => exact ih h hmem hold
  | case4 visited name pending j hj hfresh hfound => cases h
  | case5 visited name pending j hj hfresh hmissing ih =>
    by_cases hhere : i.name = j.name
    · -- The interface that is visited here: its parents are pending from now on.
      have hsame : i = j := Option.some.inj (hi.symm.trans (hhere ▸ hd.interface?_name hj))
      subst hsame
      refine ⟨by simpa using hmissing, ?_⟩
      rintro k ⟨name, args, ht, hk⟩
      apply mem_search_of_pending h _ hk
      exact List.mem_append_left _ (mem_parents_iff.2 ⟨args, ht⟩)
    · apply ih h hmem
      rw [List.mem_cons, not_or]
      exact ⟨hhere, hold⟩

/-! ### Soundness and completeness -/

theorem Inherits.of_extends (h : Extends d i j) (hj : Inherits d member j) :
    Inherits d member i := by
  obtain ⟨k, hchain, hk⟩ := hj
  exact ⟨k, .head h hchain, hk⟩

theorem exists_inherits_of_search (h : (search d member visited pending).1 = true) :
    ∃ name ∈ pending, ∃ i, d.interface? name = some i ∧ Inherits d member i := by
  fun_induction search d member visited pending with
  | case1 visited => cases h
  | case2 visited name pending hnone ih =>
    obtain ⟨n, hn, hi⟩ := ih h
    exact ⟨n, List.mem_cons_of_mem _ hn, hi⟩
  | case3 visited name pending i hi hvisited ih =>
    obtain ⟨n, hn, hi⟩ := ih h
    exact ⟨n, List.mem_cons_of_mem _ hn, hi⟩
  | case4 visited name pending i hi hfresh hfound =>
    exact ⟨name, List.mem_cons_self, i, hi, i, .refl, hfound⟩
  | case5 visited name pending i hi hfresh hmissing ih =>
    obtain ⟨n, hn, j, hj, hinherits⟩ := ih h
    rcases List.mem_append.1 hn with hn | hn
    · obtain ⟨args, ht⟩ := mem_parents_iff.1 hn
      exact ⟨name, List.mem_cons_self, i, hi, hinherits.of_extends ⟨n, args, ht, hj⟩⟩
    · exact ⟨n, List.mem_cons_of_mem _ hn, j, hj, hinherits⟩

theorem not_inherits_of_search (hd : d.IsKeyed) {owner : String}
    (h : (search d member [] [owner]).1 = false) (hi : d.interface? owner = some i) :
    ¬Inherits d member i := by
  rintro ⟨j, hchain, hj⟩
  have hvisited : d.interface? j.name = some j ∧ j.name ∈ (search d member [] [owner]).2 := by
    clear hj
    induction hchain with
    | refl => exact ⟨hd.interface?_name hi, mem_search_of_pending h List.mem_cons_self hi⟩
    | tail _ hextends ih =>
      obtain ⟨name, args, ht, hname⟩ := hextends
      refine ⟨hd.interface?_name hname, ?_⟩
      exact (closed_of_search hd h ih.1 ih.2 List.not_mem_nil).2 _ ⟨name, args, ht, hname⟩
  have hmissing := (closed_of_search hd h hvisited.1 hvisited.2 List.not_mem_nil).1
  rw [hmissing] at hj
  cases hj

theorem isSatisfied_iff (hd : d.IsKeyed) (r : Requirement) :
    isSatisfied d r = true ↔ Meets d r := by
  cases r with
  | member owner name =>
    rw [isSatisfied, isInherited]
    constructor
    · intro h
      obtain ⟨n, hn, i, hi, hinherits⟩ := exists_inherits_of_search h
      exact ⟨i, List.mem_singleton.1 hn ▸ hi, hinherits⟩
    · rintro ⟨i, hi, hinherits⟩
      by_contra hne
      exact not_inherits_of_search hd (Bool.eq_false_iff.2 hne) hi hinherits
  | global name => simp [isSatisfied, Declarations.declares, OrderedMap.contains, Meets]

open scoped Classical in
/-- A member is found if and only if it is declared at the end of a chain of interfaces, none of them
is visited twice, and the requirements that are missing are those that are not met, in their
order. -/
theorem coverage_is_reachability (hd : d.IsKeyed) :
    (∀ owner name, isSatisfied d (.member owner name) = true ↔
      ∃ i, d.interface? owner = some i ∧ Inherits d name i) ∧
    (∀ owner name, (search d name [] [owner]).1 = isSatisfied d (.member owner name) ∧
      (search d name [] [owner]).2.Nodup ∧
        ∀ n ∈ (search d name [] [owner]).2, ∃ i, d.interface? n = some i) ∧
    ∀ p : Profile, p.missing d = p.required.filter fun r ↦ ¬Meets d r := by
  refine ⟨fun owner name ↦ isSatisfied_iff hd _, fun owner name ↦ ⟨rfl, ?_, ?_⟩, ?_⟩
  · exact nodup_search name [owner] List.nodup_nil
  · exact interface?_of_mem_search hd name [owner] fun _ h ↦ absurd h List.not_mem_nil
  · intro p
    apply List.filter_congr
    intro r _
    rw [← isSatisfied_iff hd r]
    simp

def namedInterface (name : String) (heritage : List String) (members : List Member) :
    String × TypeEntry :=
  (name, .interface ⟨name, [], heritage.map TypeExpr.named,
    .ofList (members.map fun m ↦ (m.key, m)), ⟨"ring", "ring.d.ts", ⟨0, 0⟩⟩⟩)

def namedProperty (name : String) : Member :=
  ⟨.named name, some (.identifier name), .property Index.type, false, false,
    ⟨"ring", "ring.d.ts", ⟨0, 0⟩⟩⟩

/-- `A` extends `B` and `C`, both of which extend `D`, which extends `A` and declares `x`. -/
def ring : Declarations :=
  ⟨.ofList [namedInterface "A" ["B", "C"] [], namedInterface "B" ["D"] [],
    namedInterface "C" ["D"] [], namedInterface "D" ["A"] [namedProperty "x"]], .empty⟩

theorem coverage_is_reachability_ring :
    ring.IsKeyed ∧ isSatisfied ring (.member "A" "x") = true ∧
      (search ring "x" [] ["A"]).2.Nodup := by
  have hkeyed : ring.IsKeyed := Declarations.isKeyed_iff.2 (by decide +kernel)
  obtain ⟨hreaches, hvisits, -⟩ := coverage_is_reachability hkeyed
  refine ⟨hkeyed, (hreaches "A" "x").2 ⟨_, rfl, ?_⟩, (hvisits "A" "x").2.1⟩
  refine ⟨_, .head ⟨"B", [], List.mem_cons_self, rfl⟩
    (.single ⟨"D", [], List.mem_cons_self, rfl⟩), ?_⟩
  decide +kernel

end Profile
end TypeSurface
