import TypeSurface.Declaration.Basic
import TypeSurface.Diagnostic.Basic
import TypeSurface.Profile.Basic

/-!
# Coverage

Which requirements of a profile some declarations meet.  A member is looked for in an interface and
in those it extends; each of them is visited once, so that heritage may go round in circles.
-/

namespace TypeSurface
namespace Profile

/-- The names that the interface extends. -/
def parents (i : Interface) : List String :=
  i.heritage.filterMap fun
    | .reference name _ => some name
    | _ => none

/-- Whether the entry is an interface whose name is not among those visited. -/
def isUnvisited (visited : List String) : TypeEntry → Bool
  | .interface i => !visited.contains i.name
  | .typeAlias _ => false

theorem countP_lt_countP {α : Type} {p q : α → Bool} {l : List α} {a : α} (ha : a ∈ l)
    (hp : p a = false) (hq : q a = true) (le : ∀ x, p x = true → q x = true) :
    l.countP p < l.countP q := by
  induction l with
  | nil => cases ha
  | cons x xs ih =>
    have tail : xs.countP p ≤ xs.countP q := List.countP_mono_left fun y _ ↦ le y
    rcases List.mem_cons.1 ha with rfl | ha
    · simp [hp, hq]
      omega
    · have := ih ha
      have := le x
      by_cases hx : p x = true <;> simp_all [List.countP_cons]
      omega

theorem mem_values_of_interface? {d : Declarations} {name : String} {i : Interface}
    (h : d.interface? name = some i) : .interface i ∈ d.types.values := by
  simp only [Declarations.interface?, OrderedMap.get?, Option.bind_eq_some_iff,
    Option.map_eq_some_iff] at h
  obtain ⟨entry, ⟨pair, found, rfl⟩, same⟩ := h
  have : pair.2 = .interface i := by
    cases value : pair.2 with
    | interface j =>
      rw [value] at same
      simpa [TypeEntry.interface?] using same
    | typeAlias a => simp [value, TypeEntry.interface?] at same
  exact this ▸ List.mem_map_of_mem (List.mem_of_find?_eq_some found)

/-- The answer of the search for a member in the interfaces pending and in those that they extend,
with the names of the interfaces that have been visited, the last one first. -/
def search (d : Declarations) (member : String) (visited : List String) :
    (pending : List String) → Bool × List String
  | [] => (false, visited)
  | name :: pending =>
    match _h : d.interface? name with
    | none => search d member visited pending
    | some i =>
      if visited.contains i.name then search d member visited pending
      else if (i.member? member).isSome then (true, i.name :: visited)
      else search d member (i.name :: visited) (parents i ++ pending)
termination_by pending => (d.types.values.countP (isUnvisited visited), pending.length)
decreasing_by
  · exact Prod.Lex.right _ (by simp)
  · exact Prod.Lex.right _ (by simp)
  · next fresh _ =>
    refine Prod.Lex.left _ _ (countP_lt_countP (mem_values_of_interface? _h) ?_ ?_ ?_)
    · simp [isUnvisited]
    · simpa [isUnvisited] using fresh
    · intro entry
      cases entry <;> simp [isUnvisited]

/-- Whether an interface, or one that it extends, declares the member. -/
def isInherited (d : Declarations) (member owner : String) : Bool := (search d member [] [owner]).1

def isSatisfied (d : Declarations) : Requirement → Bool
  | .global name => d.declares name
  | .member owner name => isInherited d name owner

/-- The requirements that are not met, in the order of the profile. -/
def missing (p : Profile) (d : Declarations) : List Requirement :=
  p.required.filter fun r ↦ !isSatisfied d r

def missingDiagnostic (p : Profile) : Requirement → Diagnostic
  | .member owner name => .global .missingRequiredMember [p.mode.text, name, owner]
  | .global name => .global .missingRequiredGlobal [p.mode.text, name]

def coverageDefects (p : Profile) (d : Declarations) : List Diagnostic :=
  (p.missing d).map p.missingDiagnostic

end Profile
end TypeSurface
