import TypeSurface.Proofs.Declaration.Forms

/-!
# Declarations without their places

Two readings of the same declarations differ in the places at which these stand.  Here the places
are taken away; what is printed does not depend on them.
-/

namespace TypeSurface
namespace OrderedMap

variable {κ ν μ : Type}

theorem ext_entries {m n : OrderedMap κ ν} (h : m.entries = n.entries) : m = n := by
  obtain ⟨entries, nodup⟩ := m
  obtain ⟨others, nodup'⟩ := n
  obtain rfl : entries = others := h
  rfl

/-- The map with every value changed. -/
def mapValues (f : ν → μ) (m : OrderedMap κ ν) : OrderedMap κ μ :=
  ⟨m.entries.map fun e ↦ (e.1, f e.2), by
    rw [List.map_map]
    exact m.nodup⟩

theorem values_mapValues (f : ν → μ) (m : OrderedMap κ ν) :
    (m.mapValues f).values = m.values.map f := by
  simp only [values, mapValues, List.map_map]
  rfl

end OrderedMap

def Member.unplaced (m : Member) : Member := { m with origin := default }

def Interface.unplaced (i : Interface) : Interface :=
  { i with members := i.members.mapValues Member.unplaced, origin := default }

def TypeEntry.unplaced : TypeEntry → TypeEntry
  | interface i => interface i.unplaced
  | typeAlias a => typeAlias { a with origin := default }

def ValueEntry.unplaced : ValueEntry → ValueEntry
  | .variable v => .variable { v with origin := default }
  | .function f => .function { f with origin := default }

def Declarations.unplaced (d : Declarations) : Declarations :=
  ⟨d.types.mapValues TypeEntry.unplaced, d.values.mapValues ValueEntry.unplaced⟩

@[simp] theorem Member.forms_unplaced (m : Member) : m.unplaced.forms = m.forms := rfl

@[simp] theorem Interface.form_unplaced (i : Interface) : i.unplaced.form = i.form := by
  simp only [form, unplaced, OrderedMap.values_mapValues, List.flatMap_map]
  rfl

@[simp] theorem TypeEntry.form_unplaced (entry : TypeEntry) : entry.unplaced.form = entry.form := by
  cases entry with
  | interface i => exact i.form_unplaced
  | typeAlias a => rfl

@[simp] theorem ValueEntry.forms_unplaced (entry : ValueEntry) :
    entry.unplaced.forms = entry.forms := by
  match entry with
  | .variable v => rfl
  | .function f => rfl

/-- Declarations are the same statements wherever they stand. -/
theorem Declarations.forms_unplaced (d : Declarations) : d.unplaced.forms = d.forms := by
  simp only [forms, unplaced, OrderedMap.values_mapValues, List.map_map, List.flatMap_map,
    Function.comp_def, TypeEntry.form_unplaced, ValueEntry.forms_unplaced]

end TypeSurface
