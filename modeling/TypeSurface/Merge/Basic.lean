import TypeSurface.Declaration.Basic
import TypeSurface.Diagnostic.Basic

/-!
# Merging

To merge is to bring a base and an extension of it together.  The result holds a value in any case;
where the two cannot go together it keeps the side of the base and reports a conflict, which stands
at the extension and refers to the base.
-/

namespace TypeSurface

structure Merged (α : Type) where
  value : α
  conflicts : List Diagnostic

namespace Merged

def clean {α : Type} (value : α) : Merged α := ⟨value, []⟩

def isClean {α : Type} (m : Merged α) : Bool := m.conflicts.isEmpty

end Merged

namespace Merge

/-- How repeated functions and methods go together. -/
inductive Policy where
  /-- The extension takes the place of the base. -/
  | replace
  /-- The extension adds overloads to the base. -/
  | gather
deriving DecidableEq

/-- A conflict over `name`. -/
def conflict (rule : Rule) (args : List String) (extension base : Origin) (name : String) :
    Diagnostic :=
  (Diagnostic.atSpan rule args extension.file extension.span).withRelated
    ⟨base.file, base.span.start, base.span.length,
      "'" ++ name ++ "' is also declared here by '" ++ base.set ++ "'."⟩

/-- A conflict between declarations of two kinds. -/
def kindConflict (name baseKind : String) (base : Origin) (extensionKind : String)
    (extension : Origin) : Diagnostic :=
  conflict .declarationKindConflict [name, baseKind, base.set, extensionKind, extension.set]
    extension base name

/-- The items of `base`, and those of `extension` that are not there yet. -/
def appendNew {α : Type} [DecidableEq α] (base extension : List α) : List α :=
  extension.foldl (fun items a ↦ if a ∈ items then items else items ++ [a]) base

/-- Entry by entry: `f` decides where both maps hold a key, and an entry of only one map stays. -/
def mapsWith {κ ν : Type} [DecidableEq κ] (f : κ → ν → ν → Merged ν)
    (base extension : OrderedMap κ ν) : Merged (OrderedMap κ ν) :=
  let met := extension.entries.map fun (k, e) ↦
    (k, match base.get? k with
      | none => Merged.clean e
      | some b => f k b e)
  ⟨met.foldl (fun m (k, r) ↦ m.insert k r.value) base, met.flatMap fun (_, r) ↦ r.conflicts⟩

@[simp] theorem appendNew_nil {α : Type} [DecidableEq α] (base : List α) :
    appendNew base [] = base := rfl

@[simp] theorem mapsWith_empty {κ ν : Type} [DecidableEq κ] (f : κ → ν → ν → Merged ν)
    (base : OrderedMap κ ν) : mapsWith f base .empty = .clean base := rfl

end Merge
end TypeSurface
