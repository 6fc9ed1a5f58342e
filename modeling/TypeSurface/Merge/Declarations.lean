import TypeSurface.Declaration.Set
import TypeSurface.Merge.Interface

/-!
# Merging declarations

Aliases and variables cannot be declared anew with another meaning; functions go together as methods
do.  Types are related under the aliases of both sides.
-/

namespace TypeSurface
namespace Merge

/-- The aliases of both sides; where both declare one, that of the extension. -/
def aliases (base extension : OrderedMap String TypeEntry) : OrderedMap String TypeEntry :=
  .ofList ((base.entries ++ extension.entries).filter fun (_, entry) ↦ entry.interface?.isNone)

def aliasConflict (name : String) (base extension : TypeAlias) : Diagnostic :=
  conflict .conflictingTypeAlias
    [name, base.type.text, base.origin.set, extension.type.text, extension.origin.set]
    extension.origin base.origin name

def typeEntries (types : OrderedMap String TypeEntry) (policy : Policy) (name : String)
    (base extension : TypeEntry) : Merged TypeEntry :=
  match base, extension with
  | .interface b, .interface e =>
    let merged := interfaces types policy b e
    ⟨.interface merged.value, merged.conflicts⟩
  | .typeAlias b, .typeAlias e =>
    ⟨base, if b.typeParams = e.typeParams ∧ b.type = e.type then [] else [aliasConflict name b e]⟩
  | _, _ =>
    ⟨base, [kindConflict name base.kindText base.origin extension.kindText extension.origin]⟩

def valueConflict (name baseText extensionText : String) (base extension : Origin) : Diagnostic :=
  conflict .conflictingValue [name, baseText, base.set, extensionText, extension.set]
    extension base name

/-- Two functions; the declaration that stays is that of the base, with gathered overloads, or that
of an extension that covers it. -/
def functionEntries (types : OrderedMap String TypeEntry) (policy : Policy) (name : String)
    (base extension : Function) : Merged ValueEntry :=
  match overloads? types policy base.overloads extension.overloads with
  | some overloads =>
    .clean (.function (match policy with
      | .gather => { base with overloads }
      | .replace => extension))
  | none =>
    ⟨.function base, [valueConflict name (Member.overloadsText "" base.overloads)
      (Member.overloadsText "" extension.overloads) base.origin extension.origin]⟩

def variableEntries (name : String) (base extension : Variable) : Merged ValueEntry :=
  ⟨.variable base,
    if base.kind ≠ extension.kind then
      [kindConflict name base.kind.text base.origin extension.kind.text extension.origin]
    else if base.type ≠ extension.type then
      [valueConflict name base.type.text extension.type.text base.origin extension.origin]
    else []⟩

def valueEntries (types : OrderedMap String TypeEntry) (policy : Policy) (name : String)
    (base extension : ValueEntry) : Merged ValueEntry :=
  match base, extension with
  | .variable b, .variable e => variableEntries name b e
  | .function b, .function e => functionEntries types policy name b e
  | _, _ =>
    ⟨base, [kindConflict name base.kindText base.origin extension.kindText extension.origin]⟩

def declarations (policy : Policy) (base extension : Declarations) : Merged Declarations :=
  let table := aliases base.types extension.types
  let types := mapsWith (typeEntries table policy) base.types extension.types
  let values := mapsWith (valueEntries table policy) base.values extension.values
  ⟨⟨types.value, values.value⟩, types.conflicts ++ values.conflicts⟩

/-- One more set on top of what has been merged. -/
def addSet (merged : Merged Declarations) (set : DeclarationSet) : Merged Declarations :=
  let next := declarations .replace merged.value set.declarations
  ⟨next.value, merged.conflicts ++ next.conflicts⟩

/-- The sets from left to right; the first is the base of the others. -/
def sets : List DeclarationSet → Merged Declarations
  | [] => .clean .empty
  | first :: rest => rest.foldl addSet (.clean first.declarations)

end Merge
end TypeSurface
