import TypeSurface.Merge.Basic
import TypeSurface.Relation.Assignable

/-!
# Merging interfaces

A member that both interfaces declare becomes the member of the extension, provided that it serves
everyone who uses the member of the base.
-/

namespace TypeSurface
namespace Merge

/-- The body that two overloaded members of one kind make under a policy. -/
def overloads? (types : OrderedMap String TypeEntry) (policy : Policy)
    (base extension : List Signature) : Option (List Signature) :=
  match policy with
  | .gather => some (appendNew base extension)
  | .replace =>
    if Relation.overloadsCover (Relation.isAssignable types) extension base then some extension
    else none

/-- `base` with gathered overloads, or `extension` if it covers the base. -/
def overloadedMember? (types : OrderedMap String TypeEntry) (policy : Policy)
    (base extension : Member) (ofOverloads : List Signature → MemberBody)
    (b e : List Signature) : Option Member :=
  (overloads? types policy b e).map fun overloads ↦
    match policy with
    | .gather => { base with body := ofOverloads overloads }
    | .replace => extension

/-- The extension, if its type is assignable to that of the base and it is readonly where the base
is. -/
def valueMember? (types : OrderedMap String TypeEntry) (base extension : Member)
    (b e : TypeExpr) : Option Member :=
  if base.isReadonly && !extension.isReadonly then none
  else if Relation.isAssignable types e b then some extension
  else none

/-- The member that two members of one key make; none if the extension would break users of the
base. -/
def member? (types : OrderedMap String TypeEntry) (policy : Policy) (base extension : Member) :
    Option Member :=
  if base.hasSameShape extension then some extension
  else if !base.isOptional && extension.isOptional then none
  else
    match base.body, extension.body with
    | .property b, .property e => valueMember? types base extension b e
    | .index _ _ b, .index _ _ e => valueMember? types base extension b e
    | .method b, .method e => overloadedMember? types policy base extension .method b e
    | .call b, .call e => overloadedMember? types policy base extension .call b e
    | .construct b, .construct e => overloadedMember? types policy base extension .construct b e
    | _, _ => none

def memberConflict (owner : String) (base extension : Member) (key : MemberKey) : Diagnostic :=
  conflict .incompatibleMember
    [key.text, owner, base.describe, base.origin.set, extension.describe, extension.origin.set]
    extension.origin base.origin (owner ++ "." ++ key.text)

/-- Two members of an interface; the base stays where they conflict. -/
def members (types : OrderedMap String TypeEntry) (policy : Policy) (owner : String)
    (key : MemberKey) (base extension : Member) : Merged Member :=
  match member? types policy base extension with
  | some m => .clean m
  | none => ⟨base, [memberConflict owner base extension key]⟩

/-- Type parameters agree in number and names. -/
def haveSameParams (base extension : Interface) : Bool :=
  base.typeParams.length == extension.typeParams.length &&
    Relation.haveSameNames base.typeParams extension.typeParams

def paramConflict (base extension : Interface) : Diagnostic :=
  conflict .typeParameterMismatch
    [base.name, base.typeParamsText, base.origin.set, extension.typeParamsText,
      extension.origin.set]
    extension.origin base.origin base.name

def interfaces (types : OrderedMap String TypeEntry) (policy : Policy)
    (base extension : Interface) : Merged Interface :=
  let merged := mapsWith (members types policy base.name) base.members extension.members
  ⟨{ base with
      heritage := appendNew base.heritage extension.heritage
      members := merged.value },
    (if haveSameParams base extension then [] else [paramConflict base extension]) ++
      merged.conflicts⟩

end Merge
end TypeSurface
