import TypeSurface.Declaration.Basic
import TypeSurface.Diagnostic.Basic
import TypeSurface.Profile.Basic
import TypeSurface.Syntax.TypeExpr.Nodes

/-!
# Exclusions

An excluded name must not be declared, and must not be reachable through a type that is written in a
declaration.  A dotted name is excluded with its first segment.
-/

namespace TypeSurface
namespace Profile

/-- The excluded name that a type refers to by itself. -/
def excludedName? (excluded : List String) : TypeExpr → Option String
  | .reference name _ =>
    let root := String.ofList (name.toList.takeWhile (· ≠ '.'))
    if excluded.contains root then some root
    else if excluded.contains name then some name
    else none
  | _ => none

/-- A way to an excluded name. -/
structure Exposure where
  name : String
  path : String
deriving DecidableEq, Repr

def exposures (excluded : List String) (path : String) (nodes : List TypeExpr) : List Exposure :=
  (nodes.filterMap (excludedName? excluded)).map (⟨·, path⟩)

/-- The types that are written in a member. -/
def memberNodes : MemberBody → List TypeExpr
  | .property type => type.nodes
  | .index _ keyType value => keyType.nodes ++ value.nodes
  | .method overloads | .call overloads | .construct overloads => overloads.flatMap Signature.nodes

def typeExposures (excluded : List String) (name : String) : TypeEntry → List Exposure
  | .interface i =>
    exposures excluded (name ++ " extends") (i.heritage.flatMap TypeExpr.nodes) ++
      i.members.entries.flatMap fun (key, m) ↦
        exposures excluded (name ++ "." ++ key.text) (memberNodes m.body)
  | .typeAlias a => exposures excluded name a.type.nodes

def valueExposures (excluded : List String) (name : String) : ValueEntry → List Exposure
  | .variable v => exposures excluded name v.type.nodes
  | .function f => exposures excluded name (f.overloads.flatMap Signature.nodes)

/-- The first exposure of each name. -/
def firstOfEach (found : List Exposure) : List Exposure :=
  found.foldl (fun kept e ↦ if kept.any (·.name == e.name) then kept else kept ++ [e]) []

/-- One defect for each excluded name that a declaration exposes; its own name does not count. -/
def exposureDefects (p : Profile) (owner : String) (origin : Origin) (found : List Exposure) :
    List Diagnostic :=
  (firstOfEach (found.filter (·.name ≠ owner))).map fun e ↦
    .atSpan .capabilityReachable [e.name, p.mode.text, e.path] origin.file origin.span

/-- One defect for each excluded name that is declared. -/
def declarationDefects (p : Profile) (d : Declarations) : List Diagnostic :=
  p.excluded.filterMap fun name ↦ (d.originOf? name).map fun origin ↦
    .atSpan .capabilityViolation [name, p.mode.text, origin.set] origin.file origin.span

def exclusionDefects (p : Profile) (d : Declarations) : List Diagnostic :=
  p.declarationDefects d ++
    d.types.entries.flatMap (fun (name, entry) ↦
      p.exposureDefects name entry.origin (typeExposures p.excluded name entry)) ++
    d.values.entries.flatMap fun (name, entry) ↦
      p.exposureDefects name entry.origin (valueExposures p.excluded name entry)

end Profile
end TypeSurface
