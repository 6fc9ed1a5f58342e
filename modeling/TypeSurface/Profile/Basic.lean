import TypeSurface.Mode.Basic

/-!
# Capability profiles

A profile says what a mode promises and what it must never expose.
-/

namespace TypeSurface

inductive Requirement where
  /-- The interface declares or inherits the member. -/
  | member (owner name : String)
  /-- The name is declared. -/
  | global (name : String)
deriving DecidableEq, Repr

def Requirement.text : Requirement → String
  | member owner name => owner ++ "." ++ name
  | global name => name

structure Profile where
  mode : Mode
  required : List Requirement
  excluded : List String
deriving DecidableEq, Repr

namespace Profile

def ofMode (mode : Mode) : Profile := ⟨mode, [], []⟩

def requireMembers (p : Profile) (owner : String) (members : List String) : Profile :=
  { p with required := p.required ++ members.map (Requirement.member owner) }

def requireGlobals (p : Profile) (names : List String) : Profile :=
  { p with required := p.required ++ names.map Requirement.global }

/-- A name that is excluded already is not added again. -/
def exclude (p : Profile) (names : List String) : Profile :=
  { p with excluded := names.foldl (fun all name ↦
      if name ∈ all then all else all ++ [name]) p.excluded }

def isExcluded (p : Profile) (name : String) : Bool := p.excluded.contains name

end Profile
end TypeSurface
