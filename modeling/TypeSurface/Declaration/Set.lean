import TypeSurface.Declaration.Basic
import TypeSurface.Mode.Basic

/-!
# Declaration sets

A declaration set is what one file declares, under an id and a version.  It is a base set, or it
realises one mode.
-/

namespace TypeSurface

structure DeclarationSet where
  id : String
  version : String
  /-- The mode that the set realises; none for a base set. -/
  mode : Option Mode
  isDeprecated : Bool
  file : String
  /-- The ids of the sets that this one needs. -/
  references : List String
  declarations : Declarations
deriving DecidableEq

namespace DeclarationSet

/-- A set that declares nothing. -/
def blank (id : String) (mode : Option Mode) : DeclarationSet :=
  ⟨id, "0.0.0", mode, false, id ++ ".d.ts", [], .empty⟩

def isBase (s : DeclarationSet) : Bool := s.mode.isNone

def label (s : DeclarationSet) : String := s.id ++ "@" ++ s.version

end DeclarationSet
end TypeSurface
