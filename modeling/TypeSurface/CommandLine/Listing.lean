import TypeSurface.Catalog.Basic
import TypeSurface.Profile.Basic
import TypeSurface.Surface.Printer

/-!
# Listings

What the program says about the catalog and about a profile.
-/

namespace TypeSurface

/-- Blanks behind a text, up to a width. -/
def padded (width : Nat) (s : String) : String := s.pushn ' ' (width - s.length)

namespace Catalog

def kindText (s : DeclarationSet) : String :=
  match s.mode with
  | none => "base"
  | some mode => "mode " ++ mode.text

def description (s : EmbeddedSet) : String :=
  match load s.id with
  | .ok set =>
    let deprecated := if set.isDeprecated then ", deprecated" else ""
    set.label ++ " (" ++ kindText set ++ deprecated ++ ")"
  | .error e => s.id ++ " (" ++ e.message ++ ")"

/-- The id, the file and the description of each set, a line each. -/
def listing : String :=
  String.join (all.map fun s ↦
    lineOf (padded 12 s.id ++ " " ++ padded 20 s.file ++ " " ++ description s))

end Catalog

namespace Profile

/-- A heading with the number of items, and the items below it. -/
def itemized (heading : String) (items : List String) : String :=
  lineOf (heading ++ " (" ++ toString items.length ++ "):") ++
    String.join (items.map fun item ↦ lineOf ("  " ++ item))

def listing (p : Profile) : String :=
  lineOf ("mode: " ++ p.mode.text) ++ itemized "required" (p.required.map Requirement.text) ++
    itemized "excluded" p.excluded

end Profile
end TypeSurface
