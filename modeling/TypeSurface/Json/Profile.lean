import TypeSurface.Json.Declarations
import TypeSurface.Profile.Basic

/-!
# JSON form of profiles
-/

namespace TypeSurface

def Requirement.toJson : Requirement → Json
  | member owner name => .object [("kind", "member"), ("interface", owner), ("member", name)]
  | global name => .object [("kind", "global"), ("name", name)]

def Profile.toJson (p : Profile) : Json :=
  .object [("mode", p.mode.toJson), ("required", .ofList Requirement.toJson p.required),
    ("excluded", .strings p.excluded)]

end TypeSurface
