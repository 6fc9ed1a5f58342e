import TypeSurface.FileTree.Path
import TypeSurface.Text.Slice

/-!
# Options

What one invocation of the program asks for.
-/

namespace TypeSurface

/-- The form in which a surface is printed. -/
inductive Emission where
  | declarations
  | json
deriving DecidableEq, Repr

/-- The case of ASCII letters does not matter. -/
def Emission.ofText? (text : String) : Option Emission :=
  match Text.lowerAscii text with
  | "dts" => some declarations
  | "json" => some json
  | _ => none

structure Options where
  listsSets : Bool
  showsConfig : Bool
  showsProfile : Bool
  project : Option Path
  mode : Option String
  sets : Option (List String)
  roots : List Path
  exclusions : List String
  skipsIndexAudit : Bool
  emission : Option Emission
  out : Option Path
  isPretty : Bool
deriving DecidableEq, Repr

def Options.blank : Options :=
  ⟨false, false, false, none, none, none, [], [], false, none, none, false⟩

end TypeSurface
