import TypeSurface.Declaration.Set
import TypeSurface.Surface.Stage

/-!
# Mode selection

A mode is made of one base set and one set that realises it.  Installed sets from which these two
cannot be told are refused, with every reason at once.
-/

namespace TypeSurface

structure Selection where
  mode : Mode
  base : DeclarationSet
  extension : DeclarationSet
deriving DecidableEq

namespace Selection

/-- The two sets, the base first. -/
def sets (s : Selection) : List DeclarationSet := [s.base, s.extension]

def quotedIds (sets : List DeclarationSet) : String :=
  Text.commaSeparated (sets.map fun s ↦ "'" ++ s.id ++ "'")

def baseDefects : List DeclarationSet → List Diagnostic
  | [] => [.global .missingBaseSet []]
  | [_] => []
  | sets => [.global .duplicateBaseSet [quotedIds sets]]

/-- Several sets for modes are ambiguous, even if all are for one mode. -/
def modeDefects (mode : Mode) : List DeclarationSet → List Diagnostic
  | [] => [.global .missingModeSet [mode.text]]
  | [s] =>
    if s.mode = some mode then []
    else [.global .modeMismatch [mode.text, s.id, (s.mode.map Mode.text).getD "base"]]
  | sets => [.global .ambiguousMode [quotedIds sets]]

def select (mode : Mode) (installed : List DeclarationSet) : Except SurfaceError Selection :=
  let bases := installed.filter (·.isBase)
  let extensions := installed.filter (!·.isBase)
  match bases, extensions, baseDefects bases ++ modeDefects mode extensions with
  | [base], [extension], [] => .ok ⟨mode, base, extension⟩
  | _, _, defects => .error (.configuration defects)

end Selection
end TypeSurface
