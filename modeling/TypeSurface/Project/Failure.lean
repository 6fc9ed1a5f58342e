import TypeSurface.Diagnostic.Rule
import TypeSurface.Diagnostic.Template
import TypeSurface.FileTree.Basic
import TypeSurface.Json.Fault
import TypeSurface.Mode.Basic

/-!
# Failures

A failure stops a run before or behind the building of a surface: a configuration or a file that
cannot be had.  Defects of declaration sets are no failures, they are diagnostics.
-/

namespace TypeSurface

inductive Failure where
  | unknownMode (text : String)
  | missingConfig (path : Path)
  | configNotFile (path : Path)
  | unreadableConfig (path : Path) (fault : FileFault)
  | malformedText (fault : Json.Fault)
  | malformedConfig (path : Path) (fault : Json.Fault)
  | cyclicConfig (path : Path)
  | rootNotDirectory (path : Path)
  | unreadableSet (path : Path) (fault : FileFault)
  | outputDirectory (path : Path) (fault : FileFault)
  | unwritable (path : Path) (fault : FileFault)
deriving DecidableEq, Repr

namespace Failure

def malformedTextCauses (fault : Json.Fault) : List String :=
  ["failed to parse jsmconfig JSON", fault.message]

/-- What went wrong, and then what caused it, down to the last cause. -/
def causes : Failure → List String
  | unknownMode text => [Template.fill Rule.unknownMode.template [text, Mode.expectedTexts]]
  | missingConfig path => ["jsmconfig not found at " ++ path.text]
  | configNotFile path => ["project path is not a file: " ++ path.text]
  | unreadableConfig path fault => ["failed to read jsmconfig: " ++ path.text, fault.message]
  | malformedText fault => malformedTextCauses fault
  | malformedConfig path fault =>
    ("failed to parse jsmconfig: " ++ path.text) :: malformedTextCauses fault
  | cyclicConfig path => ["jsmconfig extends cycle detected at " ++ path.text]
  | rootNotDirectory path => ["set root is not a directory: " ++ path.text]
  | unreadableSet path fault => ["failed to read declaration set: " ++ path.text, fault.message]
  | outputDirectory path fault =>
    ["failed to create output directory " ++ path.text, fault.message]
  | unwritable path fault => ["failed to write " ++ path.text, fault.message]

/-- The path that was not what it should be. -/
def path? : Failure → Option Path
  | missingConfig path | configNotFile path | unreadableConfig path _ | malformedConfig path _
  | cyclicConfig path | rootNotDirectory path | unreadableSet path _ | outputDirectory path _
  | unwritable path _ => some path
  | unknownMode _ | malformedText _ => none

def message (f : Failure) : String := ": ".intercalate f.causes

end Failure
end TypeSurface
