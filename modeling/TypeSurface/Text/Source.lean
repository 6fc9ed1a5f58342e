/-!
# Sources

The text of a file under the name that its diagnostics carry.
-/

namespace TypeSurface

structure Source where
  file : String
  text : String
deriving DecidableEq, Repr

/-- The text that was registered last under a name.  What belongs to no file has no text. -/
def Source.find? (sources : List Source) (file : String) : Option Source :=
  if file = "" then none else sources.reverse.find? (·.file == file)

end TypeSurface
