import TypeSurface.Text.Slice

/-!
# Log formats
-/

namespace TypeSurface

inductive LogFormat where
  | text
  | tree
  | json
deriving DecidableEq, Repr

/-- White space around the name and the case of ASCII letters do not matter; a name that is not
known means plain text. -/
def LogFormat.ofName (name : String) : LogFormat :=
  match Text.lowerAscii (Text.trimmed name) with
  | "tree" => tree
  | "json" => json
  | _ => text

end TypeSurface
