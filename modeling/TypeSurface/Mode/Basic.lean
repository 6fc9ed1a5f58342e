import TypeSurface.Text.Slice

/-!
# Modes

A mode is one of the ways in which a program is compiled.  What is global differs between them.
-/

namespace TypeSurface

inductive Mode where
  | js
  | hostNative
deriving DecidableEq, Repr

namespace Mode

def all : List Mode := [.js, .hostNative]

theorem mem_all (m : Mode) : m ∈ all := by
  cases m <;> simp [all]

def text : Mode → String
  | js => "js"
  | hostNative => "host-native"

/-- The texts of all modes, as messages list them. -/
def expectedTexts : String := ", ".intercalate (all.map text)

/-- White space around the text and the case of ASCII letters do not matter. -/
def ofText? (s : String) : Option Mode :=
  let wanted := Text.lowerAscii (Text.trimmed s)
  all.find? (·.text == wanted)

/-- What is said of a text that names no mode. -/
def unknownMessage (s : String) : String := "unknown mode '" ++ s ++ "'"

end Mode
end TypeSurface
