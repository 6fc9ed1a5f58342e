import TypeSurface.Config.Basic
import TypeSurface.Json.Basic
import TypeSurface.Json.Declarations
import TypeSurface.Project.Failure

/-!
# Settings

What a configuration comes down to: a mode, where the declaration sets come from, and how the
surface is validated.
-/

namespace TypeSurface

/-- Where a declaration set comes from. -/
inductive SetSource where
  /-- The set of this id, from a set root or else from the catalog. -/
  | byId (id : String)
  | byFile (path : Path)
deriving DecidableEq, Repr

namespace SetSource

/-- Whether a text is the path of a file rather than an id. -/
def isPath (text : String) : Bool :=
  ".d.ts".toList.isSuffixOf text.toList || text.toList.contains '/' || text.toList.contains '\\'

/-- White space around the text does not matter.  A relative path starts in `directory`. -/
def ofText (text : String) (directory : Path) : SetSource :=
  let name := Text.trimmed text
  if isPath name then byFile (directory.join ⟨name⟩) else byId name

def toJson : SetSource → Json
  | byId id => .object [("kind", "id"), ("value", id)]
  | byFile path => .object [("kind", "file"), ("value", path.text)]

end SetSource

structure Settings where
  mode : Mode
  /-- Without any set, the one is taken that the catalog has for the mode. -/
  sets : List SetSource
  roots : List Path
  exclusions : List String
  hasIndexAudit : Bool
deriving DecidableEq, Repr

namespace Settings

def default : Settings := ⟨.js, [], [], [], true⟩

def toJson (s : Settings) : Json :=
  .object [("mode", s.mode.toJson), ("sets", .ofList SetSource.toJson s.sets),
    ("setRoots", .ofList (fun p ↦ .string (Path.text p)) s.roots),
    ("extraExclusions", .strings s.exclusions), ("indexAudit", s.hasIndexAudit)]

end Settings

def Mode.ofTextOrFail (text : String) : Except Failure Mode :=
  match Mode.ofText? text with
  | some mode => .ok mode
  | none => .error (.unknownMode text)

/-- The settings of a configuration whose relative paths start in `directory`. -/
def Config.settings (c : Config) (directory : Path) : Except Failure Settings := do
  let mode ← match c.mode with
    | some text => Mode.ofTextOrFail text
    | none => pure Settings.default.mode
  return {
    mode
    sets := (c.sets.getD []).map fun text ↦ SetSource.ofText text directory
    roots := (c.roots.getD []).map fun root ↦ directory.join ⟨root⟩
    exclusions := c.exclusions.getD []
    hasIndexAudit := c.hasIndexAudit.getD Settings.default.hasIndexAudit
  }

end TypeSurface
