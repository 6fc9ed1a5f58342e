import TypeSurface.Profile.Standard
import TypeSurface.Project.Loading
import TypeSurface.Surface.Pipeline

/-!
# Builds

A build loads the sets that the settings ask for and makes a surface of them.
-/

namespace TypeSurface

structure Build where
  mode : Mode
  /-- The ids of the sets, each behind those that it refers to. -/
  installed : List String
  sources : List Source
  outcome : Except SurfaceError ValidatedSurface

namespace Build

def surface? (b : Build) : Option Surface :=
  match b.outcome with
  | .ok validated => some validated.surface
  | .error _ => none

/-- The last stage that the surface has reached. -/
def stage (b : Build) : Stage :=
  match b.outcome with
  | .ok _ => .published
  | .error e => e.stage

def diagnostics (b : Build) : List Diagnostic :=
  match b.outcome with
  | .ok validated => validated.warnings
  | .error e => e.diagnostics

end Build

namespace Settings

/-- The sets that are asked for, or else the one that the catalog has for the mode. -/
def requested (s : Settings) : List SetSource :=
  if s.sets.isEmpty then [.byId (Catalog.defaultFor s.mode).id] else s.sets

def validation (s : Settings) : ValidationOptions := ⟨s.hasIndexAudit, s.exclusions⟩

/-- What becomes of the sets once they are loaded. -/
def outcome (s : Settings) (l : Loading) : Except SurfaceError ValidatedSurface :=
  match l.error? with
  | some e => .error e
  | none => Surface.build s.mode l.sets (.standard s.mode) s.validation

def build (s : Settings) (t : FileTree) : Except Failure Build := do
  let index ← SetIndex.ofRoots t s.roots
  let loaded ← (Loading.run t index s.requested).result
  return ⟨s.mode, loaded.sets.map (·.id), loaded.sources, s.outcome loaded⟩

end Settings
end TypeSurface
