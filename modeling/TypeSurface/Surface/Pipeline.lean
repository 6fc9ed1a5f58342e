import TypeSurface.Index.Audit
import TypeSurface.Merge.Declarations
import TypeSurface.Mode.Selection
import TypeSurface.Profile.Coverage
import TypeSurface.Profile.Exclusion
import TypeSurface.Surface.Basic

/-!
# Building a surface

Sets are selected for a mode, merged, and validated against a profile.  Each stage is a type of its
own, so that only what has been validated becomes a surface.  A stage that fails reports all of its
defects.
-/

namespace TypeSurface

structure ValidationOptions where
  hasIndexAudit : Bool
  /-- Names that are excluded besides those of the profile. -/
  extraExclusions : List String
deriving DecidableEq

def ValidationOptions.default : ValidationOptions := ⟨true, []⟩

/-- The declarations of the selected sets, not yet held against a profile. -/
structure MergedSurface where
  mode : Mode
  sets : List SetInfo
  declarations : Declarations
  conflicts : List Diagnostic
  warnings : List Diagnostic

structure ValidatedSurface where
  surface : Surface
  warnings : List Diagnostic

def deprecationWarning (s : DeclarationSet) : Diagnostic :=
  .ofRule .deprecatedDeclarationSet [s.id] s.file 0 0

/-- Conflicts do not stop the merging; validation refuses them. -/
def Selection.merge (s : Selection) : MergedSurface :=
  let merged := Merge.sets s.sets
  ⟨s.mode, s.sets.map DeclarationSet.info, merged.value, merged.conflicts,
    (s.sets.filter (·.isDeprecated)).map deprecationWarning⟩

namespace MergedSurface

def modeDefects (m : MergedSurface) (p : Profile) : List Diagnostic :=
  if p.mode = m.mode then []
  else [.global .modeMismatch [p.mode.text, "profile", m.mode.text]]

/-- The defects of merged declarations under a profile. -/
def defects (m : MergedSurface) (p : Profile) (options : ValidationOptions) : List Diagnostic :=
  m.modeDefects p ++ p.coverageDefects m.declarations ++ p.exclusionDefects m.declarations ++
    if options.hasIndexAudit then Index.auditDefects m.declarations else []

def validate (m : MergedSurface) (p : Profile) (options : ValidationOptions) :
    Except SurfaceError ValidatedSurface :=
  if m.conflicts.isEmpty then
    let defects := m.defects (p.exclude options.extraExclusions) options
    if defects.isEmpty then .ok ⟨⟨m.mode, m.sets, m.declarations⟩, m.warnings⟩
    else .error (.validation defects)
  else .error (.merge m.conflicts)

end MergedSurface

/-- All stages for one mode. -/
def Surface.build (mode : Mode) (installed : List DeclarationSet) (p : Profile)
    (options : ValidationOptions) : Except SurfaceError ValidatedSurface := do
  let selection ← Selection.select mode installed
  selection.merge.validate p options

end TypeSurface
