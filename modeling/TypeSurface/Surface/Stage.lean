import TypeSurface.Diagnostic.Basic

/-!
# Stages

A surface comes about in stages.  What goes wrong is reported with all the defects of the stage that
failed, and leaves the surface at the last stage that it had reached.
-/

namespace TypeSurface

inductive Stage where
  | unconfigured
  | modeSelected
  | merged
  | validated
  | published
deriving DecidableEq, Repr

def Stage.text : Stage → String
  | unconfigured => "unconfigured"
  | modeSelected => "mode-selected"
  | merged => "merged"
  | validated => "validated"
  | published => "published"

/-- Why there is no surface. -/
inductive SurfaceError where
  | configuration (defects : List Diagnostic)
  | unreadable (defects : List Diagnostic)
  | merge (conflicts : List Diagnostic)
  | validation (defects : List Diagnostic)
  | alreadyPublished
deriving DecidableEq, Repr

namespace SurfaceError

def diagnostics : SurfaceError → List Diagnostic
  | configuration ds | unreadable ds | merge ds | validation ds => ds
  | alreadyPublished => []

def stage : SurfaceError → Stage
  | configuration _ | unreadable _ => .unconfigured
  | merge _ | validation _ => .merged
  | alreadyPublished => .validated

def counted (text : String) (ds : List Diagnostic) (noun : String) : String :=
  text ++ " (" ++ toString ds.length ++ " " ++ noun ++ "(s))"

def message : SurfaceError → String
  | configuration ds => counted "invalid mode configuration" ds "defect"
  | unreadable ds => counted "declaration set has syntax errors" ds "defect"
  | merge ds => counted "declaration sets do not merge" ds "conflict"
  | validation ds => counted "merged surface failed validation" ds "defect"
  | alreadyPublished => "a global type surface has already been published"

/-- The families that the defects belong to, each once. -/
def families (e : SurfaceError) : List Family :=
  Family.all.filter fun f ↦ e.diagnostics.any (·.family = f)

end SurfaceError
end TypeSurface
