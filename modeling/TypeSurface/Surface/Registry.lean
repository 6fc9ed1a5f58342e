import TypeSurface.Surface.Basic
import TypeSurface.Surface.Stage

/-!
# Registry

A registry holds the surface that is in force.  Publishing fills an empty registry; replacing does
not mind what was there before.
-/

namespace TypeSurface

structure Registry where
  current : Option Surface
deriving DecidableEq

namespace Registry

def empty : Registry := ⟨none⟩

def publish (r : Registry) (s : Surface) : Except SurfaceError Registry :=
  match r.current with
  | none => .ok ⟨some s⟩
  | some _ => .error .alreadyPublished

/-- The registry with the surface, and the surface that it takes the place of. -/
def replace (r : Registry) (s : Surface) : Registry × Option Surface := (⟨some s⟩, r.current)

theorem publish_publish (r : Registry) (s t : Surface) :
    (r.publish s).bind (·.publish t) = .error .alreadyPublished := by
  unfold publish
  cases r.current <;> rfl

end Registry
end TypeSurface
