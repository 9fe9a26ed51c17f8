import InstanceTables.Space

/-!
# Spline spaces

A reference space is a space of splines of one of two kinds on a reference domain.  A
physical space is a reference space carried along a push-forward.
-/

namespace InstanceTables

inductive SplineKind where
  | bspline
  | nurbs
deriving DecidableEq, Hashable, Repr

def SplineKind.all : List SplineKind := [.bspline, .nurbs]

theorem SplineKind.mem_all (k : SplineKind) : k ∈ SplineKind.all := by
  cases k <;> decide

def SplineKind.className : SplineKind → String
  | bspline => "BSplineSpace"
  | nurbs => "NURBSSpace"

/-- A space of splines of a shape. -/
structure RefSpace where
  kind : SplineKind
  shape : Shape
deriving DecidableEq, Hashable, Repr

/-- A reference space on a physical domain. -/
structure PhysicalSpace where
  refSpace : RefSpace
  pushForward : PushForward
deriving DecidableEq, Hashable, Repr

/-- The physical space of a kind on a row. -/
def PhysicalSpace.ofSpace (kind : SplineKind) (s : Space) : PhysicalSpace :=
  ⟨⟨kind, s.refShape⟩, s.pushForward⟩

end InstanceTables
