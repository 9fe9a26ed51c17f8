import InstanceTables.Projection
import InstanceTables.Spline

/-!
# The table of spline spaces

Every reference space and every physical space exists in both kinds; all of one kind
come before those of the next.
-/

namespace InstanceTables

def refSpaceTable (shapes : List Shape) : List RefSpace :=
  distinct (SplineKind.all.flatMap fun k => shapes.map fun f => ⟨k, f⟩)

def pushForwardTable (rows : List Space) : List PushForward :=
  distinct (rows.map Space.pushForward)

def physicalSpaceTable (rows : List Space) : List PhysicalSpace :=
  distinct (SplineKind.all.flatMap fun k => rows.map (PhysicalSpace.ofSpace k))

/-- The spline spaces of a closure and its projection. -/
structure SplineTable where
  refSpaces : List RefSpace
  userRefSpaces : List RefSpace
  filteredRefSpaces : List RefSpace
  pushForwards : List PushForward
  physicalSpaces : List PhysicalSpace
  userPhysicalSpaces : List PhysicalSpace
deriving DecidableEq, Repr

namespace SplineTable

/-- Lists the reference spaces of the projected shapes and the physical spaces of the
rows. -/
def build (spaces : Closure) (shapes : Projection) : SplineTable where
  refSpaces := refSpaceTable shapes.refShapes
  userRefSpaces := refSpaceTable shapes.userRefShapes
  filteredRefSpaces := refSpaceTable shapes.filteredRefShapes
  pushForwards := pushForwardTable spaces.all
  physicalSpaces := physicalSpaceTable spaces.all
  userPhysicalSpaces := physicalSpaceTable spaces.user

end SplineTable

end InstanceTables
