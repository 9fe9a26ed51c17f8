import InstanceTables.Closure

/-!
# Projections of the closure

The shapes that the rows of a closure need: the mappings of their domains, the shapes of
functions on either side of these, and the shapes of their reference spaces.
-/

namespace InstanceTables

def mappingTable (rows : List Space) : List Mapping := distinct (rows.map Space.mapping)

/-- The shapes of the rows' reference spaces, each once. -/
def refShapeTable (rows : List Space) : List Shape := distinct (rows.map Space.refShape)

/-- The shapes of functions: of each row on its reference domain and on the surrounding
space, then of each mapping in both directions. -/
def functionTable (rows : List Space) (mappings : List Mapping) : List Shape :=
  distinct (rows.flatMap (fun s => [s.refShape, s.physicalShape]) ++
    mappings.flatMap fun m => [m.forward, m.inverse])

/-- The tables of shapes that come from a closure. -/
structure Projection where
  mappings : List Mapping
  userMappings : List Mapping
  functions : List Shape
  refShapes : List Shape
  userRefShapes : List Shape
  /-- Of the user rows whose range is at most their dimension. -/
  filteredRefShapes : List Shape
deriving DecidableEq, Repr

namespace Projection

def build (spaces : Closure) : Logged Projection := do
  let mappings := mappingTable spaces.all
  let functions := functionTable spaces.all mappings
  let refShapes := refShapeTable spaces.all
  Logged.log (.projectionBuilt ⟨mappings.length, functions.length, refShapes.length⟩)
  return {
    mappings, functions, refShapes
    userMappings := mappingTable spaces.user
    userRefShapes := refShapeTable spaces.user
    filteredRefShapes := refShapeTable (spaces.user.filter fun s => s.range ≤ s.dim) }

end Projection

end InstanceTables
