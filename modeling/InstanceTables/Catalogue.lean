import InstanceTables.Container.Table
import InstanceTables.Seed
import InstanceTables.Spline.Table

/-!
# The catalogue

All tables that come from a list of seeds and a highest derivative order, built one after
the other: spaces, their projections, tensor types, containers, spline spaces.
-/

namespace InstanceTables

/-- The tables of a list of seeds and a highest order. -/
structure Catalogue where
  maxOrder : MaxOrder
  spaces : Closure
  shapes : Projection
  tensors : TensorTable
  containers : ContainerTable
  splines : SplineTable
deriving DecidableEq, Repr

namespace Catalogue

def build (seeds : List Space) (order : MaxOrder) : Logged Catalogue := do
  Logged.log (.started seeds.length order)
  let spaces ← Closure.build seeds
  let shapes ← Projection.build spaces
  let tensors ← TensorTable.build shapes.functions shapes.mappings order
  let containers ← ContainerTable.build spaces.all tensors
  return {
    maxOrder := order
    spaces, shapes, tensors, containers
    splines := SplineTable.build spaces shapes }

/-- The tables of the seeds. -/
def ofSeeds (seeds : List Space) (order : MaxOrder) : Catalogue := (build seeds order).value

def order (value : Int) : Except BuildError MaxOrder :=
  match MaxOrder.ofInt? value with
  | some n => .ok n
  | none => .error (.invalidOrder value)

def seeds (text : String) : Except BuildError (List Space) :=
  (Seed.parseTable text).mapError .seed

def ofRows (rows : List Space) (maxOrder : Int) : Except BuildError (Logged Catalogue) :=
  (order maxOrder).map (build rows)

/-- Builds the tables of a seed text.  The order is checked before the text. -/
def ofText (text : String) (maxOrder : Int) : Except BuildError (Logged Catalogue) := do
  let n ← order maxOrder
  return build (← seeds text) n

/-- The rows of the seed file `path`, which was read with the given outcome. -/
def seedsOfFile (path : String) (contents : Except FileFault String) :
    Except BuildError (List Space) := do
  seeds (← contents.mapError (.unreadable path))

/-- Builds the tables of the seed file `path`, which was read with the given outcome.  The
order is checked first, then the file, then its text. -/
def ofFile (path : String) (contents : Except FileFault String) (maxOrder : Int) :
    Except BuildError (Logged Catalogue) := do
  let n ← order maxOrder
  let rows ← seedsOfFile path contents
  return do
    Logged.log (.seedsRead path rows.length)
    build rows n

end Catalogue

end InstanceTables
