import InstanceTables.Closure
import InstanceTables.Container
import InstanceTables.Tensor.Table

/-!
# The table of containers

Which containers the rows of a closure and its tensor types need.
-/

namespace InstanceTables

/-- The instances of every container template. -/
structure ContainerTable where
  /-- The dimensions at which the templates of a dimension are instantiated. -/
  dims : List UInt32
  dynamicMultiArrays : List DynamicMultiArray
  cartesianProductArrays : List CartesianProductArray
  valueVectors : List ValueVector
  valueTables : List ValueTable
deriving DecidableEq, Repr

/-- Arrays of indices, reals and positions in each dimension, and the second-rank arrays
of each tensor type. -/
def dynamicMultiArrayTable (dims : List UInt32) (tensors : List Tensor) :
    List DynamicMultiArray :=
  distinct (dims.flatMap (fun d =>
      [⟨.tensorIndex d, d⟩, ⟨.scalar .real, d⟩, ⟨.scalar .index, d⟩]) ++
    tensors.map fun t => ⟨.tensor t, 2⟩)

def cartesianProductArrayTable (dims : List UInt32) : List CartesianProductArray :=
  distinct (ProductElement.all.flatMap fun e => dims.map fun d => ⟨e, d⟩)

/-- A vector of reals and one of each tensor type; none at all if there is no tensor. -/
def valueVectorTable (tensors : List Tensor) : List ValueVector :=
  if tensors.isEmpty then [] else distinct (.real :: tensors.map .tensor)

def valueTableTable (tensors : List Tensor) : List ValueTable :=
  distinct (tensors.map .mk)

namespace ContainerTable

/-- The containers that the rows and the tensor types need. -/
def build (rows : List Space) (tensors : TensorTable) : Logged ContainerTable := do
  let t : ContainerTable := {
    dims := dimensions rows
    dynamicMultiArrays := dynamicMultiArrayTable (rows.map Space.dim) tensors.tensors
    cartesianProductArrays := cartesianProductArrayTable (rows.map Space.dim)
    valueVectors := valueVectorTable tensors.tensors
    valueTables := valueTableTable tensors.tensors }
  Logged.log (.containersEnumerated ⟨t.dims.length, t.dynamicMultiArrays.length,
    t.cartesianProductArrays.length, t.valueVectors.length, t.valueTables.length⟩)
  return t

variable (t : ContainerTable)

/-- The instances of a class template of a dimension. -/
def perDim (c : DimClass) : List DimContainer := t.dims.map fun d => ⟨c, d⟩

end ContainerTable

end InstanceTables
