import InstanceTables.Distinct
import InstanceTables.Log

/-!
# The table of tensor types

For every function shape at hand, for every mapping and for the point scalar, the table
holds the types of all derivatives up to the highest order and the type of the values.
With no function and no mapping there is nothing to differentiate, and the table is
empty.
-/

namespace InstanceTables

/-- The shape of a scalar function on a point. -/
def pointScalar : Shape := ⟨0, 0, 1⟩

/-- The tensor types of functions, derivatives apart from values. -/
structure TensorTable where
  derivatives : List Derivative
  values : List Value
deriving DecidableEq, Repr

namespace TensorTable

def empty : TensorTable := ⟨[], []⟩

/-- The shapes whose tensor types are listed. -/
def workingShapes (functions : List Shape) (mappings : List Mapping) : List Shape :=
  functions ++ mappings.map Mapping.forward ++ [pointScalar]

/-- The tensor types of the functions and of the mappings, up to the highest order: lower
orders come first, and shapes in turn within an order.  The values are gone through in every
order, though none but the first adds any. -/
def build (functions : List Shape) (mappings : List Mapping) (order : MaxOrder) :
    Logged TensorTable :=
  if functions.isEmpty && mappings.isEmpty then pure empty
  else do
    let shapes := workingShapes functions mappings
    let derivatives :=
      distinct (order.orders.flatMap fun o => shapes.map (Derivative.ofOrder o))
    let values := distinct (order.orders.flatMap fun _ => shapes.map Value.ofShape)
    Logged.log (.tensorsEnumerated order derivatives.length values.length)
    return { derivatives, values }

variable (t : TensorTable)

/-- Every tensor type: the derivatives, then the values. -/
def tensors : List Tensor := t.derivatives.map .derivative ++ t.values.map .value

theorem length_tensors : t.tensors.length = t.derivatives.length + t.values.length := by
  simp [tensors]

end TensorTable

end InstanceTables
