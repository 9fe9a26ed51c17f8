import InstanceTables.Family
import InstanceTables.Tensor

/-!
# Containers

The container templates and what they are instantiated at.
-/

namespace InstanceTables

/-- An instance of a class template whose only argument is a dimension. -/
structure DimContainer where
  template : DimClass
  dim : UInt32
deriving DecidableEq, Hashable, Repr

inductive Scalar where
  | real
  | index
deriving DecidableEq, Hashable, Repr

/-- Values of basis functions kept for later: matrices, vectors of them, and constant
pointers to either. -/
inductive BasisCache where
  | matrix
  | matrixPtr
  | matrixVector
  | matrixVectorPtr
deriving DecidableEq, Hashable, Repr

/-- What a dynamic multi-array may hold. -/
inductive ArrayElement where
  | tensorIndex (dim : UInt32)
  | scalar (s : Scalar)
  | tensor (t : Tensor)
deriving DecidableEq, Hashable, Repr

/-- A multi-array of a rank, resized while the program runs. -/
structure DynamicMultiArray where
  element : ArrayElement
  rank : UInt32
deriving DecidableEq, Hashable, Repr

/-- What a cartesian product array may hold. -/
inductive ProductElement where
  | real
  | realPtr
  | index
  | cache (c : BasisCache)
deriving DecidableEq, Hashable, Repr

/-- Every element of cartesian product arrays, in the order in which they are listed. -/
def ProductElement.all : List ProductElement :=
  [.real, .realPtr, .index, .cache .matrix, .cache .matrixPtr, .cache .matrixVector,
    .cache .matrixVectorPtr]

theorem ProductElement.mem_all (e : ProductElement) : e ∈ ProductElement.all := by
  cases e with
  | cache c => cases c <;> decide
  | _ => decide

/-- An array of one factor for each dimension. -/
structure CartesianProductArray where
  element : ProductElement
  dim : UInt32
deriving DecidableEq, Hashable, Repr

/-- What a value vector holds: reals or tensors. -/
inductive ValueVector where
  | real
  | tensor (t : Tensor)
deriving DecidableEq, Hashable, Repr

/-- A table of tensors, by function and point. -/
structure ValueTable where
  tensor : Tensor
deriving DecidableEq, Hashable, Repr

end InstanceTables
