import InstanceTables.Proofs.Closure
import InstanceTables.Catalogue

/-!
# Tables by name

A catalogue has many tables of entries of different types.  `Catalogue.entries` gives each by
its name, so that one statement can be about all of them.  The first such statements are that
no table lists an entry twice, and that without a seed no table lists any.
-/

namespace InstanceTables

/-- The tables of a catalogue. -/
inductive TableName where
  | user
  | face
  | all
  | extended
  | pushForwardRows
  | dims
  | userDims
  | faceDims
  | mappings
  | userMappings
  | functions
  | refShapes
  | userRefShapes
  | filteredRefShapes
  | derivatives
  | values
  | tensors
  | containerDims
  | perDim (c : DimClass)
  | dynamicMultiArrays
  | cartesianProductArrays
  | valueVectors
  | valueTables
  | refSpaces
  | userRefSpaces
  | filteredRefSpaces
  | pushForwards
  | physicalSpaces
  | userPhysicalSpaces
deriving DecidableEq, Repr

def TableName.Entry : TableName → Type
  | user | face | all | extended | pushForwardRows => Space
  | dims | userDims | faceDims | containerDims => UInt32
  | mappings | userMappings => Mapping
  | functions | refShapes | userRefShapes | filteredRefShapes => Shape
  | derivatives => Derivative
  | values => Value
  | tensors => Tensor
  | perDim _ => DimContainer
  | dynamicMultiArrays => DynamicMultiArray
  | cartesianProductArrays => CartesianProductArray
  | valueVectors => ValueVector
  | valueTables => ValueTable
  | refSpaces | userRefSpaces | filteredRefSpaces => RefSpace
  | pushForwards => PushForward
  | physicalSpaces | userPhysicalSpaces => PhysicalSpace

namespace Catalogue

/-- The entries of the table of the given name. -/
def entries (c : Catalogue) : (t : TableName) → List t.Entry
  | .user => c.spaces.user
  | .face => c.spaces.face
  | .all => c.spaces.all
  | .extended => c.spaces.extended
  | .pushForwardRows => c.spaces.pushForwardRows
  | .dims => c.spaces.dims
  | .userDims => c.spaces.userDims
  | .faceDims => c.spaces.faceDims
  | .mappings => c.shapes.mappings
  | .userMappings => c.shapes.userMappings
  | .functions => c.shapes.functions
  | .refShapes => c.shapes.refShapes
  | .userRefShapes => c.shapes.userRefShapes
  | .filteredRefShapes => c.shapes.filteredRefShapes
  | .derivatives => c.tensors.derivatives
  | .values => c.tensors.values
  | .tensors => c.tensors.tensors
  | .containerDims => c.containers.dims
  | .perDim k => c.containers.perDim k
  | .dynamicMultiArrays => c.containers.dynamicMultiArrays
  | .cartesianProductArrays => c.containers.cartesianProductArrays
  | .valueVectors => c.containers.valueVectors
  | .valueTables => c.containers.valueTables
  | .refSpaces => c.splines.refSpaces
  | .userRefSpaces => c.splines.userRefSpaces
  | .filteredRefSpaces => c.splines.filteredRefSpaces
  | .pushForwards => c.splines.pushForwards
  | .physicalSpaces => c.splines.physicalSpaces
  | .userPhysicalSpaces => c.splines.userPhysicalSpaces

end Catalogue

/-- No derivative and no value is listed twice, even if there is nothing to differentiate. -/
theorem TensorTable.nodup_build (functions : List Shape) (mappings : List Mapping) (n : MaxOrder) :
    (build functions mappings n).value.derivatives.Nodup ∧
      (build functions mappings n).value.values.Nodup := by
  unfold build
  split
  · exact ⟨List.nodup_nil, List.nodup_nil⟩
  · exact ⟨nodup_distinct _, nodup_distinct _⟩

/-- Derivatives are no values, so both together are listed once. -/
theorem TensorTable.nodup_tensors {t : TensorTable} (hd : t.derivatives.Nodup)
    (hv : t.values.Nodup) : t.tensors.Nodup := by
  refine List.Nodup.append (hd.map fun _ _ h => Tensor.derivative.inj h)
    (hv.map fun _ _ h => Tensor.value.inj h) ?_
  simp [List.disjoint_left]

theorem nodup_valueVectorTable (tensors : List Tensor) : (valueVectorTable tensors).Nodup := by
  unfold valueVectorTable
  split
  · exact List.nodup_nil
  · exact nodup_distinct _

/-- No table lists an entry twice. -/
theorem Catalogue.nodup_entries (seeds : List Space) (n : MaxOrder) (t : TableName) :
    ((ofSeeds seeds n).entries t).Nodup := by
  obtain ⟨hderivatives, hvalues⟩ := TensorTable.nodup_build
    (ofSeeds seeds n).shapes.functions (ofSeeds seeds n).shapes.mappings n
  cases t with
  | derivatives => exact hderivatives
  | values => exact hvalues
  | tensors => exact TensorTable.nodup_tensors hderivatives hvalues
  | perDim c => exact (nodup_distinct _).map fun _ _ h => (DimContainer.mk.inj h).2
  | valueVectors => exact nodup_valueVectorTable _
  | user | face | all | extended | pushForwardRows => exact nodup_distinct (α := Space) _
  | dims | userDims | faceDims | containerDims => exact nodup_distinct (α := UInt32) _
  | mappings | userMappings => exact nodup_distinct (α := Mapping) _
  | functions | refShapes | userRefShapes | filteredRefShapes => exact nodup_distinct (α := Shape) _
  | dynamicMultiArrays => exact nodup_distinct (α := DynamicMultiArray) _
  | cartesianProductArrays => exact nodup_distinct (α := CartesianProductArray) _
  | valueTables => exact nodup_distinct (α := ValueTable) _
  | refSpaces | userRefSpaces | filteredRefSpaces => exact nodup_distinct (α := RefSpace) _
  | pushForwards => exact nodup_distinct (α := PushForward) _
  | physicalSpaces | userPhysicalSpaces => exact nodup_distinct (α := PhysicalSpace) _

theorem Catalogue.nodup_tensors (seeds : List Space) (n : MaxOrder) :
    (ofSeeds seeds n).tensors.tensors.Nodup :=
  nodup_entries seeds n .tensors

/-- All tables are empty if that of the user's rows is. -/
theorem Catalogue.isEmpty_spaces_iff {seeds : List Space} {n : MaxOrder} :
    (ofSeeds seeds n).spaces.isEmpty ↔ ∀ t, (ofSeeds seeds n).entries t = [] := by
  constructor
  · intro h t
    obtain rfl : seeds = [] := Closure.isEmpty_build_iff.1 h
    cases t <;> rfl
  · intro h
    exact List.isEmpty_iff.2 (h .user)

end InstanceTables
