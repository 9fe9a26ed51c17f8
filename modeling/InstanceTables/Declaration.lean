import InstanceTables.Catalogue
import InstanceTables.Spelling

/-!
# Declarations

What is declared: the entries of the tables, family by family.  The tables of the whole
closure are declared, not those of the user's spaces alone.
-/

namespace InstanceTables

/-- A type whose instantiation can be declared. -/
inductive Declaration where
  | tensor (t : Tensor)
  | dimContainer (c : DimContainer)
  | dynamicMultiArray (a : DynamicMultiArray)
  | cartesianProductArray (a : CartesianProductArray)
  | valueVector (v : ValueVector)
  | valueTable (t : ValueTable)
  | mapping (m : Mapping)
  | refSpace (r : RefSpace)
  | pushForward (p : PushForward)
  | physicalSpace (s : PhysicalSpace)
deriving DecidableEq, Repr

instance : Spelled Declaration where
  spell
    | .tensor t => spell t
    | .dimContainer c => spell c
    | .dynamicMultiArray a => spell a
    | .cartesianProductArray a => spell a
    | .valueVector v => spell v
    | .valueTable t => spell t
    | .mapping m => spell m
    | .refSpace r => spell r
    | .pushForward p => spell p
    | .physicalSpace s => spell s

/-- The declarations of a family, in the order of its table. -/
def Family.declarations (c : Catalogue) : Family → List Declaration
  | tensors => c.tensors.tensors.map .tensor
  | perDim f => (c.containers.perDim f).map .dimContainer
  | dynamicMultiArray => c.containers.dynamicMultiArrays.map .dynamicMultiArray
  | cartesianProductArray =>
    c.containers.cartesianProductArrays.map .cartesianProductArray
  | valueVector => c.containers.valueVectors.map .valueVector
  | valueTable => c.containers.valueTables.map .valueTable
  | mapping => c.shapes.mappings.map .mapping
  | refSpace => c.splines.refSpaces.map .refSpace
  | pushForward => c.splines.pushForwards.map .pushForward
  | physicalSpace => c.splines.physicalSpaces.map .physicalSpace

/-- The line that declares the class of the given name. -/
def declarationLine (className : String) : String :=
  "template class " ++ className ++ " ;\n"

/-- The comment that a generated text begins with. -/
def header (generator : String) : String :=
  "// This file was automatically generated from " ++ generator ++
    "\n// DO NOT edit as it will be overwritten.\n\n"

end InstanceTables
