import InstanceTables.Container
import InstanceTables.Spline
import InstanceTables.Text.Decimal

/-!
# Class names

How the types of the tables are spelled in a declaration.  A name states every argument of
its template, so that different types have different names.
-/

namespace InstanceTables

open Text (decimal)

/-- Types with a spelling in declarations. -/
class Spelled (α : Type) where
  /-- The spelling. -/
  spell : α → String

export Spelled (spell)

/-- The tensor of `rank` indices, each of which counts up to `range`. -/
instance : Spelled Value where
  spell v :=
    "Tensor<" ++ decimal v.range ++ ", " ++ decimal v.rank ++
      ", tensor::contravariant, Tdouble>"

theorem spell_value (v : Value) :
    spell v = "Tensor<" ++ decimal v.range ++ ", " ++ decimal v.rank ++
      ", tensor::contravariant, Tdouble>" := rfl

/-- The tensor of `order` indices, each of which counts up to `dim`, over the value. -/
instance : Spelled Derivative where
  spell d :=
    "Tensor<" ++ decimal d.dim ++ ", " ++ decimal d.order ++ ", tensor::covariant, " ++
      spell d.value ++ ">"

theorem spell_derivative (d : Derivative) :
    spell d = "Tensor<" ++ decimal d.dim ++ ", " ++ decimal d.order ++ ", tensor::covariant, " ++
      spell d.value ++ ">" := rfl

instance : Spelled Tensor where
  spell
    | .derivative d => spell d
    | .value v => spell v

instance : Spelled DimContainer where
  spell c := c.template.className ++ "<" ++ decimal c.dim ++ ">"

theorem spell_dimContainer (c : DimContainer) :
    spell c = c.template.className ++ "<" ++ decimal c.dim ++ ">" := rfl

instance : Spelled Scalar where
  spell
    | .real => "Real"
    | .index => "Index"

/-- The matrix type that basis values are kept in. -/
def matrixName : String := "boost::numeric::ublas::matrix<Real>"

instance : Spelled BasisCache where
  spell
    | .matrix => matrixName
    | .matrixPtr => "const " ++ matrixName ++ " *"
    | .matrixVector => "vector<" ++ matrixName ++ ">"
    | .matrixVectorPtr => "const vector<" ++ matrixName ++ "> *"

instance : Spelled ArrayElement where
  spell
    | .tensorIndex d => "TensorIndex<" ++ decimal d ++ ">"
    | .scalar s => spell s
    | .tensor t => spell t

instance : Spelled DynamicMultiArray where
  spell a := "DynamicMultiArray<" ++ spell a.element ++ "," ++ decimal a.rank ++ ">"

theorem spell_dynamicMultiArray (a : DynamicMultiArray) :
    spell a = "DynamicMultiArray<" ++ spell a.element ++ "," ++ decimal a.rank ++ ">" := rfl

instance : Spelled ProductElement where
  spell
    | .real => "Real"
    | .realPtr => "Real*"
    | .index => "Index"
    | .cache c => spell c

instance : Spelled CartesianProductArray where
  spell a := "CartesianProductArray<" ++ spell a.element ++ "," ++ decimal a.dim ++ ">"

theorem spell_cartesianProductArray (a : CartesianProductArray) :
    spell a = "CartesianProductArray<" ++ spell a.element ++ "," ++ decimal a.dim ++ ">" := rfl

instance : Spelled ValueVector where
  spell
    | .real => "ValueVector<Real>"
    | .tensor t => "ValueVector<" ++ spell t ++ ">"

theorem spell_valueVector_real : spell ValueVector.real = "ValueVector<Real>" := rfl

theorem spell_valueVector_tensor (t : Tensor) :
    spell (ValueVector.tensor t) = "ValueVector<" ++ spell t ++ ">" := rfl

instance : Spelled ValueTable where
  spell t := "ValueTable<" ++ spell t.tensor ++ ">"

theorem spell_valueTable (t : ValueTable) :
    spell t = "ValueTable<" ++ spell t.tensor ++ ">" := rfl

instance : Spelled Mapping where
  spell m := "Mapping<" ++ decimal m.dim ++ "," ++ decimal m.codim ++ ">"

theorem spell_mapping (m : Mapping) :
    spell m = "Mapping<" ++ decimal m.dim ++ "," ++ decimal m.codim ++ ">" := rfl

instance : Spelled RefSpace where
  spell r :=
    r.kind.className ++ "<" ++ decimal r.shape.dim ++ "," ++ decimal r.shape.range ++ "," ++
      decimal r.shape.rank ++ ">"

theorem spell_refSpace (r : RefSpace) :
    spell r = r.kind.className ++ "<" ++ decimal r.shape.dim ++ "," ++ decimal r.shape.range ++
      "," ++ decimal r.shape.rank ++ ">" := rfl

instance : Spelled PushForward where
  spell p :=
    "PushForward<Transformation::" ++ p.transformation.name ++ ", " ++ decimal p.dim ++
      ", " ++ decimal p.codim ++ ">"

theorem spell_pushForward (p : PushForward) :
    spell p = "PushForward<Transformation::" ++ p.transformation.name ++ ", " ++ decimal p.dim ++
      ", " ++ decimal p.codim ++ ">" := rfl

instance : Spelled PhysicalSpace where
  spell s := "PhysicalSpace <" ++ spell s.refSpace ++ ", " ++ spell s.pushForward ++ " >"

theorem spell_physicalSpace (s : PhysicalSpace) :
    spell s = "PhysicalSpace <" ++ spell s.refSpace ++ ", " ++ spell s.pushForward ++ " >" := rfl

end InstanceTables
