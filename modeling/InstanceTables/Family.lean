import InstanceTables.Error

/-!
# Families of declarations

The class templates whose instances are declared fall into sixteen families, one of
tensors, seven of containers that depend on a dimension alone, and eight more.  A family
is selected by its spelling on the command line.
-/

namespace InstanceTables

/-- The class templates whose only argument is a dimension. -/
inductive DimClass where
  | tensorIndex
  | tensorSizedContainer
  | tensorProductArray
  | cartesianProductIndexer
  | unitElement
  | multiplicity
  | quadrature
deriving DecidableEq, Hashable, Repr

namespace DimClass

def all : List DimClass :=
  [.tensorIndex, .tensorSizedContainer, .tensorProductArray, .cartesianProductIndexer,
    .unitElement, .multiplicity, .quadrature]

def className : DimClass → String
  | tensorIndex => "TensorIndex"
  | tensorSizedContainer => "TensorSizedContainer"
  | tensorProductArray => "TensorProductArray"
  | cartesianProductIndexer => "CartesianProductIndexer"
  | unitElement => "UnitElement"
  | multiplicity => "Multiplicity"
  | quadrature => "Quadrature"

def name : DimClass → String
  | tensorIndex => "tensor-index"
  | tensorSizedContainer => "tensor-sized-container"
  | tensorProductArray => "tensor-product-array"
  | cartesianProductIndexer => "cartesian-product-indexer"
  | unitElement => "unit-element"
  | multiplicity => "multiplicity"
  | quadrature => "quadrature"

end DimClass

/-- A family of declarations that can be selected. -/
inductive Family where
  | tensors
  | perDim (c : DimClass)
  | dynamicMultiArray
  | cartesianProductArray
  | valueVector
  | valueTable
  | mapping
  | refSpace
  | pushForward
  | physicalSpace
deriving DecidableEq, Hashable, Repr

namespace Family

def all : List Family :=
  [.tensors] ++ DimClass.all.map .perDim ++
    [.dynamicMultiArray, .cartesianProductArray, .valueVector, .valueTable, .mapping,
      .refSpace, .pushForward, .physicalSpace]

theorem mem_all (f : Family) : f ∈ all := by
  cases f with
  | perDim c => cases c <;> decide
  | _ => decide

/-- The spelling of the family on the command line. -/
def name : Family → String
  | tensors => "tensors"
  | perDim c => c.name
  | dynamicMultiArray => "dynamic-multi-array"
  | cartesianProductArray => "cartesian-product-array"
  | valueVector => "value-vector"
  | valueTable => "value-table"
  | mapping => "mapping"
  | refSpace => "ref-space"
  | pushForward => "push-forward"
  | physicalSpace => "physical-space"

def ofName? : String → Option Family := findName? all name

/-- The spelling of a family names it. -/
theorem ofName?_name (f : Family) : ofName? f.name = some f := by
  cases f with
  | perDim c => cases c <;> rfl
  | _ => rfl

def unknownMessage (word : String) : String := unknownName "declaration family" word

def parse : String → Except String Family := parseName "declaration family" all name

@[simp] theorem parse_name (f : Family) : parse f.name = .ok f :=
  parseName_of_find? (ofName?_name f)

theorem parse_eq_error_iff {word message : String} :
    parse word = .error message ↔ (∀ f : Family, f.name ≠ word) ∧ message = unknownMessage word :=
  parseName_eq_error_iff mem_all

end Family

end InstanceTables
