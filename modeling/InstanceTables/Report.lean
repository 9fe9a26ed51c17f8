import InstanceTables.Catalogue

/-!
# The report on a catalogue

The rows of the closure, the highest order, and the length of every table.
-/

namespace InstanceTables.Catalogue

def rowLine (s : Space) : String :=
  " ".intercalate ([s.dim, s.codim, s.range, s.rank, s.spaceDim].map Text.decimal) ++ "\n"

/-- The names of the tables and their lengths. -/
def sizes (c : Catalogue) : List (String × Nat) :=
  [("user", c.spaces.user.length),
    ("face", c.spaces.face.length),
    ("all", c.spaces.all.length),
    ("extended", c.spaces.extended.length),
    ("domain_dims", c.spaces.dims.length),
    ("mapping_dims", c.shapes.mappings.length),
    ("function_dims", c.shapes.functions.length),
    ("derivatives", c.tensors.derivatives.length),
    ("values", c.tensors.values.length),
    ("dynamic_multi_arrays", c.containers.dynamicMultiArrays.length),
    ("cartesian_product_arrays", c.containers.cartesianProductArrays.length),
    ("value_vectors", c.containers.valueVectors.length),
    ("value_tables", c.containers.valueTables.length),
    ("ref_spaces", c.splines.refSpaces.length),
    ("push_forwards", c.splines.pushForwards.length),
    ("physical_spaces", c.splines.physicalSpaces.length)]

def sizeLine (size : String × Nat) : String := size.1 ++ ": " ++ toString size.2 ++ "\n"

def report (c : Catalogue) : String :=
  "dim codim range rank space_dim\n" ++ String.join (c.spaces.all.map rowLine) ++
    "\nmax_der_order: " ++ c.maxOrder.text ++ "\n" ++ String.join (c.sizes.map sizeLine)

end InstanceTables.Catalogue
