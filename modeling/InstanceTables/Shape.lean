/-!
# Shapes of functions and mappings

All dimensions, ranges and ranks are 32-bit words.  A `Shape` is what has to be known
of a function on a domain, or of the reference space it lives in; a `Mapping` sends a
domain into a space of `codim` more dimensions and has a shape in each direction.
-/

namespace InstanceTables

/-- The domain dimension of a function and the range and rank of its values. -/
structure Shape where
  dim : UInt32
  range : UInt32
  rank : UInt32
deriving DecidableEq, Hashable, Ord, Repr

/-- A map from a `dim`-dimensional domain into `dim + codim` dimensions. -/
structure Mapping where
  dim : UInt32
  codim : UInt32
deriving DecidableEq, Hashable, Ord, Repr

namespace Mapping

variable (m : Mapping)

def spaceDim : UInt32 := m.dim + m.codim

/-- The mapping itself takes points of the domain to points of the space. -/
def forward : Shape := ⟨m.dim, m.spaceDim, 1⟩

/-- Its inverse takes points of the space to points of the domain. -/
def inverse : Shape := ⟨m.spaceDim, m.dim, 1⟩

end Mapping

end InstanceTables
