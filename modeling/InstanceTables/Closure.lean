import InstanceTables.Distinct
import InstanceTables.Log
import InstanceTables.Space

/-!
# The closure of the seed spaces

From the seed rows come the user's spaces (each seed once), the faces of these, all of
both, and the reference rows of all.  The library that the tables are made for needs
every one of them, since work on a space is also done on its faces and on its reference
domain.

| table | rows |
|---|---|
| `user` | the seeds, each once |
| `face` | the faces of `user`; a point has none, which is logged |
| `all` | `user`, then the faces that are no user rows |
| `extended` | the reference rows of `all` |
-/

namespace InstanceTables

/-- The faces of the rows, each once.  Every row without a face is logged. -/
def faceRows (rows : List Space) : Logged (List Space) where
  value := distinct (rows.filterMap Space.face?)
  events := (rows.filter (·.dim = 0)).map fun s => .faceless s.dim s.codim

/-- The rows followed by the other rows, each once. -/
def joinRows (rows other : List Space) : List Space := distinct (rows ++ other)

/-- The reference rows of the rows, each once. -/
def referenceRows (rows : List Space) : List Space := distinct (rows.map Space.reference)

/-- The dimensions of the rows' domains, each once. -/
def dimensions (rows : List Space) : List UInt32 := distinct (rows.map Space.dim)

/-- The tables of spaces that come from a list of seeds. -/
structure Closure where
  user : List Space
  face : List Space
  all : List Space
  extended : List Space
  /-- The dimensions of `all`. -/
  dims : List UInt32
  userDims : List UInt32
  faceDims : List UInt32
deriving DecidableEq, Repr

namespace Closure

def build (seeds : List Space) : Logged Closure := do
  let user := distinct seeds
  let face ← faceRows user
  let all := joinRows user face
  let extended := referenceRows all
  Logged.log (.closureBuilt ⟨user.length, face.length, all.length, extended.length⟩)
  return {
    user, face, all, extended
    dims := dimensions all
    userDims := dimensions user
    faceDims := dimensions face }

variable (t : Closure)

/-- The rows that have push-forwards: all spaces and their reference rows. -/
def pushForwardRows : List Space := joinRows t.all t.extended

/-- There was no seed. -/
def isEmpty : Bool := t.user.isEmpty

end Closure

end InstanceTables
