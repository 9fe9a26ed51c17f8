import InstanceTables.Error
import InstanceTables.Space
import InstanceTables.Text.Decimal
import InstanceTables.Text.Split

/-!
# Seed texts

A seed text lists spaces, one a line, as fields between white space:

```
# dim codim range rank [ignored ...] transformation
2 0 1 1 h_grad
2 1 2 1 extra columns are skipped h_div
```

The first four fields are numbers and the last is a transformation; what stands between
them is ignored.  A line of white space, or one whose first other character is `#`, is no
row.  Lines are numbered from one, and the first bad line decides the error.
-/

namespace InstanceTables.Seed

def number (column : Column) (field : List Char) : Except RowFault UInt32 :=
  match Text.word? field with
  | some n => .ok n
  | none => .error (.notNumber column (.ofList field))

def transformation (line : Nat) (field : List Char) : Except SeedError Transformation :=
  (Transformation.parse (.ofList field)).mapError fun _ =>
    .unknownTransformation line (.ofList field)

/-- Reads the row `row`, which has no white space at its ends.  The number of fields is
checked first, then the numbers from left to right, then the transformation, then the sum
of the dimensions. -/
def parseRow (line : Nat) (row : List Char) : Except SeedError Space :=
  let malformed (fault : RowFault) : SeedError := .malformedRow line (.ofList row) fault
  match Text.words row with
  | dim :: codim :: range :: rank :: field :: fields => do
    let dim ← (number .dim dim).mapError malformed
    let codim ← (number .codim codim).mapError malformed
    let range ← (number .range range).mapError malformed
    let rank ← (number .rank rank).mapError malformed
    let transformation ← transformation line (fields.getLastD field)
    let space : Space := { dim, codim, range, rank, transformation }
    if space.Fits then return space else throw (malformed .dimensionOverflow)
  | fields => throw (malformed (.tooFewFields fields.length))

/-- The line, without white space at its ends, holds no row. -/
def isSkipped (row : List Char) : Bool := row.isEmpty || row.head? = some '#'

/-- Reads a line: nothing if it is blank or a comment. -/
def parseLine (line : Nat) (text : List Char) : Except SeedError (Option Space) :=
  let row := Text.trim text
  if isSkipped row then .ok none else (parseRow line row).map some

/-- Reads the rows of a seed text, in the order of its lines, up to the first bad one. -/
def parseTable (text : String) : Except SeedError (List Space) := do
  let rows ← ((Text.lines text.toList).zipIdx 1).mapM fun (row, line) => parseLine line row
  return rows.filterMap id

end InstanceTables.Seed
