
/-!
# What can go wrong

Each error says what is wrong and where; `message` is its wording.  A fault of the file
system is kept apart from the error that it leads to, because it is reported on its own
as well.
-/

namespace InstanceTables

/-- What is reported for a word that should name something of a kind, but does not. -/
def unknownName (kind word : String) : String := "unknown " ++ kind ++ " '" ++ word ++ "'"

section

variable {α : Type} {all : List α} {name : α → String} {word message : String} {a : α}

def findName? (all : List α) (name : α → String) (word : String) : Option α :=
  all.find? (name · = word)

/-- Reads a word as the name of something of a kind. -/
def parseName (kind : String) (all : List α) (name : α → String) (word : String) :
    Except String α :=
  (findName? all name word).elim (.error (unknownName kind word)) .ok

theorem parseName_of_find? {kind : String} (h : findName? all name word = some a) :
    parseName kind all name word = .ok a := by
  rw [parseName, h, Option.elim_some]

/-- A word is refused if it names nothing. -/
theorem parseName_eq_error_iff {kind : String} (hall : ∀ a, a ∈ all) :
    parseName kind all name word = .error message ↔
      (∀ a, name a ≠ word) ∧ message = unknownName kind word := by
  cases h : findName? all name word with
  | none =>
    have hnone : ∀ a, name a ≠ word := by simpa [findName?, hall] using h
    rw [parseName, h, Option.elim_none, Except.error.injEq, and_iff_right hnone, eq_comm]
  | some a =>
    have hname : name a = word := by simpa using List.find?_some h
    rw [parseName_of_find? h]
    exact iff_of_false nofun fun hnone => hnone.1 a hname

end

/-- Why a file could not be read, created or written. -/
inductive FileFault where
  | notFound
  | notDirectory
  | isDirectory
  | noSpace
  | nameTooLong
  | nulInName
  | notUtf8
  | other (text : String)
deriving DecidableEq, Repr

namespace FileFault

/-- The text of the fault; one that the operating system reports carries its number. -/
def message : FileFault → String
  | notFound => "No such file or directory (os error 2)"
  | notDirectory => "Not a directory (os error 20)"
  | isDirectory => "Is a directory (os error 21)"
  | noSpace => "No space left on device (os error 28)"
  | nameTooLong => "File name too long (os error 36)"
  | nulInName => "file name contained an unexpected NUL byte"
  | notUtf8 => "stream did not contain valid UTF-8"
  | other text => text

end FileFault

/-- The columns of a seed row that hold numbers. -/
inductive Column where
  | dim
  | codim
  | range
  | rank
deriving DecidableEq, Repr

def Column.name : Column → String
  | dim => "dim"
  | codim => "codim"
  | range => "range"
  | rank => "rank"

inductive RowFault where
  /-- There are only so many fields. -/
  | tooFewFields (found : Nat)
  /-- The field of a numeric column is no word. -/
  | notNumber (column : Column) (field : String)
  /-- The sum of the dimensions is no word. -/
  | dimensionOverflow
deriving DecidableEq, Repr

def RowFault.message : RowFault → String
  | tooFewFields found => "expected at least 5 fields, found " ++ toString found
  | notNumber column field =>
    column.name ++ " '" ++ field ++ "' is not a non-negative integer"
  | dimensionOverflow => "dim + codim overflows"

/-- An error in a seed text, with the number of the line that it is in. -/
inductive SeedError where
  /-- The row `row`, without white space at its ends, is malformed. -/
  | malformedRow (line : Nat) (row : String) (fault : RowFault)
  /-- The last field `kind` of the row is no transformation. -/
  | unknownTransformation (line : Nat) (kind : String)
deriving DecidableEq, Repr

def SeedError.message : SeedError → String
  | malformedRow line row fault =>
    "malformed seed row at line " ++ toString line ++ ": " ++ fault.message ++ ": '" ++
      row ++ "'"
  | unknownTransformation line kind =>
    unknownName "transformation kind" kind ++ " at line " ++ toString line

/-- Why the tables could not be built. -/
inductive BuildError where
  /-- The seed file could not be read. -/
  | unreadable (path : String) (fault : FileFault)
  | seed (error : SeedError)
  /-- The number is no derivative order. -/
  | invalidOrder (value : Int)
deriving DecidableEq, Repr

def BuildError.message : BuildError → String
  | unreadable path fault => "cannot read seed file " ++ path ++ ": " ++ fault.message
  | seed error => error.message
  | invalidOrder value =>
    "invalid maximum derivative order " ++ toString value ++
      ": must be a non-negative integer"

end InstanceTables
