import InstanceTables.Family

/-!
# Commands

The two commands, and why a command line may be none of them.
-/

namespace InstanceTables

/-- Writes the declarations for the seeds of a file to another file. -/
structure GenerateCommand where
  configFile : String
  maxOrder : Int
  outFile : String
  /-- The families to declare; all of them if none is given. -/
  families : List Family
  generator : String
deriving DecidableEq, Repr

/-- Reports on the catalogue of the seeds of a file. -/
structure DescribeCommand where
  configFile : String
  maxOrder : Int
deriving DecidableEq, Repr

inductive Command where
  | generate (c : GenerateCommand)
  | describe (c : DescribeCommand)
deriving DecidableEq, Repr

/-- Why a command line leads to no command.  The first two are requests that are answered;
the others are mistakes. -/
inductive Usage where
  | help
  | version
  /-- There is no argument. -/
  | noArguments
  /-- The first argument is no command. -/
  | unknownCommand
  /-- An option that the command does not have, or a stray word. -/
  | unknownArgument
  /-- An option that the command needs is missing. -/
  | missingOption
  /-- An option is given without a value, or with an empty path. -/
  | missingValue
  /-- The value of an option is not of the form it must have. -/
  | badValue
  /-- An option that may be given once is given again. -/
  | repeatedOption
  /-- A flag is given a value. -/
  | unexpectedValue
deriving DecidableEq, Repr

namespace Usage

/-- The exit code: a request succeeds, a mistake does not. -/
def exitCode : Usage → Nat
  | help | version => 0
  | _ => 2

/-- What `--version` prints. -/
def versionText : String := "instgen 0.1.0\n"

end Usage

end InstanceTables
