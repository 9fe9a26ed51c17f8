import InstanceTables.Command
import InstanceTables.FileStore
import InstanceTables.Report
import InstanceTables.Writer

/-!
# Running commands

A command reads its seed file and builds the catalogue.  Only then is the output file
created and written, or the report printed: a run that fails earlier leaves every file as
it was.

What a run asks of the system that it runs on is a `Host`, so that the same run can be made
on the files of the system and on a `FileStore`.
-/

namespace InstanceTables

/-- Why a command failed. -/
inductive RunError where
  /-- The catalogue of the seed file could not be built. -/
  | build (configFile : String) (error : BuildError)
  | create (outFile : String) (fault : FileFault)
  /-- A part of the output was refused while the rest was still being written. -/
  | write (fault : FileFault)
  /-- The end of the output was refused. -/
  | finish (outFile : String) (fault : FileFault)
deriving DecidableEq, Repr

namespace RunError

/-- The texts of the error and of its causes, the outermost first. -/
def chain : RunError → List String
  | build configFile error =>
    ("failed to build instantiation tables from " ++ configFile) :: error.message ::
      match error with
      | .unreadable _ fault => [fault.message]
      | _ => []
  | create outFile fault => ["failed to create " ++ outFile, fault.message]
  | write fault => [fault.message]
  | finish outFile fault => ["failed to write " ++ outFile, fault.message]

def message (e : RunError) : String := ": ".intercalate e.chain

end RunError

/-- How many bytes of output are held back before they are written. -/
def outputBuffer : Nat := 8192

/-- The error of an output that is refused. -/
def refusal (outFile : String) (output : ByteArray) (fault : FileFault) : RunError :=
  if outputBuffer < output.size then .write fault else .finish outFile fault

/-! ## Runs on a host -/

/-- What a run asks of the system that it runs on. -/
structure Host (m : Type → Type) (Handle : Type) where
  /-- Reads the text of a file. -/
  read : String → m (Except FileFault String)
  /-- Opens a file for writing, empty, whether it exists or not. -/
  create : String → m (Except FileFault Handle)
  append : ByteArray → Handle → m (Except FileFault Unit)
  print : ByteArray → m Unit
  log : List Event → m Unit
  complete : Completion → m Unit

section

variable {m : Type → Type} {Handle : Type} [Monad m] (host : Host m Handle)

def Host.catalogue (configFile : String) (maxOrder : Int) : m (Except RunError Catalogue) := do
  match Catalogue.ofFile configFile (← host.read configFile) maxOrder with
  | .error e => return .error (.build configFile e)
  | .ok tables =>
    host.log tables.events
    return .ok tables.value

/-- The families of a command: those that were given, or all. -/
def GenerateCommand.selected (c : GenerateCommand) : List Family :=
  if c.families.isEmpty then Family.all else c.families

/-- Writes the declarations and returns how many there are.  What is refused was held back
first, and the families that there was room for have been logged by then. -/
def GenerateCommand.write (c : GenerateCommand) (tables : Catalogue) :
    m (Except RunError Nat) := do
  match ← host.create c.outFile with
  | .error fault => return .error (.create c.outFile fault)
  | .ok handle =>
    let writer := Writer.generate c.generator tables c.selected
    match ← host.append writer.sink.bytes handle with
    | .error fault =>
      let held := Writer.generateTo { capacity := some outputBuffer } c.generator tables c.selected
      host.log held.log.toList
      return .error (refusal c.outFile writer.sink.bytes fault)
    | .ok () =>
      host.log writer.log.toList
      host.complete ⟨c.outFile, writer.declared⟩
      return .ok writer.declared

def GenerateCommand.perform (c : GenerateCommand) : m (Except RunError Nat) := do
  match ← host.catalogue c.configFile c.maxOrder with
  | .error e => return .error e
  | .ok tables => c.write host tables

def DescribeCommand.perform (c : DescribeCommand) : m (Except RunError Unit) := do
  match ← host.catalogue c.configFile c.maxOrder with
  | .error e => return .error e
  | .ok tables =>
    host.print tables.report.toUTF8
    return .ok ()

def Command.perform : Command → m (Except RunError Unit)
  | .generate c => do return (← c.perform host).map fun _ => ()
  | .describe c => c.perform host

end

/-! ## Runs on a store of files -/

/-- The files in the course of a run, and what has been logged so far. -/
structure RunState where
  files : FileStore
  log : List Event := []
  completed : Option Completion := none

/-- What a run leaves behind. -/
structure RunOf (α : Type) extends RunState where
  outcome : Except RunError α

abbrev Run := RunOf Unit

namespace FileStore

/-- The store as a host. -/
def host : Host (StateM RunState) Handle where
  read path := return (← get).files.read path
  create path := fun s =>
    match s.files.create path with
    | .error fault => (.error fault, s)
    | .ok (handle, files) => (.ok handle, { s with files })
  append bytes handle := fun s =>
    match s.files.append bytes handle with
    | .error fault => (.error fault, s)
    | .ok files => (.ok (), { s with files })
  print bytes := modify fun s => { s with files := s.files.print bytes }
  log events := modify fun s => { s with log := s.log ++ events }
  complete c := modify fun s => { s with completed := some c }

/-- A run that begins with the files. -/
def run {α : Type} (files : FileStore) (x : StateM RunState (Except RunError α)) : RunOf α :=
  let (outcome, s) := StateT.run x { files }
  { s with outcome }

end FileStore

namespace Command

def runGenerate (files : FileStore) (c : GenerateCommand) : RunOf Nat :=
  files.run (c.perform FileStore.host)

/-- Runs the command on the files. -/
def run (files : FileStore) (c : Command) : Run := files.run (c.perform FileStore.host)

end Command

end InstanceTables
