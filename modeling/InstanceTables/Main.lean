import InstanceTables.Command.Run
import InstanceTables.Command.Scan

/-!
# The program

Reads the command line and the seed file, and does what the command asks for.  Warnings
and errors go to the standard error.
-/

namespace InstanceTables

/-- What the program prints when it is asked for help, or is used wrongly. -/
def usageText : String :=
  "Explicit instantiation table generator\n\n" ++
  "Usage: instgen generate --config-file <FILE> --max-der-order <N> --out-file <FILE>\n" ++
  "                        [--family <FAMILY>]... [--generator <NAME>]\n" ++
  "       instgen describe --config-file <FILE> --max-der-order <N>\n"

/-- The number by which the system says that a path leads to a directory. -/
def directoryCode : UInt32 := 21

def FileFault.ofSystem : IO.Error → FileFault
  | .noFileOrDirectory .. => .notFound
  | .inappropriateType _ code _ =>
    if code = directoryCode then .isDirectory else .notDirectory
  | .resourceExhausted .. => .noSpace
  | e => .other (toString e)

def readText (path : String) : IO (Except FileFault String) := do
  try
    match String.fromUTF8? (← IO.FS.readBinFile path) with
    | some text => return .ok text
    | none => return .error .notUtf8
  catch e => return .error (.ofSystem e)

def createFile (path : String) : IO (Except FileFault IO.FS.Handle) := do
  try return .ok (← IO.FS.Handle.mk path .write)
  catch e => return .error (.ofSystem e)

/-- Writes the bytes at once. -/
def writeBytes (bytes : ByteArray) (handle : IO.FS.Handle) : IO (Except FileFault Unit) := do
  try
    handle.write bytes
    handle.flush
    return .ok ()
  catch e => return .error (.ofSystem e)

/-- The system that the program runs on.  Of what is logged, only the warnings are shown. -/
def systemHost : Host IO IO.FS.Handle where
  read := readText
  create := createFile
  append := writeBytes
  print bytes := do (← IO.getStdout).write bytes
  log events := (events.filter Event.isWarning).forM fun e => IO.eprintln e.message
  complete _ := pure ()

end InstanceTables

open InstanceTables in
/-- The exit code is 0 if the command succeeds, 1 if it fails, and 2 if the command line is
a mistake. -/
def main (arguments : List String) : IO UInt32 := do
  match Command.parse arguments with
  | .error usage =>
    match usage with
    | .version => IO.print Usage.versionText
    | .help => IO.print usageText
    | _ => IO.eprint usageText
    return .ofNat usage.exitCode
  | .ok command =>
    match ← command.perform systemHost with
    | .ok () => return 0
    | .error e =>
      IO.eprintln ("Error: " ++ e.message)
      return 1
