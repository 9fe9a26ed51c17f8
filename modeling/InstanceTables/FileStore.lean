import InstanceTables.Error

/-!
# Files

The files that a run reads and writes, by path, and what it prints.  A path is followed name
by name from the working directory, or from the root if it begins with a slash.  Besides
files and directories there are the devices that a text may be sent to.

A path that ends in a slash leads to a directory or nowhere: to read from it, its last name
has to be one, and no file is ever created at it.
-/

namespace InstanceTables

/-- What a text can be sent to that is no file. -/
inductive Device where
  /-- Takes every text and holds none. -/
  | null
  /-- Takes every text and never ends when read. -/
  | zero
  /-- Has no room for any text, and never ends when read. -/
  | full
  | standardOutput
  | standardError
deriving DecidableEq, Repr

/-- Files and their contents, by location, and what has been printed.  A location lists the
names on the way from the root. -/
structure FileStore where
  files : List (List String × ByteArray) := []
  /-- What has been sent to the standard output. -/
  printed : ByteArray := .empty

namespace FileStore

/-- The directory that a path starts from if it does not begin with a slash.  It is two
levels below the root, and its own name is spelled by no path. -/
def workingDirectory : List String := ["tmp", "."]

/-- The directories in the root that every system has. -/
def systemDirectories : List (List String) :=
  ["bin", "boot", "dev", "etc", "home", "lib", "media", "mnt", "opt", "proc", "root", "run",
    "sbin", "srv", "sys", "tmp", "usr", "var"].map ([·])

/-- The locations of the devices. -/
def devices : List (List String × Device) :=
  [(["dev", "null"], .null), (["dev", "zero"], .zero), (["dev", "full"], .full),
    (["dev", "stdout"], .standardOutput), (["dev", "fd", "1"], .standardOutput),
    (["proc", "self", "fd", "1"], .standardOutput),
    (["dev", "stderr"], .standardError), (["dev", "fd", "2"], .standardError),
    (["proc", "self", "fd", "2"], .standardError)]

/-- The most bytes of a name. -/
def maxName : Nat := 255

/-- The most bytes of a path. -/
def maxPath : Nat := 4095

/-- Where a path starts from. -/
def start (path : String) : List String := if path.startsWith "/" then [] else workingDirectory

/-- The names in a path, between its slashes. -/
def names (path : String) : List String :=
  ((path.toList.splitOn '/').filter fun name => !name.isEmpty).map .ofList

/-- The location that a name leads to from a directory.  Above the root is the root. -/
def enter (directory : List String) (name : String) : List String :=
  if name = "." then directory
  else if name = ".." then directory.dropLast
  else directory ++ [name]

/-- The location that a path spells. -/
def location (path : String) : List String := (names path).foldl enter (start path)

/-! ## What stands where -/

/-- What a location holds. -/
inductive Place where
  | directory
  | file (location : List String) (contents : ByteArray)
  | device (d : Device)
  /-- Nothing. -/
  | vacant (location : List String)

/-- The fault of a path that goes on behind what is no directory. -/
def Place.obstacle : Place → FileFault
  | vacant _ => .notFound
  | _ => .notDirectory

/-- A file or device that has been opened for writing. -/
inductive Handle where
  | file (location : List String)
  | device (d : Device)
deriving DecidableEq, Repr

variable (s : FileStore)

def contents? (location : List String) : Option ByteArray := s.files.lookup location

/-- The location is a directory: the working directory or one above it, one that every
system has, or one that a file or device lies in. -/
def isDirectory (location : List String) : Bool :=
  location.isPrefixOf workingDirectory || location ∈ systemDirectories ||
    (s.files.map Prod.fst ++ devices.map Prod.fst).any fun l =>
      location.isPrefixOf l && location ≠ l

def placeAt (location : List String) : Place :=
  match s.contents? location, devices.lookup location with
  | some contents, _ => .file location contents
  | none, some d => .device d
  | none, none => if s.isDirectory location then .directory else .vacant location

/-- Follows the names from a directory.  All but the last have to lead to directories. -/
def follow (directory : List String) : List String → Except FileFault Place
  | [] => .ok .directory
  | name :: rest =>
    if maxName < name.utf8ByteSize then .error .nameTooLong
    else
      match s.placeAt (enter directory name) with
      | .directory => follow (enter directory name) rest
      | place => if rest.isEmpty then .ok place else .error place.obstacle

/-- A path must be spelled without NUL, not be empty, and not be too long. -/
def checkPath (path : String) : Except FileFault Unit := do
  if '\x00' ∈ path.toList then throw .nulInName
  if path.isEmpty then throw .notFound
  if maxPath < path.utf8ByteSize then throw .nameTooLong

/-! ## Reading and writing -/

/-- What the path leads to.  A slash at its end asks for a directory, as the name `.` behind
it does. -/
def place (path : String) : Except FileFault Place := do
  checkPath path
  s.follow (start path) (names path ++ if path.endsWith "/" then ["."] else [])

/-- What a file created at the path would replace.  At a path that ends in a slash none is
created, whatever its last name leads to. -/
def placeToCreate (path : String) : Except FileFault Place := do
  checkPath path
  if path.endsWith "/" then s.follow (start path) ((names path).dropLast ++ ["."])
  else s.follow (start path) (names path)

/-- The text of the file at the path. -/
def read (path : String) : Except FileFault String := do
  match ← s.place path with
  | .directory => throw .isDirectory
  | .vacant _ => throw .notFound
  | .device .zero | .device .full => throw (.other "out of memory")
  | .device _ => return ""
  | .file _ contents =>
    match String.fromUTF8? contents with
    | some text => return text
    | none => throw .notUtf8

/-- The store with the given contents at the location. -/
def put (location : List String) (contents : ByteArray) : FileStore :=
  { s with files := (location, contents) :: s.files.filter (·.1 ≠ location) }

/-- The store of the files, given by path.  Of two at one location the later counts. -/
def ofFiles (files : List (String × ByteArray)) : FileStore :=
  files.foldl (fun s f => s.put (location f.1) f.2) {}

/-- Opens the file at the path for writing, empty, whether it exists or not. -/
def create (path : String) : Except FileFault (Handle × FileStore) := do
  match ← s.placeToCreate path with
  | .directory => throw .isDirectory
  | .vacant location | .file location _ => return (.file location, s.put location .empty)
  | .device d => return (.device d, s)

def print (bytes : ByteArray) : FileStore := { s with printed := s.printed ++ bytes }

/-- Appends the bytes to what has been opened. -/
def append (bytes : ByteArray) : Handle → Except FileFault FileStore
  | .file location => .ok (s.put location ((s.contents? location).getD .empty ++ bytes))
  | .device .full => if bytes.isEmpty then .ok s else .error .noSpace
  | .device .standardOutput => .ok (s.print bytes)
  | .device _ => .ok s

end FileStore

end InstanceTables
