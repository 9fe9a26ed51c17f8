import InstanceTables.Command
import InstanceTables.Text.Decimal

/-!
# Reading command lines

A command line names a command and then its options, each as `--name=value` or as
`--name value`.  Arguments are taken from left to right.  An option that was given as a
word of its own stays pending: it waits for its value, and once it has it, the value is
checked only when the next option or the end of the line is reached.  So an argument that
is unknown is reported even if the value before it is bad.
-/

namespace InstanceTables

/-- The options of the commands. -/
inductive CommandOption where
  | configFile
  | maxOrder
  | outFile
  | family
  | generator
deriving DecidableEq, Repr

namespace CommandOption

def name : CommandOption → String
  | configFile => "config-file"
  | maxOrder => "max-der-order"
  | outFile => "out-file"
  | family => "family"
  | generator => "generator"

def ofGenerate : List CommandOption := [.configFile, .maxOrder, .outFile, .family, .generator]

def ofDescribe : List CommandOption := [.configFile, .maxOrder]

end CommandOption

namespace Command

/-- The forms of an argument. -/
inductive Token where
  /-- Two dashes, after which there are no options. -/
  | escape
  /-- Two dashes and a name, perhaps with `=` and a value. -/
  | long (name : List Char) (value : Option (List Char))
  /-- One dash and one or more letters. -/
  | short (letters : List Char)
  /-- Anything else, a lone dash among it. -/
  | word
deriving DecidableEq, Repr

def Token.ofArgument : List Char → Token
  | ['-', '-'] => .escape
  | '-' :: '-' :: rest =>
    .long (rest.takeWhile (· ≠ '=')) (rest.dropWhile (· ≠ '=')).tail?
  | '-' :: c :: rest => .short (c :: rest)
  | _ => .word

/-- The letters after a dash make a negative number: digits, among them at most one point,
not in front, and after it at most one `e` that is neither in front nor last. -/
def isNumber (letters : List Char) : Bool :=
  let mantissa := letters.takeWhile fun c => c ≠ 'e' && c ≠ 'E'
  let exponent := letters.dropWhile fun c => c ≠ 'e' && c ≠ 'E'
  mantissa.all (fun c => c.isDigit || c = '.') && mantissa.count '.' ≤ 1 &&
    letters.head? ≠ some '.' &&
    (exponent.isEmpty ||
      !mantissa.isEmpty && !exponent.tail.isEmpty && exponent.tail.all Char.isDigit)

/-- The values of the options that have been read so far. -/
structure Draft where
  configFile : Option String := none
  maxOrder : Option Int := none
  outFile : Option String := none
  families : Array Family := #[]
  generator : Option String := none
deriving DecidableEq, Repr

namespace Draft

variable (d : Draft)

/-- The option has a value, and may not have another. -/
def isTaken : CommandOption → Bool
  | .configFile => d.configFile.isSome
  | .maxOrder => d.maxOrder.isSome
  | .outFile => d.outFile.isSome
  | .family => false
  | .generator => d.generator.isSome

/-- A path is any text but the empty one. -/
def path (value : List Char) : Except Usage String :=
  if value.isEmpty then .error .missingValue else .ok (.ofList value)

/-- Checks the value of an option and takes it over. -/
def store (o : CommandOption) (value : List Char) : Except Usage Draft := do
  if d.isTaken o then throw .repeatedOption
  match o with
  | .configFile => return { d with configFile := some (← path value) }
  | .maxOrder =>
    match Text.integer64? value with
    | some n => return { d with maxOrder := some n }
    | none => throw .badValue
  | .outFile => return { d with outFile := some (← path value) }
  | .family =>
    let f ← (Family.parse (.ofList value)).mapError fun _ => .badValue
    return { d with families := d.families.push f }
  | .generator => return { d with generator := some (.ofList value) }

end Draft

/-- The option that was given last as a word of its own. -/
inductive Pending where
  | nothing
  /-- The next argument is to be its value. -/
  | awaiting (o : CommandOption)
  /-- Its value has not been checked yet. -/
  | holding (o : CommandOption) (value : List Char)
deriving DecidableEq, Repr

/-- The options read so far, and the one that is pending. -/
structure ScanState where
  draft : Draft := {}
  pending : Pending := .nothing
deriving DecidableEq, Repr

namespace ScanState

variable (st : ScanState)

/-- Takes over the value of the pending option. -/
def settle : Except Usage Draft :=
  match st.pending with
  | .nothing => .ok st.draft
  | .awaiting _ => .error .missingValue
  | .holding o value => st.draft.store o value

/-- Reads an option or a flag.  The pending option is settled before it takes effect, but
not if the argument is a mistake in itself. -/
def readOption (options : List CommandOption) : Token → Except Usage ScanState
  | .long name value =>
    if name = "help".toList then
      match value with
      | none => do
        let _ ← st.settle
        throw .help
      | some _ => throw .unexpectedValue
    else
      match options.find? (·.name.toList = name), value with
      | none, _ => throw .unknownArgument
      | some o, none => return { draft := ← st.settle, pending := .awaiting o }
      | some o, some value => return { draft := ← (← st.settle).store o value }
  | .short letters =>
    if letters.head? = some 'h' then do
      let _ ← st.settle
      throw .help
    else throw .unknownArgument
  | .escape | .word => throw .unknownArgument

/-- The argument is taken as the value of the pending option: any word, and for the order
also a negative number. -/
def expects (token : Token) : Option CommandOption :=
  match st.pending, token with
  | .awaiting o, .word => some o
  | .awaiting .maxOrder, .short letters => if isNumber letters then some .maxOrder else none
  | _, _ => none

def read (options : List CommandOption) (argument : List Char) : Except Usage ScanState :=
  let token := Token.ofArgument argument
  match st.expects token with
  | some o => .ok { st with pending := .holding o argument }
  | none => st.readOption options token

/-- Reads the arguments of a command that has the given options.  Nothing may follow two
dashes, because no command takes words. -/
def scan (options : List CommandOption) (st : ScanState) :
    List (List Char) → Except Usage Draft
  | [] => st.settle
  | a :: rest =>
    if Token.ofArgument a = .escape then
      if rest.isEmpty then st.settle else throw .unknownArgument
    else do
      scan options (← st.read options a) rest

end ScanState

/-- The value of an option that must be given. -/
def required {α : Type} : Option α → Except Usage α
  | some a => .ok a
  | none => .error .missingOption

/-- The name that the header states if no other is given. -/
def defaultGenerator : String := "instgen"

def generateOf (d : Draft) : Except Usage Command := do
  return .generate {
    configFile := ← required d.configFile
    maxOrder := ← required d.maxOrder
    outFile := ← required d.outFile
    families := d.families.toList
    generator := d.generator.getD defaultGenerator }

def describeOf (d : Draft) : Except Usage Command := do
  return .describe {
    configFile := ← required d.configFile
    maxOrder := ← required d.maxOrder }

/-- The names of the commands, and of the request for help on them. -/
def names : List String := ["generate", "describe", "help"]

/-- What is answered if the first argument is no command. -/
def rejectFirst (rest : List (List Char)) : Token → Usage
  | .escape =>
    match rest with
    | [] => .noArguments
    | word :: _ => if String.ofList word ∈ names then .unknownArgument else .unknownCommand
  | .long name value =>
    if name = "help".toList then if value.isNone then .help else .unexpectedValue
    else if name = "version".toList then if value.isNone then .version else .unexpectedValue
    else .unknownArgument
  | .short letters =>
    if letters.head? = some 'h' then .help
    else if letters.head? = some 'V' then .version
    else .unknownArgument
  | .word => .unknownCommand

/-- Help is asked for on one command at most. -/
def answerHelp : List (List Char) → Usage
  | [] => .help
  | [word] => if String.ofList word ∈ names then .help else .unknownCommand
  | _ => .unknownCommand

/-- Reads a command line, without the name of the program. -/
def parseArguments : List (List Char) → Except Usage Command
  | [] => throw .noArguments
  | first :: rest =>
    if first = "generate".toList then do
      generateOf (← ScanState.scan CommandOption.ofGenerate {} rest)
    else if first = "describe".toList then do
      describeOf (← ScanState.scan CommandOption.ofDescribe {} rest)
    else if first = "help".toList then throw (answerHelp rest)
    else throw (rejectFirst rest (Token.ofArgument first))

/-- Reads a command line, without the name of the program. -/
def parse (arguments : List String) : Except Usage Command :=
  parseArguments (arguments.map String.toList)

end Command

end InstanceTables
