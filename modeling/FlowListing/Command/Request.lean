import FlowListing.Command.Arguments
import FlowListing.Command.Host
import FlowListing.Container.Word

/-!
# Requests

A request is what valid arguments ask for. Asking for help or for the version comes before all checks; then the options are checked
in the order in which they were first given, then the input file, then whether there are arguments left over.
-/

namespace FlowListing.Command

open Container

/-- Why arguments are not valid. -/
inductive UsageFault where
  | argument (fault : ArgumentFault)
  | outputIsDirectory (path : String)
  | unknownEncoding (name : String)
  | missingInput
  | inputNotFound (path : String)
  | inputIsDirectory (path : String)
  | extraArguments (extras : List String)
  deriving DecidableEq, Repr

/-- The text of a fault in the arguments. -/
def UsageFault.message : UsageFault → String
  | .argument (.noSuchOption name) => s!"No such option: {name}"
  | .argument (.missingValue name) => s!"Option {Text.quote name} requires an argument."
  | .argument (.unwantedValue name) => s!"Option {Text.quote name} does not take a value."
  | .outputIsDirectory path => s!"Invalid value for '-o' / '--output': File {Text.quote path} is a directory."
  | .unknownEncoding name => s!"Invalid value for '-e' / '--encoding': unknown encoding '{name}'"
  | .missingInput => "Missing argument 'INPUT_FILE'."
  | .inputNotFound path => s!"Invalid value for 'INPUT_FILE': File {Text.quote path} does not exist."
  | .inputIsDirectory path => s!"Invalid value for 'INPUT_FILE': File {Text.quote path} is a directory."
  | .extraArguments [extra] => s!"Got unexpected extra argument ({extra})"
  | .extraArguments extras =>
    let joined := " ".intercalate extras
    s!"Got unexpected extra arguments ({joined})"

/-- The fault is shown with a reminder of how the command is used. -/
def UsageFault.showsUsage : UsageFault → Bool
  | .argument (.missingValue _) | .argument (.unwantedValue _) => false
  | _ => true

/-- A listing that is asked for: of which file, with its contents, into which file if any, and with which choices. -/
structure Job where
  input : String
  bytes : List UInt8
  output : Option String
  header : Option String
  encoding : Option String
  order : Option ByteOrder
  verbose : Bool
  deriving DecidableEq, Repr

/-- What the command is asked for. -/
inductive Request where
  | help
  | version
  | job (job : Job)
  deriving DecidableEq, Repr

/-- The request for help or the version that was given first. -/
def Arguments.eager? (arguments : Arguments) : Option Request :=
  arguments.given.findSome? fun given =>
    match given.switch with
    | .help => some .help
    | .version => some .version
    | _ => none

/-- The byte order that was chosen last. -/
def Arguments.order? (arguments : Arguments) : Option ByteOrder :=
  arguments.given.reverse.findSome? fun given =>
    match given.switch with
    | .bigEndian => some .big
    | .littleEndian => some .little
    | _ => none

/-- What is wrong with the value of an option. -/
def checkSwitch (host : Host) (tree : FileTree) (arguments : Arguments) (switch : Switch) : Option UsageFault :=
  match switch, arguments.value? switch with
  | .output, some path =>
    match tree.find path with
    | .ok .directory => some (.outputIsDirectory path)
    | _ => none
  | .encoding, some name => if host.knows name then none else some (.unknownEncoding name)
  | _, _ => none

/-- The contents of the input file. -/
def readInput (tree : FileTree) (path : String) : Except UsageFault (List UInt8) :=
  match tree.find path with
  | .ok (.file bytes) => .ok bytes
  | .ok .directory => .error (.inputIsDirectory path)
  | .error _ => .error (.inputNotFound path)

/-- The listing that arguments ask for. -/
def Arguments.job (arguments : Arguments) (host : Host) (tree : FileTree) : Except UsageFault Job :=
  match arguments.given.findSome? fun given => checkSwitch host tree arguments given.switch with
  | some fault => .error fault
  | none =>
    match arguments.others with
    | [] => .error .missingInput
    | path :: extra =>
      match readInput tree path with
      | .error fault => .error fault
      | .ok bytes =>
        if extra ≠ [] then .error (.extraArguments extra)
        else .ok {
          input := path
          bytes := bytes
          output := arguments.value? .output
          header := arguments.value? .header
          encoding := arguments.value? .encoding
          order := arguments.order?
          verbose := arguments.has .verbose }

/-- The request that arguments make. -/
def Request.ofArguments (host : Host) (tree : FileTree) (args : List String) : Except UsageFault Request :=
  match Arguments.read args with
  | .error fault => .error (.argument fault)
  | .ok arguments =>
    match arguments.eager? with
    | some request => .ok request
    | none => (arguments.job host tree).map .job

end FlowListing.Command
