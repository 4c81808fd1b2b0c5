/-!
# Arguments of the command

Options and the input file may be mixed; two dashes end the options. A long option takes its value after an equals sign or from the
next argument. Short options can be put together, and one that takes a value takes the rest of the argument or else the next
argument, whatever it looks like.
-/

namespace FlowListing.Command

/-- The options. -/
inductive Switch where
  | output
  | header
  | encoding
  | bigEndian
  | littleEndian
  | verbose
  | version
  | help
  deriving DecidableEq, Repr

/-- The option takes a value. -/
def Switch.takesValue : Switch → Bool
  | .output | .header | .encoding => true
  | _ => false

/-- The long names of the options. -/
def longSwitches : List (String × Switch) :=
  [("--output", .output), ("--header", .header), ("--encoding", .encoding), ("--big-endian", .bigEndian),
    ("--little-endian", .littleEndian), ("--verbose", .verbose), ("--version", .version), ("--help", .help)]

/-- The short names of the options, without the dash. -/
def shortSwitches : List (Char × Switch) :=
  [('o', .output), ('e', .encoding), ('v', .verbose)]

/-- An option as it was given; one that takes no value has the empty one. -/
structure Given where
  switch : Switch
  value : String := ""
  deriving DecidableEq, Repr

/-- Why arguments cannot be taken apart. -/
inductive ArgumentFault where
  | noSuchOption (name : String)
  | missingValue (name : String)
  | unwantedValue (name : String)
  deriving DecidableEq, Repr

/-- What one argument gives: options, and the option, with its name, that takes the next argument as its value. -/
structure Cluster where
  given : List Given
  pending : Option (Switch × String) := none
  deriving DecidableEq, Repr

/-- The options of an argument that starts with one dash; the characters after it are given. -/
def readShort : List Char → Except ArgumentFault Cluster
  | [] => .ok ⟨[], none⟩
  | c :: rest =>
    let name := String.ofList ['-', c]
    match List.lookup c shortSwitches with
    | none => .error (.noSuchOption name)
    | some switch =>
      if switch.takesValue then
        if rest.isEmpty then .ok ⟨[], some (switch, name)⟩ else .ok ⟨[⟨switch, String.ofList rest⟩], none⟩
      else (readShort rest).map fun cluster => { cluster with given := ⟨switch, ""⟩ :: cluster.given }

/-- The option of an argument that starts with two dashes. -/
def readLong (arg : List Char) : Except ArgumentFault Cluster :=
  let name := String.ofList (arg.takeWhile (· ≠ '='))
  let value := arg.dropWhile (· ≠ '=')
  match List.lookup name longSwitches with
  | none => .error (.noSuchOption name)
  | some switch =>
    match switch.takesValue, value with
    | true, [] => .ok ⟨[], some (switch, name)⟩
    | true, _ :: value => .ok ⟨[⟨switch, String.ofList value⟩], none⟩
    | false, [] => .ok ⟨[⟨switch, ""⟩], none⟩
    | false, _ :: _ => .error (.unwantedValue name)

/-- What one argument gives; nothing when it is no option. A lone dash is none. -/
def readArgument (arg : String) : Option (Except ArgumentFault Cluster) :=
  match arg.toList with
  | '-' :: '-' :: rest => some (readLong ('-' :: '-' :: rest))
  | '-' :: c :: rest => some (readShort (c :: rest))
  | _ => none

/-- Arguments taken apart: the options in the order in which they were given, and the other arguments. -/
structure Arguments where
  given : List Given := []
  others : List String := []
  deriving DecidableEq, Repr

namespace Arguments

/-- The arguments taken apart. -/
def read : List String → Except ArgumentFault Arguments
  | [] => .ok {}
  | arg :: rest =>
    if arg = "--" then .ok { others := rest }
    else
      match readArgument arg with
      | none => (read rest).map fun arguments => { arguments with others := arg :: arguments.others }
      | some (.error fault) => .error fault
      | some (.ok cluster) =>
        match cluster.pending, rest with
        | none, rest => (read rest).map fun arguments =>
            { arguments with given := cluster.given ++ arguments.given }
        | some (_, name), [] => .error (.missingValue name)
        | some (switch, _), value :: rest => (read rest).map fun arguments =>
            { arguments with given := cluster.given ++ ⟨switch, value⟩ :: arguments.given }

/-- The option was given. -/
def has (arguments : Arguments) (switch : Switch) : Bool :=
  arguments.given.any (·.switch == switch)

/-- The value of an option: the last one that was given. -/
def value? (arguments : Arguments) (switch : Switch) : Option String :=
  (arguments.given.reverse.find? (·.switch == switch)).map (·.value)

end Arguments

end FlowListing.Command
