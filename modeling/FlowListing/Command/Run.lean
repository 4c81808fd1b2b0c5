import FlowListing.Command.Request
import FlowListing.Container.Reader
import FlowListing.Listing.Run
import FlowListing.Settings

/-!
# The command

`run` says what the command does on a host with its arguments, its environment and the files it sees: the exit code, the two output
streams and the files afterwards. Log records go to the error stream, all of them when the command is verbose and otherwise those that
warn, in the order in which they arise.
-/

namespace FlowListing.Command

open Container

/-- The name of the command. -/
def commandName : String := "bfdisasm"

/-- The text that `--version` prints. -/
def versionText : String :=
  s!"{commandName}, version 1.0.0\n"

/-- The line that says how the command is used. -/
def usageLine : String :=
  s!"Usage: {commandName} [OPTIONS] INPUT_FILE\n"

/-- The text that `--help` prints. -/
def helpText : String :=
  usageLine ++ "\n".intercalate
    ["",
      "  Disassemble a compiled FlowScript binary.",
      "",
      "  INPUT_FILE is the .bf file to disassemble.",
      "",
      "  Examples:",
      "",
      "      # Print the listing     bfdisasm field.bf",
      "",
      "      # Write the listing to a file     bfdisasm field.bf -o field.flowasm",
      "",
      "Options:",
      "  -o, --output FILE               Output file (default: stdout)",
      "  --header TEXT                   Header comment text (default:",
      "                                  FLOWSCRIPT_HEADER or the AtlusScriptLib",
      "                                  banner)",
      "  -e, --encoding TEXT             Encoding of label names and strings",
      "                                  (default: shift_jis)",
      "  --big-endian / --little-endian  Force byte order (default: detect from",
      "                                  header)",
      "  -v, --verbose                   Verbose output",
      "  --version                       Show the version and exit.",
      "  --help                          Show this message and exit.",
      ""]

/-- What the command did. -/
structure Outcome where
  exitCode : Nat
  stdout : String := ""
  stderr : String := ""
  files : FileTree
  deriving DecidableEq, Repr

/-- A log record on the error stream. -/
def logText (verbose : Bool) (record : Record) : String :=
  if verbose then s!"{record.level.label}: {record.message}\n"
  else if record.level = .debug then ""
  else record.message ++ "\n"

/-- Log records on the error stream. -/
def logsText (verbose : Bool) (records : List Record) : String :=
  String.join (records.map (logText verbose))

/-- A remark of the command, which is only made when it is verbose. -/
def Host.remark (host : Host) (verbose : Bool) (line : String) : String :=
  if verbose then host.sayLine line else ""

/-- What a verbose command says of a script. -/
def Host.scriptRemarks (host : Host) (verbose : Bool) (path : String) (script : Script) : String :=
  host.remark verbose s!"Input file: {path}" ++
    host.remark verbose (s!"Slots: {script.text.length}, procedures: {script.procedures.length}, " ++
      s!"jump labels: {script.jumps.length}, strings: {script.strings.length}, " ++
      s!"message data: {script.message.length} bytes")

/-- What a verbose command says of a result. -/
def Host.resultRemark (host : Host) (verbose : Bool) (result : Result) : String :=
  host.remark verbose s!"Instructions disassembled: {result.instructions} ({result.warnings.length} warnings)"

/-- The failure that a fault in reading is reported as. -/
def Failure.ofRead : ReadFault → Failure
  | .format fault => .tool (.format fault.message)
  | .shortField needed => .internal (ReadFault.shortField needed).message
  | .codec fault => .internal fault.message

/-- The failure that a run without a result is reported as. -/
def Failure.ofRun : RunFault → Failure
  | .payload fault => .internal fault.message
  | .sink (.refused fault) | .sink (.unreleased fault) => .ofStream fault
  | .sink fault => .internal fault.message

/-- The outcome of a failure, after what was already written to the error stream and the files. -/
def Host.failed (host : Host) (failure : Failure) (verbose : Bool) (stderr : String) (files : FileTree) (stdout : String := "") :
    Outcome :=
  let ending := host.ending failure verbose "Disassembly"
  ⟨ending.exitCode, stdout, stderr ++ ending.stderr, files⟩

/-- The outcome of a run, given what comes of printing and what the files are then. `said` is what the error stream holds before the
run, and `remarks` is what is said after it. -/
def Host.finish (host : Host) (verbose : Bool) (run : Run) (said remarks : String) (printed : Except StreamFault String)
    (files : FileTree) : Outcome :=
  let stderr := said ++ logsText verbose run.logs
  match run.outcome, printed with
  | .error fault, _ => host.failed (.ofRun fault) verbose stderr files
  | .ok _, .error fault => host.failed (.ofStream fault) verbose stderr files
  | .ok result, .ok stdout =>
    let stderr := stderr ++ remarks ++ host.resultRemark verbose result
    match result.abort with
    | some abort => host.failed (.tool (.stopped abort)) verbose stderr files stdout
    | none => ⟨0, stdout, stderr, files⟩

/-- Write the listing of a script to the standard output or to a file. `said` is what the error stream holds before. A file gets each
line as it is made, the standard output gets the listing at the end. -/
def writeListing (host : Host) (job : Job) (header : String) (script : Script) (said : String) (files : FileTree) : Outcome :=
  match job.output with
  | none =>
    let run := script.writeTo header { medium := .memory }
    host.finish job.verbose run said "" (host.echo run.sink.text) files
  | some path =>
    let path := normalPath path
    match files.target path with
    | .error fault => host.failed (.access (fault.access path)) job.verbose said files
    | .ok place =>
      let stream := host.stream place
      let run := script.writeTo header { medium := .stream true stream }
      host.finish job.verbose run said (host.remark job.verbose s!"Output written to: {path}") (.ok "")
        (files.write place (stream.stored run.sink.text))

/-- Read the input and write its listing. -/
def Job.run (job : Job) (host : Host) (env : Environment) (files : FileTree) : Outcome :=
  match ReaderSettings.ofEnvironment env with
  | .error fault => host.failed (.internal fault.message) job.verbose "" files
  | .ok settings =>
    let settings := settings.choose job.encoding job.order
    let header := ((ListingSettings.ofEnvironment env).choose job.header).header
    let path := normalPath job.input
    let reading := Script.read job.bytes (host.decoder settings.encoding) settings.order
    let said := logsText job.verbose (⟨.debug, .reading, s!"Reading {path}"⟩ :: reading.logs)
    match reading.outcome with
    | .error fault => host.failed (.ofRead fault) job.verbose said files
    | .ok script => writeListing host job header script (said ++ host.scriptRemarks job.verbose path script) files

/-- What arguments that are not valid lead to. -/
def Host.usageOutcome (host : Host) (fault : UsageFault) (files : FileTree) : Outcome :=
  let usage :=
    if fault.showsUsage then host.sayLine (usageLine ++ s!"Try '{commandName} --help' for help.\n") else ""
  { exitCode := 2, stderr := usage ++ host.sayLine s!"Error: {fault.message}", files := files }

/-- What the command does. -/
def run (host : Host) (files : FileTree) (env : Environment) (args : List String) : Outcome :=
  match Request.ofArguments host files args with
  | .error fault => host.usageOutcome fault files
  | .ok .help => { exitCode := 0, stdout := helpText, files := files }
  | .ok .version => { exitCode := 0, stdout := versionText, files := files }
  | .ok (.job job) => job.run host env files

end FlowListing.Command
