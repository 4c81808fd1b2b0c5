import FlowListing.Command.FileTree
import FlowListing.Encoding.Name
import FlowListing.Sink

/-!
# The host of the command, and failures

The command relies on a host for what it does not do itself: it looks encodings up, decodes text, prints, and opens files to be
written. `Host` says what each of these comes to, and nothing else about them: printing may leave something out of a text or fail, and
a file may refuse a text or fail when it is closed. `Host.standard` is a host with the codecs of this library, whose standard streams
are no terminals.

A failure ends the command with an exit code and a line on the error stream: 1 when the input is at fault, 2 when an argument or
the access to a file is, 3 for all else. What is said about all else is followed, when the command is verbose, by the head of a
trace.
-/

namespace FlowListing.Command

open Encoding

/-! ## Hosts -/

/-- What the command relies on. -/
structure Host where
  /-- An encoding with this name exists. -/
  knows : String → Bool
  /-- The decoder of the encoding with a name. -/
  decoder : String → Decoder
  /-- What the standard output gets of a text that is printed, or why it cannot be printed; then it gets nothing. -/
  echo : String → Except StreamFault String
  /-- What the error stream gets of a text. -/
  say : String → String
  /-- The stream of the file at a place, opened to be written. -/
  stream : Place → Stream

/-- The fault of a device that takes no bytes. -/
def noSpace : StreamFault :=
  .access ⟨28, "No space left on device", none⟩

/-- A device that takes no bytes: text is held back, and is lost when the stream is let go. -/
def fullDevice : Stream where
  releaseFault? writes := if writes = 0 then none else some noSpace
  stored _ := []

/-- The place is that of the full device, seen from a working directory anywhere below the root. -/
def Place.isFullDevice (place : Place) : Bool :=
  !place.isInside && place.dropWhile (fun name => name == ".." || name == "/") == ["dev", "full"]

/-- A host whose standard streams are no terminals: control sequences are left out of what is printed. All files are UTF-8 files on
which nothing fails, but for the full device. -/
def Host.standard : Host where
  knows name := (named? name).isSome
  decoder := Decoder.named
  echo text := .ok (Text.stripControls text)
  say := Text.stripControls
  stream place := if place.isFullDevice then fullDevice else {}

/-- A line as the error stream gets it. -/
def Host.sayLine (host : Host) (line : String) : String :=
  host.say (line ++ "\n")

/-! ## Failures -/

/-- A failure of the command. -/
inductive Failure where
  | tool (error : ToolError)
  | parameter (message : String)
  | access (fault : AccessFault)
  | internal (message : String)
  deriving DecidableEq, Repr

/-- The failure that a stream fault is reported as. -/
def Failure.ofStream : StreamFault → Failure
  | .unencodable message => .internal message
  | .access fault => .access fault

/-- How the command ends. -/
structure Ending where
  exitCode : Nat
  stderr : String
  deriving DecidableEq, Repr

/-- The head of a trace. -/
def traceHead : String :=
  "Traceback (most recent call last):\n"

/-- The ending of a failure of no foreseen kind. -/
def Host.internalEnding (host : Host) (message : String) (verbose : Bool) : Ending :=
  ⟨3, host.sayLine s!"Internal error: {message}" ++ if verbose then traceHead else ""⟩

/-- How the command ends after a failure; `activity` names what failed when the input is at fault. -/
def Host.ending (host : Host) (failure : Failure) (verbose : Bool) (activity : String) : Ending :=
  match failure with
  | .tool error =>
    let lead := if activity = "" then "Error: " else s!"{activity} error: "
    ⟨1, host.sayLine s!"{lead}{error.message}"⟩
  | .parameter message => ⟨2, host.sayLine s!"Error: {message}"⟩
  | .access fault =>
    if fault.isDenied then ⟨2, host.sayLine s!"Error: {fault.message}"⟩ else host.internalEnding fault.message verbose
  | .internal message => host.internalEnding message verbose

end FlowListing.Command
