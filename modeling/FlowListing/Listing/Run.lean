import FlowListing.Sink

/-!
# Writing a listing

A walk visits the instructions of a script in order. Each visit moves past the slots of its instruction, so the payload of an
instruction is never visited. The walk ends behind the last slot or at the first instruction that cannot be listed.

A listing is a list of actions: lines to write, and warnings, each just before the line that it is about. The actions are carried
out on a sink, which is closed at the end whatever happens. A walk that was stopped by a fault leaves the lines that come before
it; the fault is part of the result. A refused write, a payload that is no word or a sink that cannot let go ends the run without a
result.
-/

namespace FlowListing

/-! ## Walks -/

/-- An instruction that was visited: where it stands, what it is, and whether a blank line follows it. -/
structure Visit where
  index : Nat
  opcode : Opcode
  operand : Operand
  separated : Bool
  deriving DecidableEq, Repr

/-- A walk: the visits in order, the slot where it ended, and what stopped it there. -/
structure Walk where
  visits : List Visit
  reached : Nat
  fault : Option StepFault
  deriving DecidableEq, Repr

/-- The walk with one more visit before it. -/
def Walk.after (visit : Visit) (walk : Walk) : Walk :=
  { walk with visits := visit :: walk.visits }

/-- A blank line follows the end of a procedure, unless nothing follows or the next instruction ends a procedure too. -/
def separates (op : Opcode) (next : Option Slot) : Bool :=
  op.endsProcedure &&
    match next with
    | some slot => slot.opcode ≠ Opcode.end.code
    | none => false

/-- The visit of the instruction in `slot` at `index`, where `next` is the slot after it. -/
def Script.visit (script : Script) (index : Nat) (slot : Slot) (next : Option Slot) : Except StepFault Visit :=
  match Opcode.require slot.opcode (some index) with
  | .error abort => .error (.fatal abort)
  | .ok op => (script.operand index slot next op.operandClass).map fun operand =>
      ⟨index, op, operand, separates op next⟩

/-- The walk over the slots that are left, the first of which stands at `index`. -/
def Script.walkFrom (script : Script) : (index : Nat) → List Slot → Walk
  | index, [] => ⟨[], index, none⟩
  | index, slot :: rest =>
    match script.visit index slot rest.head? with
    | .error fault => ⟨[], index, some fault⟩
    | .ok visit =>
      match visit.opcode.isExtended, rest with
      | true, _ :: later => (script.walkFrom (index + 2) later).after visit
      | _, rest => (script.walkFrom (index + 1) rest).after visit

/-- The walk over a script. -/
def Script.walk (script : Script) : Walk :=
  script.walkFrom 0 script.text

/-! ## Actions -/

/-- One action of a run. -/
inductive Action where
  | write (line : Line)
  | warn (message : String)
  deriving DecidableEq, Repr

/-- The declarations of the labels that point to a slot. -/
def declarations (labels : LabelIndex) (index : Nat) : List Action :=
  (labels.labelsAt index).map fun label => .write (.declaration label.name)

/-- The actions of a visit: the labels that point to it, the warning about it, its line, and the blank line after it. -/
def Visit.actions (labels : LabelIndex) (visit : Visit) : List Action :=
  declarations labels visit.index
    ++ (strayWarning (some visit.index) visit.opcode visit.operand).toList.map .warn
    ++ .write (.instruction visit.opcode visit.operand)
    :: if visit.separated then [.write .blank] else []

/-- The actions before the first visit. -/
def opening (header : String) : List Action :=
  [.write (.comment header), .write .blank, .write .textMark]

/-- The actions after the last visit: the message data, or the labels that point to where the walk was stopped. -/
def closing (script : Script) (labels : LabelIndex) (walk : Walk) : List Action :=
  match walk.fault with
  | none => [.write .blank, .write .messageMark, .write (.dump script.message)]
  | some _ => declarations labels walk.reached

/-- The actions of a run. -/
def Script.actions (script : Script) (header : String) : List Action :=
  let labels := script.labelIndex
  opening header ++ script.walk.visits.flatMap (Visit.actions labels) ++ closing script labels script.walk

/-- The line that an action writes. -/
def Action.line? : Action → Option Line
  | .write line => some line
  | .warn _ => none

/-- The warning that an action gives. -/
def Action.warning? : Action → Option String
  | .write _ => none
  | .warn message => some message

/-- The lines that a run writes to a sink that takes them all. -/
def Script.lines (script : Script) (header : String) : List Line :=
  (script.actions header).filterMap Action.line?

/-- The warnings of a run. -/
def Script.warnings (script : Script) (header : String) : List String :=
  (script.actions header).filterMap Action.warning?

/-- The listing of a script. -/
def Script.listing (script : Script) (header : String) : Except StepFault String :=
  match script.walk.fault with
  | some fault => .error fault
  | none => .ok (renderLines (script.lines header))

/-- The record of a warning. -/
def warningRecord (message : String) : Record :=
  ⟨.warning, .line, message⟩

/-- A sink after actions, the records that they left, and the write that was refused. -/
structure Delivery where
  sink : Sink
  logs : List Record
  fault : Option SinkFault

/-- The actions carried out in order, up to the first write that is refused. -/
def Sink.perform (sink : Sink) : List Action → Delivery
  | [] => ⟨sink, [], none⟩
  | .warn message :: rest =>
    let delivery := sink.perform rest
    { delivery with logs := warningRecord message :: delivery.logs }
  | .write line :: rest =>
    match sink.write line.render with
    | .ok sink => sink.perform rest
    | .error fault => ⟨sink, [], some fault⟩

/-- What a run reports: the instructions it listed, the slots it passed, its warnings, and the fault that stopped it. -/
structure Result where
  instructions : Nat
  slots : Nat
  warnings : List String
  abort : Option Abort
  deriving DecidableEq, Repr

/-- Why a run has no result. -/
inductive RunFault where
  | payload (fault : PayloadFault)
  | sink (fault : SinkFault)
  deriving DecidableEq, Repr

/-- A run: the sink afterwards, the records that it left, and its result. -/
structure Run where
  sink : Sink
  logs : List Record
  outcome : Except RunFault Result

/-- The record of a fault that stopped a run. -/
def abortRecord (abort : Abort) : Record :=
  ⟨.error, .listing, s!"Disassembly aborted: {abort.message}"⟩

/-- The record of a result, for a script with this many slots. -/
def summaryRecord (result : Result) (slots : Nat) : Record :=
  ⟨.debug, .listing,
    s!"Disassembled {result.instructions} instructions ({result.slots}/{slots} slots, {result.warnings.length} warnings)"⟩

/-- The records of a run before its sink is closed. A fault that stops the walk is recorded when all its lines were taken. -/
def Delivery.records (delivery : Delivery) (stop : Option StepFault) : List Record :=
  match delivery.fault, stop with
  | none, some (.fatal abort) => delivery.logs ++ [abortRecord abort]
  | _, _ => delivery.logs

/-- Write the listing of a script to a sink. A sink that cannot let go takes precedence over whatever else went wrong. -/
def Script.writeTo (script : Script) (header : String) (sink : Sink) : Run :=
  let walk := script.walk
  let delivery := sink.perform (script.actions header)
  let closed := delivery.sink.close
  let records := delivery.records walk.fault
  let result (abort : Option Abort) : Result :=
    ⟨walk.visits.length, walk.reached, script.warnings header, abort⟩
  let ended (result : Result) : Run :=
    ⟨closed.1, records ++ [summaryRecord result script.text.length], .ok result⟩
  match closed.2.or delivery.fault, walk.fault with
  | some fault, _ => ⟨closed.1, records, .error (.sink fault)⟩
  | none, some (.payload fault) => ⟨closed.1, records, .error (.payload fault)⟩
  | none, some (.fatal abort) => ended (result abort)
  | none, none => ended (result none)

end FlowListing
