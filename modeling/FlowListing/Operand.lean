import FlowListing.Fault
import FlowListing.Opcode
import FlowListing.Script

/-!
# Operands

The operand of an instruction is its short, the payload of the next slot, or what the short refers to: a string, a procedure
label or a jump label. A reference that names nothing stops the listing, and so does an instruction in the last slot whose
operand should fill the next one.
-/

namespace FlowListing

open Number

/-- The operand of an instruction. -/
inductive Operand where
  /-- No operand; `stray` is the short of the slot, which should be zero. -/
  | none (stray : Int)
  | short (value : Int)
  | word (value : Int)
  | real (value : Datum)
  | string (id : Int) (text : String)
  | procedure (position : Int) (label : Label)
  | jump (position : Int) (label : Label)
  | comm (value : Int)
  deriving DecidableEq, Repr

/-- Why an instruction cannot be listed: a fault that stops the listing, or a payload that is no word. -/
inductive StepFault where
  | fatal (abort : Abort)
  | payload (fault : PayloadFault)
  deriving DecidableEq, Repr

/-- The opcode with a code; `index` is the slot to name when there is none. -/
def Opcode.require (code : Int) (index : Option Int) : Except Abort Opcode :=
  match Opcode.ofCode? code with
  | some op => .ok op
  | none => .error ⟨.unknownOpcode code, index⟩

/-- The label at a position of a table. -/
def requireLabel (table : String) (labels : List Label) (index position : Int) : Except StepFault Label :=
  match if position < 0 then none else labels[position.toNat]? with
  | some label => .ok label
  | none => .error (.fatal ⟨.missingLabel table labels.length position, index⟩)

/-- The slot that holds the operand of the instruction at `index`. -/
def requirePayload (index : Int) (next : Option Slot) : Except StepFault Slot :=
  match next with
  | some slot => .ok slot
  | none => .error (.fatal ⟨.missingPayload, index⟩)

/-- The operand of an instruction, read as an operand class asks. The instruction is in `slot` at `index`, and `next` is the slot
after it. -/
def Script.operand (script : Script) (index : Int) (slot : Slot) (next : Option Slot) :
    OperandClass → Except StepFault Operand
  | .none => .ok (.none slot.short)
  | .short => .ok (.short slot.short)
  | .word => do
    let payload ← requirePayload index next
    (payload.signed.map .word).mapError .payload
  | .real => do
    let payload ← requirePayload index next
    (payload.real.map .real).mapError .payload
  | .string =>
    match script.strings.find? slot.short with
    | some text => .ok (.string slot.short text)
    | none => .error (.fatal ⟨.missingString slot.short, index⟩)
  | .procedure =>
    (requireLabel "procedure labels" script.procedures index slot.short).map (.procedure slot.short)
  | .jump => (requireLabel "jump labels" script.jumps index slot.short).map (.jump slot.short)
  | .comm => .ok (.comm slot.short)

/-- The operand of the instruction at an index, read as an operand class asks, if there is such a slot. A negative index counts from
the end, and then the slot after the last one is the first. -/
def Script.operandAt (script : Script) (index : Int) (operandClass : OperandClass) :
    Except IndexFault (Except StepFault Operand) :=
  (script.slotAt index).map fun slot =>
    let next := if script.text.length ≤ index + 1 then none else script.slotAt? (index + 1)
    script.operand index slot next operandClass

end FlowListing
