/-!
# Opcodes and the operands they take

An instruction is one slot of the text section, or two when its operand fills the next slot. The opcode alone decides how the
operand is found (`Opcode.operandClass`) and how many slots the instruction takes (`Opcode.width`).
-/

namespace FlowListing

/-- How the operand of an instruction is found. -/
inductive OperandClass where
  /-- No operand; the short of the slot should be zero. -/
  | none
  /-- The short of the slot. -/
  | short
  /-- The next slot, as a signed word. -/
  | word
  /-- The next slot, as a single-precision number. -/
  | real
  /-- The short is the id of a string. -/
  | string
  /-- The short is a position in the table of procedure labels. -/
  | procedure
  /-- The short is a position in the table of jump labels. -/
  | jump
  /-- The short is the number of a communication function. -/
  | comm
  deriving DecidableEq, Repr

/-- The operand fills the next slot. -/
def OperandClass.isExtended : OperandClass → Bool
  | .word | .real => true
  | _ => false

/-- The instruction set, in the order of the codes. -/
inductive Opcode where
  | pushi | pushf | pushix | pushif | pushreg | popix | popfx
  | proc | comm | «end» | jump | call | run | goto
  | add | sub | mul | div | minus | not | or | and
  | eq | neq | s | l | se | le | «if»
  | pushis | pushlix | pushlfx | poplix | poplfx | pushstr
  deriving DecidableEq, Repr

namespace Opcode

/-- The code of an opcode in the text section: its place in the instruction set. -/
def code (op : Opcode) : Nat :=
  op.ctorIdx

/-- All opcodes, in the order of their codes. -/
def all : List Opcode :=
  [.pushi, .pushf, .pushix, .pushif, .pushreg, .popix, .popfx,
    .proc, .comm, .end, .jump, .call, .run, .goto,
    .add, .sub, .mul, .div, .minus, .not, .or, .and,
    .eq, .neq, .s, .l, .se, .le, .if,
    .pushis, .pushlix, .pushlfx, .poplix, .poplfx, .pushstr]

/-- The opcode with a code, if there is one. -/
def ofCode? : Int → Option Opcode
  | .ofNat n => all[n]?
  | .negSucc _ => Option.none

/-- The name of an opcode in a listing. -/
def mnemonic : Opcode → String
  | .pushi => "PUSHI" | .pushf => "PUSHF" | .pushix => "PUSHIX" | .pushif => "PUSHIF" | .pushreg => "PUSHREG"
  | .popix => "POPIX" | .popfx => "POPFX" | .proc => "PROC" | .comm => "COMM" | .end => "END" | .jump => "JUMP"
  | .call => "CALL" | .run => "RUN" | .goto => "GOTO" | .add => "ADD" | .sub => "SUB" | .mul => "MUL" | .div => "DIV"
  | .minus => "MINUS" | .not => "NOT" | .or => "OR" | .and => "AND" | .eq => "EQ" | .neq => "NEQ" | .s => "S"
  | .l => "L" | .se => "SE" | .le => "LE" | .if => "IF" | .pushis => "PUSHIS" | .pushlix => "PUSHLIX"
  | .pushlfx => "PUSHLFX" | .poplix => "POPLIX" | .poplfx => "POPLFX" | .pushstr => "PUSHSTR"

/-- The operand that an opcode takes. -/
def operandClass : Opcode → OperandClass
  | .pushi => .word
  | .pushf => .real
  | .pushix | .pushif | .popix | .popfx | .run | .pushis | .pushlix | .pushlfx | .poplix | .poplfx => .short
  | .pushstr => .string
  | .proc | .call => .procedure
  | .jump | .goto | .if => .jump
  | .comm => .comm
  | .pushreg | .add | .sub | .mul | .div | .minus | .not | .or | .and | .eq | .neq | .s | .l | .se | .le
  | .end => .none

/-- The instruction reads its operand from the next slot. -/
def isExtended (op : Opcode) : Bool :=
  op.operandClass.isExtended

/-- How many slots the instruction takes. -/
def width (op : Opcode) : Nat :=
  if op.isExtended then 2 else 1

/-- The opcode ends a procedure. -/
def endsProcedure (op : Opcode) : Bool :=
  op == .end

/-- Reading the code of an opcode gives the opcode back. -/
@[simp] theorem ofCode?_code (op : Opcode) : ofCode? op.code = some op := by
  cases op <;> rfl

end Opcode

end FlowListing
