import FlowListing.Operand
import FlowListing.Text.Shown

/-!
# Lines of a listing

A listing opens with a comment and a blank line. The text section has a line for each label and each instruction and blank lines
between procedures. The message data follows as a dump, which has no line end.
-/

namespace FlowListing

open Number

/-- A line of a listing. -/
inductive Line where
  | comment (text : String)
  | blank
  /-- The text section begins. -/
  | textMark
  /-- A label is declared. -/
  | declaration (name : String)
  | instruction (opcode : Opcode) (operand : Operand)
  /-- The message data begins. -/
  | messageMark
  /-- The message data. -/
  | dump (bytes : List UInt8)
  deriving DecidableEq, Repr

/-- What stands after the mnemonic. Strings are written as they are, in quotation marks. -/
def Operand.text : Operand → String
  | .none _ => ""
  | .short value | .word value | .comm value => " " ++ value.repr
  | .real value => " " ++ value.display ++ "f"
  | .string _ text => " \"" ++ text ++ "\""
  | .procedure _ label | .jump _ label => " " ++ label.name

/-- An instruction, without the line end. -/
def instructionText (op : Opcode) (operand : Operand) : String :=
  op.mnemonic ++ operand.text

/-- The declaration of a label, without the line end. -/
def declarationText (name : String) : String :=
  name ++ ":"

/-- A comment, without the line end. -/
def commentText (text : String) : String :=
  "; " ++ text

/-- A line as it is written. -/
def Line.render : Line → String
  | .comment text => commentText text ++ "\n"
  | .blank => "\n"
  | .textMark => ".text\n"
  | .declaration name => declarationText name ++ "\n"
  | .instruction op operand => instructionText op operand ++ "\n"
  | .messageMark => ".msgdata raw\n"
  | .dump bytes => Text.hexDump bytes

/-- The text of lines. -/
def renderLines (lines : List Line) : String :=
  String.join (lines.map Line.render)

/-- The warning about an instruction that takes no operand and has one. -/
def strayWarning (index : Option Int) (op : Opcode) : Operand → Option String
  | .none stray =>
    if stray = 0 then none
    else
      let place := match index with
        | some index => index.repr
        | none => "None"
      some s!"instruction {place}: {op.mnemonic} should not have any operands (found {stray})"
  | _ => none

/-- The line of an instruction given by its code, and the warning about its operand. -/
def describeInstruction (code : Int) (operand : Operand) (index : Option Int) : Except Abort (String × Option String) :=
  (Opcode.require code index).map fun op => (instructionText op operand, strayWarning index op operand)

end FlowListing
