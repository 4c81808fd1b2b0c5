import Mathlib
import FlowListing.Listing.Line
import FlowListing.Proofs.Delivery
import FlowListing.Proofs.NumberText

/-!
# What the text of a line tells

A line ends where its line end stands as long as nothing in it holds a line end, so the text of a listing splits into the texts of its
lines (`splitOn_renderLines`). The text of an instruction gives its opcode, which is what stands before the first space, and what the
listing shows of its operand (`instructionText_injective`). It never ends in a colon, as a declaration does, when no name does.
-/

namespace FlowListing

open Number

/-! ## Lines -/

/-- A line without its line end. -/
def Line.text : Line → String
  | .comment text => commentText text
  | .blank => ""
  | .textMark => ".text"
  | .declaration name => declarationText name
  | .instruction op operand => instructionText op operand
  | .messageMark => ".msgdata raw"
  | .dump bytes => Text.hexDump bytes

/-- The line is written with a line end. -/
def Line.isEnded : Line → Bool
  | .dump _ => false
  | _ => true

/-- A line that is written with a line end is its text and the line end. -/
theorem Line.toList_render {line : Line} (h : line.isEnded = true) :
    line.render.toList = line.text.toList ++ ['\n'] := by
  cases line with
  | dump bytes => cases h
  | _ => simp [render, text]

/-- Lines that hold no line end but their own, and then a dump, split at the line ends. -/
theorem splitOn_renderLines {lines : List Line} (bytes : List UInt8)
    (h : ∀ line ∈ lines, line.isEnded = true ∧ '\n' ∉ line.text.toList) :
    (renderLines (lines ++ [.dump bytes])).toList.splitOn '\n'
      = lines.map (·.text.toList) ++ [(Text.hexDump bytes).toList] := by
  induction lines with
  | nil =>
    have hdump := Text.newline_not_mem_hexDump bytes
    simpa [Line.render] using List.splitOn_eq_singleton hdump
  | cons line rest ih =>
    obtain ⟨hended, hline⟩ := h line List.mem_cons_self
    have hrest := ih fun other hother => h other (List.mem_cons_of_mem _ hother)
    rw [List.cons_append, renderLines_cons, String.toList_append, line.toList_render hended, List.append_assoc,
      List.singleton_append, List.splitOn_append_cons_self_of_not_mem hline, hrest]
    rfl

/-! ## Mnemonics -/

namespace Opcode

/-- An opcode is found by its mnemonic. -/
theorem find?_mnemonic (op : Opcode) : all.find? (·.mnemonic == op.mnemonic) = some op := by
  cases op <;> decide

/-- No two opcodes have the same mnemonic. -/
theorem mnemonic_injective {op op' : Opcode} (h : op.mnemonic = op'.mnemonic) : op = op' := by
  have hfind := op.find?_mnemonic
  rw [h, op'.find?_mnemonic] at hfind
  exact (Option.some.inj hfind).symm

/-- A mnemonic is made of letters. -/
theorem isUpper_of_mem_mnemonic {op : Opcode} {c : Char} (h : c ∈ op.mnemonic.toList) : c.isUpper = true := by
  have hall : op.mnemonic.toList.all Char.isUpper = true := by cases op <;> decide
  exact List.all_eq_true.mp hall c h

/-- A mnemonic is not empty. -/
theorem mnemonic_ne_nil (op : Opcode) : op.mnemonic.toList ≠ [] := by
  cases op <;> decide

end Opcode

/-! ## Operands -/

/-- What a listing shows of an operand. -/
inductive Operand.Shown where
  | nothing
  | number (value : Int)
  /-- The text of a number in single precision. -/
  | real (text : String)
  | string (text : String)
  /-- The name of a label. -/
  | label (name : String)
  deriving DecidableEq, Repr

namespace Operand

/-- What a listing shows of an operand. -/
def shown : Operand → Shown
  | .none _ => .nothing
  | .short value | .word value | .comm value => .number value
  | .real value => .real value.display
  | .string _ text => .string text
  | .procedure _ label | .jump _ label => .label label.name

/-- The operand class that an operand is of. -/
def operandClass : Operand → OperandClass
  | .none _ => .none
  | .short _ => .short
  | .word _ => .word
  | .real _ => .real
  | .string _ _ => .string
  | .procedure _ _ => .procedure
  | .jump _ _ => .jump
  | .comm _ => .comm

/-- A text in an operand holds no line end. -/
def Unbroken : Operand → Prop
  | .string _ text => '\n' ∉ text.toList
  | .procedure _ label | .jump _ label => '\n' ∉ label.name.toList
  | _ => True

/-- The name of a label in an operand does not end in a colon. -/
def EndsPlainly : Operand → Prop
  | .procedure _ label | .jump _ label => label.name.toList.getLast? ≠ some ':'
  | _ => True

/-- An operand that is shown stands after a space. -/
theorem toList_text (operand : Operand) :
    operand.text.toList = [] ∨ ∃ rest, operand.text.toList = ' ' :: rest := by
  cases operand with
  | none stray => exact .inl rfl
  | _ => exact .inr ⟨_, by simp [text]; rfl⟩

/-- The text of an operand holds no line end when nothing in it does. -/
theorem newline_not_mem_text {operand : Operand} (h : operand.Unbroken) : '\n' ∉ operand.text.toList := by
  have hnumber : ∀ value : Int, '\n' ∉ (" " ++ value.repr).toList := by
    intro value hmem
    rw [String.toList_append] at hmem
    rcases List.mem_append.mp hmem with hmem | hmem
    · simp at hmem
    · rcases mem_repr hmem with hdigit | hminus
      · exact absurd hdigit (by decide)
      · exact absurd hminus (by decide)
  cases operand with
  | none stray => simp [text]
  | short value => exact hnumber value
  | word value => exact hnumber value
  | comm value => exact hnumber value
  | real value => simpa [text] using newline_not_mem_display value
  | string id text => simpa [Operand.text, Unbroken] using h
  | procedure position label => simpa [text, Unbroken] using h
  | jump position label => simpa [text, Unbroken] using h

/-- The text of an operand does not end in a colon. -/
theorem getLast?_text_ne_colon {operand : Operand} (h : operand.EndsPlainly) : operand.text.toList.getLast? ≠ some ':' := by
  have hnumber : ∀ value : Int, (" " ++ value.repr).toList.getLast? ≠ some ':' := by
    intro value hlast
    rw [String.toList_append, List.getLast?_append_of_ne_nil _ (repr_ne_nil value)] at hlast
    rcases mem_repr (List.mem_of_getLast? hlast) with hdigit | hminus
    · exact absurd hdigit (by decide)
    · exact absurd hminus (by decide)
  have hname : ∀ name : String, name.toList.getLast? ≠ some ':' → (" " ++ name).toList.getLast? ≠ some ':' := by
    intro name hne hlast
    rw [String.toList_append, List.getLast?_append] at hlast
    cases hl : name.toList.getLast? with
    | none => simp [hl] at hlast
    | some c =>
      rw [hl] at hlast hne
      exact hne hlast
  cases operand with
  | none stray => simp [text]
  | short value => exact hnumber value
  | word value => exact hnumber value
  | comm value => exact hnumber value
  | real value =>
    rw [text, String.toList_append, List.getLast?_append]
    simp
  | string id text =>
    rw [Operand.text, String.toList_append, List.getLast?_append]
    simp
  | procedure position label => exact hname label.name h
  | jump position label => exact hname label.name h

/-- Among operands of one class the text tells what is shown. -/
theorem shown_eq_of_text {a b : Operand} (hclass : a.operandClass = b.operandClass) (h : a.text = b.text) :
    a.shown = b.shown := by
  have h := congrArg String.toList h
  cases a <;> cases b <;> simp only [operandClass, reduceCtorEq] at hclass <;>
    simp [text, shown, String.toList_inj, Int.repr_inj] at h ⊢ <;> exact h

end Operand

/-! ## Instructions -/

/-- The text of an instruction is not empty. -/
theorem instructionText_ne_nil (op : Opcode) (operand : Operand) : (instructionText op operand).toList ≠ [] := by
  rw [instructionText, String.toList_append]
  exact List.append_ne_nil_of_left_ne_nil op.mnemonic_ne_nil _

/-- The text of an instruction holds no line end when its operand does not. -/
theorem newline_not_mem_instructionText (op : Opcode) {operand : Operand} (h : operand.Unbroken) :
    '\n' ∉ (instructionText op operand).toList := by
  rw [instructionText, String.toList_append, List.mem_append, not_or]
  exact ⟨fun hmem => absurd (Opcode.isUpper_of_mem_mnemonic hmem) (by decide), Operand.newline_not_mem_text h⟩

/-- The text of an instruction does not end in a colon. -/
theorem getLast?_instructionText_ne_colon (op : Opcode) {operand : Operand} (h : operand.EndsPlainly) :
    (instructionText op operand).toList.getLast? ≠ some ':' := by
  rw [instructionText, String.toList_append, List.getLast?_append]
  have hoperand := Operand.getLast?_text_ne_colon h
  cases hl : operand.text.toList.getLast? with
  | some c =>
    rw [hl] at hoperand
    exact hoperand
  | none =>
    intro hlast
    exact absurd (Opcode.isUpper_of_mem_mnemonic (List.mem_of_getLast? hlast)) (by decide)

/-- The mnemonic is what stands before the first space. -/
theorem takeWhile_instructionText (op : Opcode) (operand : Operand) :
    (instructionText op operand).toList.takeWhile (· ≠ ' ') = op.mnemonic.toList := by
  have hletters : ∀ c ∈ op.mnemonic.toList, decide (c ≠ ' ') = true := by
    intro c hc
    rw [decide_eq_true_eq]
    rintro rfl
    exact absurd (Opcode.isUpper_of_mem_mnemonic hc) (by decide)
  rw [instructionText, String.toList_append, List.takeWhile_append_of_pos hletters]
  rcases operand.toList_text with hnil | ⟨rest, hrest⟩
  · rw [hnil, List.takeWhile_nil, List.append_nil]
  · rw [hrest, List.takeWhile_cons_of_neg (by simp), List.append_nil]

/-- The text of an instruction tells its opcode and what is shown of its operand. -/
theorem instructionText_injective {op op' : Opcode} {operand operand' : Operand}
    (hclass : operand.operandClass = op.operandClass) (hclass' : operand'.operandClass = op'.operandClass)
    (h : (instructionText op operand).toList = (instructionText op' operand').toList) :
    op = op' ∧ operand.shown = operand'.shown := by
  have hmnemonic : op.mnemonic.toList = op'.mnemonic.toList := by
    rw [← takeWhile_instructionText op operand, h, takeWhile_instructionText]
  have hop := Opcode.mnemonic_injective (String.toList_inj.mp hmnemonic)
  subst hop
  rw [instructionText, instructionText, String.toList_append, String.toList_append] at h
  have htext := String.toList_inj.mp (List.append_cancel_left h)
  exact ⟨rfl, Operand.shown_eq_of_text (hclass.trans hclass'.symm) htext⟩

end FlowListing
