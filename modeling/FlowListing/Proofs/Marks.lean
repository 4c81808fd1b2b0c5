import FlowListing.Proofs.Acceptance
import FlowListing.Proofs.Readback

/-!
# The marks of the sections

A listing has one line for the mark of each section, and the mark of the text section comes first. Names and strings are written as
they are, so that one with line ends puts lines of its own into the listing, and these may look like a mark.
`Script.insertedLines` are those lines; the marks are unambiguous exactly when none of them is a mark (`Script.marks_once_iff`).
-/

namespace FlowListing

/-! ## Text inside a line -/

section Pieces

variable {front back text mark : List Char}

/-- What stands in front of a text joins its first line. -/
theorem splitOn_append_front (hfront : '\n' ∉ front) (text : List Char) :
    (front ++ text).splitOn '\n' = (text.splitOn '\n').modifyHead (front ++ ·) := by
  induction front with
  | nil =>
    obtain ⟨first, rest, hsplit⟩ := List.exists_cons_of_ne_nil (List.splitOn_ne_nil '\n' text)
    simp [hsplit]
  | cons c front ih =>
    rw [List.mem_cons, not_or] at hfront
    obtain ⟨first, rest, hsplit⟩ := List.exists_cons_of_ne_nil (List.splitOn_ne_nil '\n' text)
    rw [List.cons_append, List.splitOn_cons_eq_if_modifyHead, if_neg fun h => hfront.1 (eq_of_beq h).symm,
      ih hfront.2, hsplit]
    rfl

/-- What stands behind a text joins its last line. -/
theorem splitOn_append_back (hback : '\n' ∉ back) (text : List Char) :
    ∃ last, (text ++ back).splitOn '\n' = (text.splitOn '\n').dropLast ++ [last ++ back] := by
  induction text with
  | nil => exact ⟨[], by simpa using List.splitOn_eq_singleton hback⟩
  | cons c text ih =>
    obtain ⟨last, hlast⟩ := ih
    obtain ⟨first, rest, hsplit⟩ := List.exists_cons_of_ne_nil (List.splitOn_ne_nil '\n' text)
    rw [List.cons_append, List.splitOn_cons_eq_if_modifyHead, List.splitOn_cons_eq_if_modifyHead, hlast, hsplit]
    by_cases hc : (c == '\n') = true
    · exact ⟨last, by simp [hc]⟩
    · cases rest with
      | nil => exact ⟨c :: last, by simp [hc]⟩
      | cons second rest => exact ⟨last, by simp [hc]⟩

/-- Behind something that no mark starts with, the marks among the lines of a text are those after its first line. -/
theorem count_splitOn_front (hfront : '\n' ∉ front) (hmark : ∀ piece, front ++ piece ≠ mark) (text : List Char) :
    ((front ++ text).splitOn '\n').count mark = (text.splitOn '\n').tail.count mark := by
  obtain ⟨first, rest, hsplit⟩ := List.exists_cons_of_ne_nil (List.splitOn_ne_nil '\n' text)
  rw [splitOn_append_front hfront, hsplit, List.modifyHead_cons, List.count_cons_of_ne (hmark first), List.tail_cons]

/-- Before something that no mark ends with, they are those before its last line. -/
theorem count_splitOn_back (hback : '\n' ∉ back) (hmark : ∀ piece, piece ++ back ≠ mark) (text : List Char) :
    ((text ++ back).splitOn '\n').count mark = (text.splitOn '\n').dropLast.count mark := by
  obtain ⟨last, hlast⟩ := splitOn_append_back hback text
  rw [hlast, List.count_append, List.count_singleton, if_neg (by simpa using hmark last), Nat.add_zero]

/-- Between the two, they are those that are neither its first line nor its last. -/
theorem count_splitOn_between (hfront : '\n' ∉ front) (hstart : ∀ piece, front ++ piece ≠ mark) (hback : '\n' ∉ back)
    (hend : ∀ piece, piece ++ back ≠ mark) (text : List Char) :
    ((front ++ (text ++ back)).splitOn '\n').count mark = (text.splitOn '\n').tail.dropLast.count mark := by
  obtain ⟨last, hlast⟩ := splitOn_append_back hback text
  rw [count_splitOn_front hfront hstart, hlast]
  cases (text.splitOn '\n') with
  | nil => simp
  | cons first rest =>
    cases rest with
    | nil => simp
    | cons second rest =>
      rw [List.dropLast_cons_cons, List.cons_append, List.tail_cons, List.count_append, List.count_singleton,
        if_neg (by simpa using hend last), Nat.add_zero, List.tail_cons]

end Pieces

/-! ## Marks -/

/-- A text is the mark of a section. -/
def IsMark (text : List Char) : Prop :=
  text = ".text".toList ∨ text = ".msgdata raw".toList

namespace IsMark

variable {mark : List Char}

/-- A mark starts with a point. -/
theorem ne_of_head (h : IsMark mark) {c : Char} (hc : c ≠ '.') (rest : List Char) : c :: rest ≠ mark := by
  rintro rfl
  rcases h with h | h
  · exact hc (List.cons.inj h).1
  · exact hc (List.cons.inj h).1

/-- A mark ends with a letter. -/
theorem ne_of_last (h : IsMark mark) {c : Char} (hc : c.isAlpha = false) (before : List Char) : before ++ [c] ≠ mark := by
  rintro rfl
  rcases h with h | h
  · have hlast := congrArg List.getLast? h
    rw [List.getLast?_concat] at hlast
    cases hlast
    cases hc
  · have hlast := congrArg List.getLast? h
    rw [List.getLast?_concat] at hlast
    cases hlast
    cases hc

/-- No mark starts with a mnemonic. -/
theorem ne_of_mnemonic (h : IsMark mark) (op : Opcode) (rest : List Char) : op.mnemonic.toList ++ rest ≠ mark := by
  obtain ⟨c, later, hmnemonic⟩ := List.exists_cons_of_ne_nil op.mnemonic_ne_nil
  have hupper : c.isUpper = true := Opcode.isUpper_of_mem_mnemonic (hmnemonic ▸ List.mem_cons_self)
  rw [hmnemonic, List.cons_append]
  refine h.ne_of_head ?_ _
  rintro rfl
  cases hupper

/-- A mark is not empty. -/
theorem ne_nil (h : IsMark mark) : [] ≠ mark := by
  rintro rfl
  rcases h with h | h <;> cases h

/-- A dump of message data is no mark. -/
theorem ne_hexDump (h : IsMark mark) (bytes : List UInt8) : (Text.hexDump bytes).toList ≠ mark := by
  have hdigit : ∀ a : Fin 16, Text.hexDigit a ≠ '.' := by decide
  cases bytes with
  | nil =>
    rw [Text.toList_hexDump_nil]
    exact h.ne_nil
  | cons b bytes =>
    have hb := b.toNat_lt
    rw [Text.toList_hexDump_cons]
    exact h.ne_of_head (hdigit ⟨b.toNat / 16, by omega⟩) _

end IsMark

/-! ## Inserted lines -/

/-- The lines that the names and strings in a line make of their own: a name that is declared stands at the start of its line, one that
is referred to stands at the end, and a string stands at neither. -/
def Line.insertedLines : Line → List (List Char)
  | .declaration name => (name.toList.splitOn '\n').dropLast
  | .instruction _ (.string _ text) => (text.toList.splitOn '\n').tail.dropLast
  | .instruction _ (.procedure _ label) | .instruction _ (.jump _ label) => (label.name.toList.splitOn '\n').tail
  | _ => []

section Lines

variable {mark : List Char}

/-- A declaration has as many lines that look like a mark as its name inserts. -/
theorem count_splitOn_declaration (h : IsMark mark) (name : String) :
    ((declarationText name).toList.splitOn '\n').count mark = (Line.declaration name).insertedLines.count mark := by
  rw [declarationText, String.toList_append]
  exact count_splitOn_back (by decide) (h.ne_of_last (by decide)) name.toList

/-- A mnemonic stays on one line. -/
theorem newline_not_mem_mnemonic (op : Opcode) : '\n' ∉ op.mnemonic.toList := by
  intro hmem
  exact absurd (Opcode.isUpper_of_mem_mnemonic hmem) (by decide)

/-- An instruction starts with its mnemonic, so its first line is no mark; a string ends with a quotation mark, so neither is its
last. -/
theorem count_splitOn_instruction (h : IsMark mark) (op : Opcode) (operand : Operand) :
    ((instructionText op operand).toList.splitOn '\n').count mark = (Line.instruction op operand).insertedLines.count mark := by
  have hplain : operand.Unbroken → (Line.instruction op operand).insertedLines = [] →
      ((instructionText op operand).toList.splitOn '\n').count mark = (Line.instruction op operand).insertedLines.count mark := by
    intro hunbroken hnone
    rw [List.splitOn_eq_singleton (newline_not_mem_instructionText op hunbroken), hnone, instructionText, String.toList_append,
      List.count_cons_of_ne (h.ne_of_mnemonic op _)]
  have hname : ∀ name : String, ((op.mnemonic ++ (" " ++ name)).toList.splitOn '\n').count mark =
      (name.toList.splitOn '\n').tail.count mark := by
    intro name
    rw [String.toList_append, String.toList_append, ← List.append_assoc]
    refine count_splitOn_front ?_ ?_ name.toList
    · simpa using newline_not_mem_mnemonic op
    · intro piece
      rw [List.append_assoc]
      exact h.ne_of_mnemonic op _
  cases operand with
  | none stray => exact hplain trivial rfl
  | short value => exact hplain trivial rfl
  | word value => exact hplain trivial rfl
  | comm value => exact hplain trivial rfl
  | real value => exact hplain trivial rfl
  | procedure position label => exact hname label.name
  | jump position label => exact hname label.name
  | string id text =>
    have htext : (instructionText op (.string id text)).toList = (op.mnemonic.toList ++ [' ', '"']) ++ (text.toList ++ ['"']) := by
      simp [instructionText, Operand.text]
    rw [htext]
    refine count_splitOn_between ?_ ?_ (by decide) (h.ne_of_last (by decide)) text.toList
    · simpa using newline_not_mem_mnemonic op
    · intro piece
      rw [List.append_assoc]
      exact h.ne_of_mnemonic op _

end Lines

/-- The lines that the names and strings of a script make of their own where its listing shows them. -/
def Script.insertedLines (script : Script) : List (List Char) :=
  (script.walk.visits.flatMap (Visit.lines script)).flatMap Line.insertedLines

/-- Among the lines of a visit, the marks are inserted ones. -/
theorem Visit.count_splitOn {mark : List Char} (h : IsMark mark) {script : Script} {visit : Visit} {line : Line}
    (hline : line ∈ visit.lines script) : line.isEnded = true ∧
      (line.text.toList.splitOn '\n').count mark = line.insertedLines.count mark := by
  rcases visit.mem_lines hline with ⟨name, -, rfl⟩ | rfl | ⟨-, rfl⟩
  · exact ⟨rfl, count_splitOn_declaration h name⟩
  · exact ⟨rfl, count_splitOn_instruction h visit.opcode visit.operand⟩
  · exact ⟨rfl, List.count_cons_of_ne h.ne_nil⟩

/-! ## The lines of a listing -/

/-- Each line with a line end splits on its own. -/
theorem splitOn_renderLines_append {lines : List Line} (h : ∀ line ∈ lines, line.isEnded = true) (rest : List Char) :
    ((renderLines lines).toList ++ rest).splitOn '\n' =
      lines.flatMap (fun line => line.text.toList.splitOn '\n') ++ rest.splitOn '\n' := by
  induction lines with
  | nil => simp
  | cons line lines ih =>
    rw [List.forall_mem_cons] at h
    rw [renderLines_cons, String.toList_append, line.toList_render h.1, List.append_assoc, List.append_assoc,
      List.singleton_append, List.splitOn_append_cons_self, ih h.2, List.flatMap_cons, List.append_assoc]

/-- The lines of the visits, as they split. -/
def Script.visitLines (script : Script) : List (List Char) :=
  (script.walk.visits.flatMap (Visit.lines script)).flatMap fun line => line.text.toList.splitOn '\n'

/-- The visits of a walk have as many lines that look like a mark as their names and strings insert. -/
theorem Script.count_visitLines (script : Script) {mark : List Char} (h : IsMark mark) :
    script.visitLines.count mark = script.insertedLines.count mark := by
  rw [visitLines, insertedLines, List.count_flatMap, List.count_flatMap]
  refine congrArg List.sum (List.map_congr_left ?_)
  intro line hline
  obtain ⟨visit, -, hline⟩ := List.mem_flatMap.mp hline
  exact (Visit.count_splitOn h hline).2

/-- The lines of a run that was not stopped: around those of the visits stand the header, the marks and the dump. -/
theorem Script.splitOn_of_complete {script : Script} {header : String} (hheader : '\n' ∉ header.toList)
    (h : script.walk.fault = none) :
    (renderLines (script.lines header)).toList.splitOn '\n' =
      [(commentText header).toList, [], ".text".toList] ++ script.visitLines ++
        [[], ".msgdata raw".toList, (Text.hexDump script.message).toList] := by
  have hended : ∀ line ∈ [.comment header, .blank, .textMark] ++ script.bodyLines, line.isEnded = true := by
    intro line hline
    simp only [bodyLines, List.mem_append, List.mem_cons, List.not_mem_nil, or_false] at hline
    rcases hline with (rfl | rfl | rfl) | hline | rfl | rfl
    · rfl
    · rfl
    · rfl
    · obtain ⟨visit, -, hline⟩ := List.mem_flatMap.mp hline
      exact (Visit.count_splitOn (.inl rfl) hline).1
    · rfl
    · rfl
  have htext : (renderLines (script.lines header)).toList =
      (renderLines ([.comment header, .blank, .textMark] ++ script.bodyLines)).toList ++ (Text.hexDump script.message).toList := by
    rw [text_of_complete header h, renderLines_append, renderLines_append, ← String.append_assoc, String.toList_append]
    simp [Line.render]
  have hcomment : '\n' ∉ (commentText header).toList := by simpa [commentText] using hheader
  have hopening : [Line.comment header, .blank, .textMark].flatMap (fun line => line.text.toList.splitOn '\n') =
      [(commentText header).toList, [], ".text".toList] := by
    rw [List.flatMap_cons, Line.text, List.splitOn_eq_singleton hcomment]
    rfl
  have hclosing : [Line.blank, .messageMark].flatMap (fun line => line.text.toList.splitOn '\n') =
      [[], ".msgdata raw".toList] := rfl
  rw [htext, splitOn_renderLines_append hended, List.splitOn_eq_singleton (Text.newline_not_mem_hexDump script.message),
    bodyLines, List.flatMap_append, List.flatMap_append, hopening, hclosing, ← visitLines, List.append_assoc, List.append_assoc,
    List.append_assoc]
  rfl

/-- In the listing of a run that was not stopped, under a header that stays on one line, each mark stands once and once more for each
line that a name or a string inserts and that looks like it. So each stands once, the one of the text section before the one of the
message data, exactly when no such line is inserted. -/
theorem Script.marks_once_iff {script : Script} {header : String} {sink : Sink} {result : Result} (hheader : '\n' ∉ header.toList)
    (hsink : sink.text = "") (hrun : (script.writeTo header sink).outcome = .ok result) (hok : result.abort = none) :
    let lines := (script.writeTo header sink).sink.text.toList.splitOn '\n'
    let text := ".text".toList
    let message := ".msgdata raw".toList
    (lines.count text = 1 + script.insertedLines.count text ∧ lines.count message = 1 + script.insertedLines.count message) ∧
      ((lines.count text = 1 ∧ lines.count message = 1 ∧ lines.idxOf text < lines.idxOf message) ↔
        text ∉ script.insertedLines ∧ message ∉ script.insertedLines) := by
  intro lines text message
  obtain ⟨hfault, -⟩ := walk_of_outcome hrun
  rw [hok] at hfault
  have hlines : lines = [(commentText header).toList, [], text] ++ script.visitLines ++
      [[], message, (Text.hexDump script.message).toList] := by
    rw [← splitOn_of_complete hheader hfault, ← String.empty_append (s := renderLines _), ← hsink, ← writeTo_text hrun]
  have hcomment : ∀ mark, IsMark mark → (commentText header).toList ≠ mark := by
    intro mark hmark
    rw [commentText, String.toList_append]
    exact hmark.ne_of_head (by decide) _
  have hcount : ∀ mark, IsMark mark →
      lines.count mark = [text].count mark + [message].count mark + script.insertedLines.count mark := by
    intro mark hmark
    have hdump : [message, (Text.hexDump script.message).toList].count mark = [message].count mark := by
      rw [← List.singleton_append, List.count_append, List.count_cons_of_ne (hmark.ne_hexDump _), List.count_nil, Nat.add_zero]
    rw [hlines, List.count_append, List.count_append, script.count_visitLines hmark, List.count_cons_of_ne (hcomment mark hmark),
      List.count_cons_of_ne hmark.ne_nil, List.count_cons_of_ne hmark.ne_nil, hdump]
    omega
  have htext : lines.count text = 1 + script.insertedLines.count text := hcount text (.inl rfl)
  have hmessage : lines.count message = 1 + script.insertedLines.count message := hcount message (.inr rfl)
  have hbefore : lines.idxOf text < lines.idxOf message := by
    rw [hlines, List.append_assoc, List.cons_append, List.cons_append, List.cons_append,
      List.idxOf_cons_ne _ (hcomment text (.inl rfl)), List.idxOf_cons_ne _ (IsMark.ne_nil (.inl rfl)), List.idxOf_cons_self,
      List.idxOf_cons_ne _ (hcomment message (.inr rfl)), List.idxOf_cons_ne _ (IsMark.ne_nil (.inr rfl)),
      List.idxOf_cons_ne _ (by decide)]
    omega
  refine ⟨⟨htext, hmessage⟩, ?_⟩
  rw [← List.count_eq_zero, ← List.count_eq_zero]
  omega

/-- A container whose text section pushes the string that its other section starts with. -/
def stringContainer (string : List UInt8) : List UInt8 :=
  bareHeader [2, 0, 0, 0] ++ [2, 0, 0, 0, 4, 0, 0, 0, 2, 0, 0, 0, 64, 0, 0, 0] ++ [4, 0, 0, 0, 1, 0, 0, 0, 8, 0, 0, 0, 72, 0, 0, 0] ++
    [34, 0, 0, 0, 9, 0, 0, 0] ++ string

/-- The script in such a container. -/
def stringScript (strings : StringTable) : Script :=
  { text := [⟨34, 0, 34⟩, ⟨9, 0, 9⟩], strings := strings }

/-- A string whose last line is a mark inserts none, since the quotation mark follows. -/
theorem Script.marks_once_iff_string :
    let script := stringScript [(0, "\n.text"), (7, "")]
    let lines := (script.writeTo "x" { medium := .memory }).sink.text.toList.splitOn '\n'
    (Script.read (stringContainer [10, 46, 116, 101, 120, 116, 0, 0]) "ascii" none).outcome = .ok script ∧
      lines.count ".text".toList = 1 ∧ lines.count ".msgdata raw".toList = 1 ∧
      lines.idxOf ".text".toList < lines.idxOf ".msgdata raw".toList := by
  intro script lines
  have hrun : (script.writeTo "x" { medium := .memory }).outcome = .ok ⟨2, 2, [], none⟩ := rfl
  exact ⟨by decide +kernel, (marks_once_iff (by decide) rfl hrun rfl).2.mpr (by decide +kernel)⟩

/-- A string that has a line of its own which is the mark of the text section. -/
theorem Script.text_mark_twice :
    let script := stringScript [(0, "\n.text\n")]
    let run := script.writeTo "x" { medium := .memory }
    (Script.read (stringContainer [10, 46, 116, 101, 120, 116, 10, 0]) "ascii" none).outcome = .ok script ∧
      run.outcome = .ok ⟨2, 2, [], none⟩ ∧ run.sink.text = "; x\n\n.text\nPUSHSTR \"\n.text\n\"\nEND\n\n.msgdata raw\n" ∧
      (run.sink.text.toList.splitOn '\n').count ".text".toList = 2 := by
  decide +kernel

end FlowListing
