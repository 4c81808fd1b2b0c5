import FlowListing.Proofs.Declarations
import FlowListing.Proofs.LineText

/-!
# Reading a listing back

A listing of a script whose names and strings stay on one line gives back the instructions that the run visited, with the names
declared before each, and the message data. The text splits into lines; in the text section a line that ends in a colon is a
declaration, an empty line tells nothing, and any other line is an instruction (`groupLines`). Grouping inverts what the run writes
(`groupLines_visits`), and the text of an instruction tells its opcode and what is shown of its operand.
-/

namespace FlowListing

/-! ## The lines of a run that was not stopped -/

/-- The lines between the opening and the dump of a run that was not stopped: those of each visit, and the mark of the message
data. -/
def Script.bodyLines (script : Script) : List Line :=
  script.walk.visits.flatMap (Visit.lines script) ++ [.blank, .messageMark]

/-- The text of a run that was not stopped. -/
theorem Script.text_of_complete {script : Script} (header : String) (h : script.walk.fault = none) :
    renderLines (script.lines header)
      = renderLines [.comment header, .blank, .textMark] ++ renderLines (script.bodyLines ++ [.dump script.message]) := by
  rw [script.lines_eq, h, ← renderLines_append, bodyLines]
  simp [lastLines]

/-! ## What is legible -/

/-- Names and strings hold no line end. -/
structure Script.Unbroken (script : Script) : Prop where
  names : ∀ label ∈ script.jumps ++ script.procedures, '\n' ∉ label.name.toList
  strings : ∀ entry ∈ script.strings, '\n' ∉ entry.2.toList

/-- Names and strings hold no line end, and no name ends in a colon. -/
structure Script.Legible (script : Script) : Prop extends Script.Unbroken script where
  colons : ∀ label ∈ script.jumps ++ script.procedures, label.name.toList.getLast? ≠ some ':'

/-- A label that was required is one of the table. -/
theorem mem_of_requireLabel {table : String} {labels : List Label} {index position : Int} {label : Label}
    (h : requireLabel table labels index position = .ok label) : label ∈ labels := by
  by_cases hout : position < 0 ∨ labels.length ≤ position
  · rw [requireLabel_of_outside table index hout] at h
    cases h
  · obtain ⟨other, hmem, hother⟩ := requireLabel_of_inside table labels index position (by omega) (by omega)
    rw [h] at hother
    exact Except.ok.inj hother ▸ hmem

/-- The texts in an operand come from the tables of a script. -/
def Operand.IsFrom (script : Script) : Operand → Prop
  | .string id text => (id, text) ∈ script.strings
  | .procedure _ label => label ∈ script.procedures
  | .jump _ label => label ∈ script.jumps
  | _ => True

/-- An operand is of the class that was asked for, and its texts come from the tables. -/
theorem Script.isFrom_operand {script : Script} {index : Int} {slot : Slot} {next : Option Slot} {operandClass : OperandClass}
    {operand : Operand} (ho : script.operand index slot next operandClass = .ok operand) :
    operand.operandClass = operandClass ∧ operand.IsFrom script := by
  cases operandClass with
  | none | short | comm =>
    cases ho
    exact ⟨rfl, trivial⟩
  | word | real =>
    cases next with
    | none => cases ho
    | some payload =>
      obtain ⟨value, -, rfl⟩ := exists_of_map_eq_ok (mapError_eq_ok_iff.mp ho)
      exact ⟨rfl, trivial⟩
  | string =>
    simp only [Script.operand] at ho
    split at ho
    · rename_i text hfind
      cases ho
      exact ⟨rfl, StringTable.mem_of_find? hfind⟩
    · cases ho
  | procedure | jump =>
    obtain ⟨label, hrequire, rfl⟩ := exists_of_map_eq_ok ho
    exact ⟨rfl, mem_of_requireLabel hrequire⟩

/-- The operand of a visit is of the class of its opcode, and its texts come from the tables. -/
theorem Script.isFrom_visit {script : Script} {visit : Visit} (hv : visit ∈ script.walk.visits) :
    visit.operand.operandClass = visit.opcode.operandClass ∧ visit.operand.IsFrom script := by
  obtain ⟨slot, -, hvisit⟩ := visit_of_mem (p := 0) hv
  exact isFrom_operand (visit_eq_ok hvisit).2.2.2

/-- An operand of a script without line ends in its texts has none either. -/
theorem Operand.IsFrom.unbroken {script : Script} {operand : Operand} (h : operand.IsFrom script) (hscript : script.Unbroken) :
    operand.Unbroken := by
  cases operand with
  | string id text => exact hscript.strings _ h
  | procedure position label => exact hscript.names label (List.mem_append_right _ h)
  | jump position label => exact hscript.names label (List.mem_append_left _ h)
  | _ => trivial

/-- In a script that is legible no operand ends in a colon. -/
theorem Operand.IsFrom.endsPlainly {script : Script} {operand : Operand} (h : operand.IsFrom script) (hscript : script.Legible) :
    operand.EndsPlainly := by
  cases operand with
  | procedure position label => exact hscript.colons label (List.mem_append_right _ h)
  | jump position label => exact hscript.colons label (List.mem_append_left _ h)
  | _ => trivial

/-! ## Grouping -/

/-- The lines of a text section by instructions: each instruction with the names declared since the one before it. `declared` holds
the names read so far that no instruction has followed yet. -/
def groupLines : (declared : List (List Char)) → List (List Char) → List (List (List Char) × List Char)
  | _, [] => []
  | declared, line :: rest =>
    if line = [] then groupLines declared rest
    else if line.getLast? = some ':' then groupLines (declared ++ [line.dropLast]) rest
    else (declared, line) :: groupLines [] rest

/-- An empty line tells nothing. -/
theorem groupLines_blank (declared rest : List (List Char)) : groupLines declared ([] :: rest) = groupLines declared rest := by
  simp [groupLines]

/-- Declarations are kept for the next instruction. -/
theorem groupLines_declarations (declared rest : List (List Char)) (names : List String) :
    groupLines declared (names.map (fun name => (declarationText name).toList) ++ rest)
      = groupLines (declared ++ names.map String.toList) rest := by
  induction names generalizing declared with
  | nil => simp
  | cons name names ih =>
    have htext : (declarationText name).toList = name.toList ++ [':'] := by
      simp [declarationText]
    rw [List.map_cons, List.cons_append, groupLines, htext, if_neg (by simp), if_pos (by simp), List.dropLast_concat, ih]
    simp

/-- An instruction takes the declarations that were kept. -/
theorem groupLines_instruction (declared rest : List (List Char)) (op : Opcode) {operand : Operand} (h : operand.EndsPlainly) :
    groupLines declared ((instructionText op operand).toList :: rest)
      = (declared, (instructionText op operand).toList) :: groupLines [] rest := by
  rw [groupLines, if_neg (instructionText_ne_nil op operand), if_neg (getLast?_instructionText_ne_colon op h)]

/-- What stands in a listing about a visit: the names declared before it, and its line. -/
def Script.groupOf (script : Script) (visit : Visit) : List (List Char) × List Char :=
  ((script.namesAt visit.index).map String.toList, (instructionText visit.opcode visit.operand).toList)

/-- Grouping the lines of visits gives the visits back, each with the names declared before it. A blank line after an instruction changes
nothing for the lines that follow. -/
theorem groupLines_visits (script : Script) (visits : List Visit) (h : ∀ visit ∈ visits, visit.operand.EndsPlainly) :
    groupLines [] ((visits.flatMap (Visit.lines script)).map (·.text.toList)) = visits.map script.groupOf := by
  induction visits with
  | nil => rfl
  | cons visit visits ih =>
    have hrest := ih fun other hother => h other (List.mem_cons_of_mem _ hother)
    have hlines : (visit.lines script).map (·.text.toList)
        = (script.namesAt visit.index).map (fun name => (declarationText name).toList)
          ++ (instructionText visit.opcode visit.operand).toList :: if visit.separated then [[]] else [] := by
      unfold Visit.lines
      rw [List.map_append, List.map_map]
      cases visit.separated <;> rfl
    rw [List.flatMap_cons, List.map_append, hlines, List.append_assoc, groupLines_declarations, List.cons_append,
      groupLines_instruction _ _ _ (h visit List.mem_cons_self)]
    cases visit.separated with
    | false => exact congrArg (_ :: ·) hrest
    | true => exact congrArg (_ :: ·) ((groupLines_blank [] _).trans hrest)

/-! ## What two listings that agree tell -/

/-- What a listing shows of a visit. -/
structure Visit.Shown where
  /-- The names declared before it. -/
  declared : List String
  opcode : Opcode
  operand : Operand.Shown
  deriving DecidableEq, Repr

/-- What a listing shows of a visit. -/
def Script.shown (script : Script) (visit : Visit) : Visit.Shown :=
  ⟨script.namesAt visit.index, visit.opcode, visit.operand.shown⟩

/-- When no name and no string holds a line end, neither does a line after the opening but its own. -/
theorem Script.Unbroken.mem_bodyLines {script : Script} (h : script.Unbroken) {line : Line} (hline : line ∈ script.bodyLines) :
    line.isEnded = true ∧ '\n' ∉ line.text.toList := by
  rcases List.mem_append.mp hline with hline | hline
  · obtain ⟨visit, hvisit, hline⟩ := List.mem_flatMap.mp hline
    rcases visit.mem_lines hline with ⟨name, hname, rfl⟩ | rfl | ⟨-, rfl⟩
    · obtain ⟨label, hlabel, rfl⟩ := exists_label_of_mem_namesAt hname
      exact ⟨rfl, by simpa [Line.text, declarationText] using h.names label hlabel⟩
    · exact ⟨rfl, newline_not_mem_instructionText _ ((isFrom_visit hvisit).2.unbroken h)⟩
    · exact ⟨rfl, by simp [Line.text]⟩
  · simp only [List.mem_cons, List.not_mem_nil, or_false] at hline
    rcases hline with rfl | rfl
    · exact ⟨rfl, by simp [Line.text]⟩
    · exact ⟨rfl, by decide⟩

/-- The lines of a legible script split where they end. -/
theorem Script.splitOn_body {script : Script} (h : script.Legible) :
    (renderLines (script.bodyLines ++ [.dump script.message])).toList.splitOn '\n'
      = script.bodyLines.map (·.text.toList) ++ [(Text.hexDump script.message).toList] :=
  splitOn_renderLines _ fun _ hline => h.toUnbroken.mem_bodyLines hline

/-- Lists that agree on what determines something agree on it. -/
theorem map_eq_map_of_determined {α β γ : Type} {f f' : α → β} {g g' : α → γ} {xs ys : List α}
    (h : xs.map f = ys.map f') (hd : ∀ x ∈ xs, ∀ y ∈ ys, f x = f' y → g x = g' y) : xs.map g = ys.map g' := by
  induction xs generalizing ys with
  | nil =>
    cases ys with
    | nil => rfl
    | cons y ys => simp at h
  | cons x xs ih =>
    cases ys with
    | nil => simp at h
    | cons y ys =>
      obtain ⟨hhead, htail⟩ := List.cons.inj h
      rw [List.map_cons, List.map_cons, hd x List.mem_cons_self y List.mem_cons_self hhead,
        ih htail fun a ha b hb => hd a (List.mem_cons_of_mem _ ha) b (List.mem_cons_of_mem _ hb)]

/-- The line of a visit and the names before it tell all that the listing shows of it. -/
theorem Script.shown_eq_of_groupOf_eq {m m' : Script} {visit visit' : Visit}
    (hv : visit ∈ m.walk.visits) (hv' : visit' ∈ m'.walk.visits) (heq : m.groupOf visit = m'.groupOf visit') :
    m.shown visit = m'.shown visit' := by
  obtain ⟨hnames, htext⟩ := Prod.mk.inj heq
  obtain ⟨hop, hoperand⟩ := instructionText_injective (isFrom_visit hv).1 (isFrom_visit hv').1 htext
  have hdeclared : m.namesAt visit.index = m'.namesAt visit'.index :=
    (List.map_injective_iff.mpr fun _ _ => String.toList_inj.mp) hnames
  rw [shown, shown, hdeclared, hop, hoperand]

/-- Two runs that completed and wrote the same text, on scripts whose names and strings stay on one line and whose names do not end
in a colon, visited the same instructions: as many, with the same opcodes in the same order, the same names declared before each, and
the same operands as far as a listing shows them. The message data are the same. -/
theorem Script.shown_eq_of_listing_eq {m m' : Script} (h : m.Legible) (h' : m'.Legible) {header : String} {sink : Sink}
    {result result' : Result} (hrun : (m.writeTo header sink).outcome = .ok result) (hok : result.abort = none)
    (hrun' : (m'.writeTo header sink).outcome = .ok result') (hok' : result'.abort = none)
    (htext : (m.writeTo header sink).sink.text = (m'.writeTo header sink).sink.text) :
    result.instructions = result'.instructions ∧
      m.walk.visits.map m.shown = m'.walk.visits.map m'.shown ∧ m.message = m'.message := by
  obtain ⟨hfault, hreport⟩ := walk_of_outcome hrun
  obtain ⟨hfault', hreport'⟩ := walk_of_outcome hrun'
  rw [hok] at hfault
  rw [hok'] at hfault'
  have hbody : renderLines (m.bodyLines ++ [.dump m.message]) = renderLines (m'.bodyLines ++ [.dump m'.message]) := by
    rw [writeTo_text hrun, writeTo_text hrun', text_of_complete header hfault, text_of_complete header hfault'] at htext
    exact (String.append_right_inj _).mp ((String.append_right_inj _).mp htext)
  have hsplit := congrArg (fun text => text.toList.splitOn '\n') hbody
  simp only [splitOn_body h, splitOn_body h'] at hsplit
  obtain ⟨hlines, hdump⟩ := List.append_inj' hsplit rfl
  have hgroups : m.walk.visits.map m.groupOf = m'.walk.visits.map m'.groupOf := by
    rw [bodyLines, bodyLines, List.map_append, List.map_append] at hlines
    have hvisits := congrArg (groupLines []) (List.append_cancel_right hlines)
    rwa [groupLines_visits m _ fun visit hv => (isFrom_visit hv).2.endsPlainly h,
      groupLines_visits m' _ fun visit hv => (isFrom_visit hv).2.endsPlainly h'] at hvisits
  have hshown : m.walk.visits.map m.shown = m'.walk.visits.map m'.shown :=
    map_eq_map_of_determined hgroups fun visit hv visit' hv' => shown_eq_of_groupOf_eq hv hv'
  refine ⟨?_, hshown, Text.hexDump_injective (String.toList_inj.mp (List.singleton_inj.mp hdump))⟩
  have hlength := congrArg List.length hshown
  rw [List.length_map, List.length_map] at hlength
  rw [hreport, hreport']
  exact hlength

/-- Scripts that differ in what no listing shows: a payload that is not read, and a string and a label that nothing refers to. -/
theorem Script.shown_eq_of_listing_eq_pushstr :
    let m : Script := { text := [⟨34, 2, 0⟩, ⟨9, 0, 0⟩], procedures := [⟨"main", 0⟩], strings := [(2, "a\":")], message := [171] }
    let m' : Script :=
      { text := [⟨34, 4, 7⟩, ⟨9, 0, 0⟩], jumps := [⟨"main", 0⟩, ⟨"far", 9⟩], strings := [(0, "b"), (4, "a\":")], message := [171] }
    m.walk.visits.map m.shown = m'.walk.visits.map m'.shown ∧
      m.walk.visits.map m.shown = [⟨["main"], .pushstr, .string "a\":"⟩, ⟨[], .end, .nothing⟩] := by
  intro m m'
  have h : m.Legible := ⟨⟨by simp [m], by simp [m]⟩, by simp [m]⟩
  have h' : m'.Legible := ⟨⟨by simp [m'], by simp [m']⟩, by simp [m']⟩
  have hrun : (m.writeTo "" { medium := .memory }).outcome = .ok ⟨2, 2, [], none⟩ := rfl
  have hrun' : (m'.writeTo "" { medium := .memory }).outcome = .ok ⟨2, 2, [], none⟩ := rfl
  have htext : (m.writeTo "" { medium := .memory }).sink.text = (m'.writeTo "" { medium := .memory }).sink.text := by
    rw [writeTo_text hrun, writeTo_text hrun']
    rfl
  exact ⟨(shown_eq_of_listing_eq h h' hrun rfl hrun' rfl htext).2.1, by decide⟩

end FlowListing
