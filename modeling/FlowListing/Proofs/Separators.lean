import FlowListing.Proofs.Readback

/-!
# Blank lines

A blank line stands after the end of a procedure when an instruction follows that does not end one too (`Script.separatedAfter`). The
next instruction is looked at before its labels are declared and before it is known whether it can be listed. `Script.lines_eq_mapIdx`
gives all lines of a run this way, by the positions of its instructions.

So a blank line never comes before another one: what follows it is a declaration, an instruction or a mark (`Script.isChain_lines`).
-/

namespace FlowListing

/-! ## Where procedures are separated -/

/-- The instruction with a number ends a procedure, and there is a next one, which does not. -/
def Script.separatedAfter (script : Script) (j : Nat) : Bool :=
  script.text[script.position j]?.any Slot.endsProcedure && script.text[script.position (j + 1)]?.any (!·.endsProcedure)

/-- A slot ends a procedure when its opcode does. -/
theorem Slot.endsProcedure_of_code {slot : Slot} {op : Opcode} (h : slot.opcode = op.code) :
    slot.endsProcedure = op.endsProcedure := by
  cases op <;> simp [endsProcedure, h, Opcode.code, Opcode.endsProcedure, Opcode.ctorIdx]

/-- The end of a procedure has no payload. -/
theorem Slot.stride_of_endsProcedure {slot : Slot} (h : slot.endsProcedure = true) : slot.stride = 1 := by
  have hcode : slot.opcode = Opcode.end.code := of_decide_eq_true h
  rw [stride, Slot.takesNext_of_code hcode]
  rfl

/-- A visit looks for the separator behind its instruction, which for the end of a procedure is the next slot. -/
theorem Script.separated_of_visit {script : Script} {p : Nat} {slot : Slot} {visit : Visit}
    (h : script.visit p slot script.text[p + 1]? = .ok visit) :
    visit.separated = (slot.endsProcedure && script.text[p + slot.stride]?.any (!·.endsProcedure)) := by
  obtain ⟨hcode, -, hseparated, -⟩ := visit_eq_ok h
  rw [hseparated]
  cases hend : slot.endsProcedure with
  | false =>
    rw [Slot.endsProcedure_of_code hcode] at hend
    simp [separates, hend]
  | true =>
    rw [slot.stride_of_endsProcedure hend]
    rw [Slot.endsProcedure_of_code hcode] at hend
    cases script.text[p + 1]? with
    | none => simp [separates]
    | some next => simp [separates_some, hend]

/-- The visit with a number stands at the position with that number, and a blank line follows it where the script has a separator. -/
theorem Script.visit_of_getElem? {script : Script} {j : Nat} {visit : Visit} (h : script.walk.visits[j]? = some visit) :
    visit.index = script.position j ∧ script.text[script.position j]?.map Slot.opcode = some (visit.opcode.code : Int) ∧
      visit.separated = script.separatedAfter j := by
  have hindex : visit.index = script.position j := by
    have hj : j < script.walk.visits.length := (List.getElem?_eq_some_iff.mp h).1
    have hindices := congrArg (·[j]?) script.walk_position.1
    simp only [List.getElem?_map, h, List.getElem?_range hj, Option.map_some] at hindices
    exact Option.some.inj hindices
  obtain ⟨slot, here, hvisit⟩ := visit_of_mem (p := 0) (List.mem_of_getElem? h)
  have hseparated := separated_of_visit hvisit
  rw [hindex] at here hseparated
  refine ⟨hindex, ?_, ?_⟩
  · rw [here, Option.map_some, (visit_eq_ok hvisit).1]
  · rw [hseparated, separatedAfter, script.position_succ j here, here, Option.any_some]

/-- The lines of the visit with a number: the declarations of the labels that point to its position, the instruction, and a blank line
if the script has a separator there. -/
def Script.linesAt (script : Script) (j : Nat) (visit : Visit) : List Line :=
  (script.namesAt (script.position j)).map Line.declaration
    ++ .instruction visit.opcode visit.operand :: if script.separatedAfter j then [.blank] else []

/-- The lines of a run by the positions of its instructions. -/
theorem Script.lines_eq_mapIdx (script : Script) (header : String) :
    script.lines header = [.comment header, .blank, .textMark] ++ (script.walk.visits.mapIdx script.linesAt).flatten ++
      script.lastLines script.walk.fault.isSome (script.position script.walk.visits.length) := by
  have hvisits : script.walk.visits.map (Visit.lines script) = script.walk.visits.mapIdx script.linesAt := by
    apply List.ext_getElem?
    intro j
    rw [List.getElem?_map, List.getElem?_mapIdx]
    cases hvisit : script.walk.visits[j]? with
    | none => rfl
    | some visit =>
      obtain ⟨hindex, -, hseparated⟩ := visit_of_getElem? hvisit
      rw [Option.map_some, Option.map_some, Visit.lines, linesAt, hindex, hseparated]
  rw [script.lines_eq, script.walk_position.2, List.flatMap_def, hvisits]

/-! ## Blank lines stand alone -/

/-- Of two lines that follow each other the second is not empty if the first is. -/
def Line.Apart (line next : Line) : Prop :=
  line.text.toList = [] → next.text.toList ≠ []

/-- Lines that are not empty may come before any others. -/
theorem isChain_apart_append {front back : List Line} (hfront : ∀ line ∈ front, line.text.toList ≠ [])
    (hback : back.IsChain Line.Apart) : (front ++ back).IsChain Line.Apart := by
  induction front with
  | nil => exact hback
  | cons line front ih =>
    rw [List.forall_mem_cons] at hfront
    exact (ih hfront.2).cons fun next _ hempty => absurd hempty hfront.1

/-- The lines of a visit before its blank line are not empty. -/
theorem Visit.text_ne_nil {script : Script} {visit : Visit} {line : Line}
    (h : line ∈ (script.namesAt visit.index).map Line.declaration ++ [.instruction visit.opcode visit.operand]) :
    line.text.toList ≠ [] := by
  rcases List.mem_append.mp h with h | h
  · obtain ⟨name, -, rfl⟩ := List.mem_map.mp h
    simp [Line.text, declarationText]
  · rw [List.mem_singleton.mp h]
    exact instructionText_ne_nil visit.opcode visit.operand

/-- The lines of a walk and those after it. -/
def Script.linesOfWalk (script : Script) (walk : Walk) : List Line :=
  walk.visits.flatMap (Visit.lines script) ++ script.lastLines walk.fault.isSome walk.reached

/-- One more visit in front of a walk puts its lines in front. -/
theorem Script.linesOfWalk_after (script : Script) (walk : Walk) (visit : Visit) :
    script.linesOfWalk (walk.after visit) =
      ((script.namesAt visit.index).map Line.declaration ++ [.instruction visit.opcode visit.operand]) ++
        ((if visit.separated then [.blank] else []) ++ script.linesOfWalk walk) := by
  simp [linesOfWalk, Walk.after, Visit.lines]

/-- From a slot on, the lines of a walk that ends behind the last slot have no blank line before another one, and they do not start
with one unless the walk has ended already: a separator has an instruction behind it. -/
theorem Script.isChain_walkAt (script : Script) (p : Nat) : (script.walkAt p).fault = none →
    (script.linesOfWalk (script.walkAt p)).IsChain Line.Apart ∧
      (p < script.text.length → ∀ line ∈ (script.linesOfWalk (script.walkAt p)).head?, line.text.toList ≠ []) := by
  refine script.walkAt_visit_induction (motive := fun p walk => walk.fault = none → (script.linesOfWalk walk).IsChain Line.Apart ∧
    (p < script.text.length → ∀ line ∈ (script.linesOfWalk walk).head?, line.text.toList ≠ [])) ?_ ?_ ?_ p
  · intro p hend _
    refine ⟨?_, fun hlt => absurd hlt (Nat.not_lt.mpr hend)⟩
    simp [linesOfWalk, lastLines, Line.Apart, Line.text]
  · intro p slot fault _ _ hfault
    cases hfault
  · intro p slot visit here hvisit ih hfault
    obtain ⟨hchain, hhead⟩ := ih hfault
    rw [linesOfWalk_after]
    refine ⟨isChain_apart_append (fun line hline => Visit.text_ne_nil hline) ?_, fun _ line hline => ?_⟩
    · cases hseparated : visit.separated with
      | false => exact hchain
      | true =>
        have hlt : p + slot.stride < script.text.length := by
          rw [separated_of_visit hvisit, Bool.and_eq_true] at hseparated
          by_contra hge
          rw [List.getElem?_eq_none (Nat.not_lt.mp hge)] at hseparated
          cases hseparated.2
        exact hchain.cons fun next hnext _ => hhead hlt next hnext
    · rw [List.head?_append_of_ne_nil _ (by simp)] at hline
      exact Visit.text_ne_nil (List.mem_of_mem_head? hline)

/-- In a run that was not stopped no blank line comes before another one. -/
theorem Script.isChain_lines {script : Script} (header : String) (h : script.walk.fault = none) :
    (script.lines header).IsChain Line.Apart := by
  have hwalk : (script.linesOfWalk script.walk).IsChain Line.Apart := (script.isChain_walkAt 0 h).1
  have hmark : (.textMark :: script.linesOfWalk script.walk : List Line).IsChain Line.Apart :=
    hwalk.cons fun next _ hempty => absurd hempty (by simp [Line.text])
  rw [script.lines_eq, List.append_assoc]
  refine (hmark.cons fun next hnext _ => ?_).cons fun next _ hempty => absurd hempty (by simp [Line.text, commentText])
  cases hnext
  simp [Line.text]

/-! ## How many lines there are -/

/-- Visits write a line for each of them, one for each label that points to them, and one for each separator. -/
theorem length_lines_visits (script : Script) (visits : List Visit) :
    (visits.flatMap (Visit.lines script)).length =
      visits.length + ((visits.map Visit.index).flatMap script.labelsAt).length + visits.countP Visit.separated := by
  induction visits with
  | nil => rfl
  | cons visit visits ih =>
    have hnames : (script.namesAt visit.index).length = (script.labelsAt visit.index).length := List.length_map _
    have hlines : (visit.lines script).length =
        1 + (script.labelsAt visit.index).length + if visit.separated then 1 else 0 := by
      rw [Visit.lines, List.length_append, List.length_map, List.length_cons, hnames]
      cases visit.separated <;> simp <;> omega
    rw [List.flatMap_cons, List.length_append, ih, hlines, List.map_cons, List.flatMap_cons, List.length_append,
      List.countP_cons, List.length_cons]
    omega

/-- The separators of a walk, counted by its positions. -/
theorem Script.countP_separated (script : Script) :
    script.walk.visits.countP Visit.separated = (List.range script.walk.visits.length).countP script.separatedAfter := by
  have hmap : script.walk.visits.map Visit.separated = (List.range script.walk.visits.length).map script.separatedAfter := by
    apply List.ext_getElem?
    intro j
    rw [List.getElem?_map, List.getElem?_map]
    cases hvisit : script.walk.visits[j]? with
    | none => rw [List.getElem?_eq_none (by simpa using hvisit)]; rfl
    | some visit =>
      have hj : j < script.walk.visits.length := (List.getElem?_eq_some_iff.mp hvisit).1
      rw [List.getElem?_range hj, Option.map_some, Option.map_some, (visit_of_getElem? hvisit).2.2]
  have hcount := congrArg (List.countP id) hmap
  rwa [List.countP_map, List.countP_map] at hcount

/-- A run that was not stopped writes six lines besides those of its instructions, labels and separators. -/
theorem Script.length_lines {script : Script} {header : String} {sink : Sink} {result : Result}
    (hrun : (script.writeTo header sink).outcome = .ok result) (hok : result.abort = none) :
    (script.lines header).length = 6 + result.instructions + (script.declared result).length +
      (List.range result.instructions).countP script.separatedAfter := by
  obtain ⟨hfault, hreport⟩ := walk_of_outcome hrun
  have hinstructions : result.instructions = script.walk.visits.length := congrArg Result.instructions hreport
  have hdeclared : script.declared result = (script.walk.visits.map Visit.index).flatMap script.labelsAt := by
    rw [declared, stops, hok, (reached_of_outcome hrun).1]
    rfl
  rw [hok] at hfault
  rw [script.lines_eq, hfault, List.length_append, List.length_append, length_lines_visits, hdeclared, hinstructions,
    script.countP_separated]
  simp only [Option.map_none, Option.isSome_none, lastLines, Bool.false_eq_true, if_false, List.length_cons, List.length_nil]
  omega

/-- The text of a run that was not stopped splits into the texts of its lines, when none of these holds a line end. -/
theorem Script.splitOn_lines {script : Script} {header : String} (hheader : '\n' ∉ header.toList) (hscript : script.Unbroken)
    (h : script.walk.fault = none) :
    (renderLines (script.lines header)).toList.splitOn '\n' = (script.lines header).map (·.text.toList) := by
  have hlines : script.lines header = ([.comment header, .blank, .textMark] ++ script.bodyLines) ++ [.dump script.message] := by
    rw [script.lines_eq, h, bodyLines]
    simp [lastLines]
  rw [hlines, splitOn_renderLines script.message]
  · simp only [List.map_append, List.map_cons, List.map_nil, Line.text]
  · intro line hline
    rcases List.mem_append.mp hline with hline | hline
    · simp only [List.mem_cons, List.not_mem_nil, or_false] at hline
      rcases hline with rfl | rfl | rfl
      · exact ⟨rfl, by simpa [Line.text, commentText] using hheader⟩
      · exact ⟨rfl, by simp [Line.text]⟩
      · exact ⟨rfl, by decide⟩
    · exact hscript.mem_bodyLines hline

/-- A run writes a blank line right after the line of an instruction exactly when the instruction ends a procedure and there is a next
one that does not: before the declarations of the labels that point to the next one, and also when the run is stopped there. A run
that is not stopped writes one more before the mark of the message data. On a sink that refuses a write these lines are cut off there.

So in the listing of a run that completes, when header, names and strings stay on one line, no blank line comes after another one, and
there are six lines besides those of the instructions, the labels and the separators. -/
theorem Script.blank_lines_separate (script : Script) (header : String) (sink : Sink) :
    (∀ j visit, script.walk.visits[j]? = some visit → visit.index = script.position j ∧
      script.text[script.position j]?.map Slot.opcode = some (visit.opcode.code : Int)) ∧
    script.lines header = [.comment header, .blank, .textMark] ++ (script.walk.visits.mapIdx script.linesAt).flatten ++
      script.lastLines script.walk.fault.isSome (script.position script.walk.visits.length) ∧
    (∃ written, written <+: script.lines header ∧
      (script.writeTo header sink).sink.text = sink.text ++ renderLines written ∧
      ((∀ fault, (script.writeTo header sink).outcome ≠ .error (.sink fault)) → written = script.lines header)) ∧
    ∀ result, (script.writeTo header sink).outcome = .ok result → result.abort = none →
      '\n' ∉ header.toList → script.Unbroken →
      ∃ listing : String, (script.writeTo header sink).sink.text = sink.text ++ listing ∧
        ¬[[], []] <:+: listing.toList.splitOn '\n' ∧
        (listing.toList.splitOn '\n').length = 6 + result.instructions + (script.declared result).length +
          (List.range result.instructions).countP script.separatedAfter := by
  refine ⟨?_, script.lines_eq_mapIdx header, script.writeTo_written header sink, ?_⟩
  · intro j visit hvisit
    obtain ⟨hindex, hopcode, -⟩ := visit_of_getElem? hvisit
    exact ⟨hindex, hopcode⟩
  · intro result hrun hok hheader hscript
    obtain ⟨hfault, -⟩ := walk_of_outcome hrun
    rw [hok] at hfault
    have hpieces := splitOn_lines hheader hscript hfault
    refine ⟨renderLines (script.lines header), writeTo_text hrun, fun hblank => ?_, ?_⟩
    · have hchain : ((script.lines header).map (·.text.toList)).IsChain (fun piece next => piece = [] → next ≠ []) :=
        (List.isChain_map _).mpr (isChain_lines header hfault)
      rw [hpieces] at hblank
      have hpair := List.IsChain.infix hchain hblank
      exact (List.isChain_cons_cons.mp hpair).1 rfl rfl
    · rw [hpieces, List.length_map, length_lines hrun hok]

/-- Labels stand behind the blank line, an end in a payload separates nothing, two ends stay together, and the blank line before the
message data is the only one behind the last end. The same script stopped behind an end keeps the blank line. -/
theorem Script.blank_lines_separate_runs :
    let m : Script :=
      { text := [⟨0, 0, 0⟩, ⟨9, 0, 9⟩, ⟨9, 0, 0⟩, ⟨9, 0, 0⟩, ⟨14, 0, 0⟩, ⟨9, 0, 0⟩], jumps := [⟨"a", 4⟩, ⟨"payload", 1⟩] }
    let stopped : Script := { m with text := [⟨9, 0, 0⟩, ⟨99, 0, 0⟩], jumps := [⟨"a", 1⟩] }
    let sink : Sink := { medium := .memory }
    (∃ listing : String, (m.writeTo "x" sink).sink.text = "" ++ listing ∧ ¬[[], []] <:+: listing.toList.splitOn '\n' ∧
      (listing.toList.splitOn '\n').length = 6 + 5 + 1 + 1) ∧
      (m.writeTo "x" sink).sink.text = "; x\n\n.text\nPUSHI 9\nEND\nEND\n\na:\nADD\nEND\n\n.msgdata raw\n" ∧
      stopped.lines "x" =
        [.comment "x", .blank, .textMark, .instruction .end (.none 0), .blank, .declaration "a"] := by
  intro m stopped sink
  have hrun : (m.writeTo "x" sink).outcome = .ok ⟨5, 6, [], none⟩ := rfl
  have hscript : m.Unbroken := by
    refine ⟨?_, ?_⟩ <;> simp [m]
  obtain ⟨-, -, -, hcomplete⟩ := blank_lines_separate m "x" sink
  obtain ⟨-, hlines, -, -⟩ := blank_lines_separate stopped "x" sink
  have hlabels : (m.declared ⟨5, 6, [], none⟩).length = 1 := by decide
  have hseparators : (List.range 5).countP m.separatedAfter = 1 := by decide
  obtain ⟨listing, htext, hapart, hlength⟩ := hcomplete _ hrun rfl (by decide) hscript
  rw [hlabels, hseparators] at hlength
  refine ⟨⟨listing, htext, hapart, hlength⟩, ?_, ?_⟩
  · rw [writeTo_text hrun]
    rfl
  · rw [hlines]
    decide

end FlowListing
