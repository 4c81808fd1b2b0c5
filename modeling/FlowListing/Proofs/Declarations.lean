import Mathlib
import FlowListing.Proofs.Delivery
import FlowListing.Proofs.Labels
import FlowListing.Proofs.Walk

/-!
# Where labels are declared

A run declares the labels that point to an instruction right before the line of the instruction, and those that point to the
instruction that stopped it at the very end (`Script.lines_eq`). The positions of a walk grow, so no two of them have a label in
common: over a whole run each label that points to one of them is declared once, and no other label is (`Script.labels_declared`).
-/

namespace FlowListing

/-! ## The lines of a run -/

/-- The lines that a visit writes. -/
def Visit.lines (script : Script) (visit : Visit) : List Line :=
  (script.namesAt visit.index).map Line.declaration
    ++ .instruction visit.opcode visit.operand :: if visit.separated then [.blank] else []

/-- The lines after the last visit: the message data, or the declarations of the labels that point to the slot where the walk was
stopped. -/
def Script.lastLines (script : Script) (stopped : Bool) (reached : Nat) : List Line :=
  if stopped then (script.namesAt reached).map Line.declaration else [.blank, .messageMark, .dump script.message]

/-- The lines of a visit are declarations, the line of the instruction, and at most one blank line. -/
theorem Visit.mem_lines {script : Script} {visit : Visit} {line : Line} (h : line ∈ visit.lines script) :
    (∃ name ∈ script.namesAt visit.index, line = .declaration name) ∨ line = .instruction visit.opcode visit.operand ∨
      (visit.separated = true ∧ line = .blank) := by
  rcases List.mem_append.mp h with h | h
  · obtain ⟨name, hname, rfl⟩ := List.mem_map.mp h
    exact .inl ⟨name, hname, rfl⟩
  · rcases List.mem_cons.mp h with rfl | h
    · exact .inr (.inl rfl)
    · cases hs : visit.separated with
      | false => simp [hs] at h
      | true =>
        rw [hs, if_pos rfl, List.mem_singleton] at h
        exact .inr (.inr ⟨rfl, h⟩)

/-- The lines that declare the labels at a slot are those of their names. -/
theorem Script.filterMap_declarations (script : Script) (p : Nat) :
    (declarations script.labelIndex p).filterMap Action.line? = (script.namesAt p).map Line.declaration := by
  rw [← script.map_name_labelsAt, declarations, List.filterMap_map, List.map_map]
  exact congrFun List.filterMap_eq_map _

/-- The lines of the actions of a visit are its lines. -/
theorem Visit.filterMap_actions (script : Script) (visit : Visit) :
    (visit.actions script.labelIndex).filterMap Action.line? = visit.lines script := by
  have hwarn : ∀ warning : Option String, (warning.toList.map Action.warn).filterMap Action.line? = [] := by
    intro warning
    cases warning <;> rfl
  unfold Visit.actions Visit.lines
  rw [List.filterMap_append, List.filterMap_append, script.filterMap_declarations, hwarn, List.append_nil]
  cases visit.separated <;> rfl

/-- The lines of a run: the opening, those of each visit, and the last ones. -/
theorem Script.lines_eq (script : Script) (header : String) :
    script.lines header = [.comment header, .blank, .textMark] ++ script.walk.visits.flatMap (Visit.lines script) ++
      script.lastLines script.walk.fault.isSome script.walk.reached := by
  have hvisits : (script.walk.visits.flatMap (Visit.actions script.labelIndex)).filterMap Action.line? =
      script.walk.visits.flatMap (Visit.lines script) := by
    rw [List.filterMap_flatMap]
    exact congrArg (List.flatMap · script.walk.visits) (funext fun visit => visit.filterMap_actions script)
  have hclosing : (closing script script.labelIndex script.walk).filterMap Action.line? =
      script.lastLines script.walk.fault.isSome script.walk.reached := by
    unfold closing lastLines
    cases script.walk.fault with
    | none => rfl
    | some fault => exact script.filterMap_declarations script.walk.reached
  unfold Script.lines Script.actions
  rw [List.filterMap_append, List.filterMap_append, hvisits, hclosing]
  rfl

/-! ## The labels of a run -/

/-- Where a run came to an instruction: the positions of those that it listed, and the position of the one that stopped it. -/
def Script.stops (script : Script) (result : Result) : List Nat :=
  (List.range (result.instructions + if result.abort.isSome then 1 else 0)).map script.position

/-- The labels that point to where a run came to an instruction. -/
def Script.declared (script : Script) (result : Result) : List Label :=
  (script.stops result).flatMap script.labelsAt

/-- The lines of a run that has a result: the opening, those of each instruction that was listed, and the last ones. -/
def Script.linesOf (script : Script) (header : String) (result : Result) : List Line :=
  [.comment header, .blank, .textMark] ++ script.walk.visits.flatMap (Visit.lines script) ++
    script.lastLines result.abort.isSome result.slots

/-- The name that a line declares. -/
def Line.declared? : Line → Option String
  | .declaration name => some name
  | _ => none

/-- Declarations declare their names. -/
theorem filterMap_declaration (names : List String) : (names.map Line.declaration).filterMap Line.declared? = names := by
  rw [List.filterMap_map]
  exact List.filterMap_some

/-- A visit declares the labels that point to it. -/
theorem Visit.filterMap_lines (script : Script) (visit : Visit) :
    (visit.lines script).filterMap Line.declared? = script.namesAt visit.index := by
  have hline : ∀ separated : Bool, (Line.instruction visit.opcode visit.operand ::
      if separated then [Line.blank] else []).filterMap Line.declared? = [] := by
    intro separated
    cases separated <;> rfl
  rw [lines, List.filterMap_append, filterMap_declaration, hline, List.append_nil]

/-- The last lines declare labels only where the run was stopped. -/
theorem Script.filterMap_lastLines (script : Script) (stopped : Bool) (reached : Nat) :
    (script.lastLines stopped reached).filterMap Line.declared? = if stopped then script.namesAt reached else [] := by
  cases stopped with
  | false => rfl
  | true => exact filterMap_declaration (script.namesAt reached)

/-- Going through different slots meets each label that points to one of them once: those that point to the first slot, and then the
others. -/
theorem Script.perm_flatMap_labelsAt (script : Script) {stops : List Nat} (h : stops.Nodup) :
    (stops.flatMap script.labelsAt).Perm
      ((script.jumps ++ script.procedures).filter fun label => ∃ p ∈ stops, label.offset = (p : Int)) := by
  induction stops with
  | nil => simp
  | cons p rest ih =>
    obtain ⟨hp, hrest⟩ := List.nodup_cons.mp h
    have hsplit := List.filter_append_perm (fun label => label.offset = (p : Int))
      ((script.jumps ++ script.procedures).filter fun label => ∃ q ∈ p :: rest, label.offset = (q : Int))
    rw [List.filter_filter, List.filter_filter] at hsplit
    have hhere : (script.jumps ++ script.procedures).filter (fun label =>
        decide (label.offset = (p : Int)) && decide (∃ q ∈ p :: rest, label.offset = (q : Int))) = script.labelsAt p := by
      apply List.filter_congr
      intro label _
      by_cases hlabel : label.offset = (p : Int) <;> simp [hlabel]
    have hlater : (script.jumps ++ script.procedures).filter (fun label =>
        !decide (label.offset = (p : Int)) && decide (∃ q ∈ p :: rest, label.offset = (q : Int))) =
          (script.jumps ++ script.procedures).filter fun label => ∃ q ∈ rest, label.offset = (q : Int) := by
      apply List.filter_congr
      intro label _
      by_cases hlabel : label.offset = (p : Int)
      · have hnone : ¬∃ q ∈ rest, (p : Int) = (q : Int) := by
          rintro ⟨q, hq, heq⟩
          exact hp (Int.ofNat_inj.mp heq ▸ hq)
        simp only [hlabel, hnone, decide_true, decide_false, Bool.not_true, Bool.false_and]
      · simp [hlabel]
    rw [hhere, hlater] at hsplit
    rw [List.flatMap_cons]
    exact ((ih hrest).append_left _).trans hsplit

/-- A run comes to no instruction twice. -/
theorem Script.nodup_stops (script : Script) (result : Result) : (script.stops result).Nodup := by
  refine List.nodup_range.map fun i j hij => ?_
  rcases Nat.lt_trichotomy i j with hlt | heq | hgt
  · exact absurd hij (Nat.ne_of_lt (script.position_strictMono hlt))
  · exact heq
  · exact absurd hij (Nat.ne_of_gt (script.position_strictMono hgt))

/-- A run comes to no instruction at this offset: it lies outside the text section, or in the payload of an instruction that was
listed, or behind the slot where the run was stopped. -/
def Script.PassedOver (script : Script) (result : Result) (offset : Int) : Prop :=
  offset < 0 ∨ (script.text.length : Int) ≤ offset ∨
    (∃ j < result.instructions, script.takesNextAt (script.position j) = true ∧ offset = script.position j + 1) ∨
    (result.abort.isSome = true ∧ (result.slots : Int) < offset)

/-- Behind an instruction whose operand fills the next slot comes the slot after that. -/
theorem Script.position_succ_of_takesNext {script : Script} {j : Nat} (h : script.takesNextAt (script.position j) = true) :
    script.position (j + 1) = script.position j + 2 := by
  unfold takesNextAt at h
  cases here : script.text[script.position j]? with
  | none =>
    rw [here] at h
    cases h
  | some slot =>
    rw [here] at h
    have htakes : slot.takesNext = true := h
    rw [script.position_succ j here, Slot.stride, if_pos htakes]

/-- What a result says about where the run came to. -/
theorem Script.reached_of_outcome {script : Script} {header : String} {sink : Sink} {result : Result}
    (h : (script.writeTo header sink).outcome = .ok result) :
    script.walk.visits.map Visit.index = (List.range result.instructions).map script.position ∧
      result.slots = script.position result.instructions ∧
      ∀ abort, result.abort = some abort → script.FailsAt result.slots abort.fault ∧ abort.index = some (result.slots : Int) := by
  obtain ⟨hfault, hreport⟩ := walk_of_outcome h
  have hinstructions : result.instructions = script.walk.visits.length := congrArg Result.instructions hreport
  have hslots : result.slots = script.walk.reached := congrArg Result.slots hreport
  obtain ⟨hindices, hreached⟩ := script.walk_position
  rw [hinstructions, hslots]
  refine ⟨hindices, hreached, fun abort habort => ?_⟩
  rw [habort] at hfault
  exact failsAt_of_fatal (p := 0) hfault

/-- A run never comes to an instruction at an offset that it passes over. -/
theorem Script.not_mem_stops {script : Script} {header : String} {sink : Sink} {result : Result}
    (h : (script.writeTo header sink).outcome = .ok result) {offset : Int} (hover : script.PassedOver result offset) :
    ∀ p ∈ script.stops result, offset ≠ (p : Int) := by
  obtain ⟨hindices, hslots, habort⟩ := reached_of_outcome h
  intro p hp
  obtain ⟨j, hj, rfl⟩ := List.mem_map.mp hp
  rw [List.mem_range] at hj
  have hlast : script.position j ≤ result.slots := by
    rw [hslots]
    apply script.position_mono
    split at hj <;> omega
  have hinside : script.position j < script.text.length := by
    rcases Nat.lt_or_ge j result.instructions with hlisted | hstopped
    · have hmem : script.position j ∈ script.walk.visits.map Visit.index := by
        rw [hindices]
        exact List.mem_map_of_mem (List.mem_range.mpr hlisted)
      obtain ⟨visit, hvisit, hindex⟩ := List.mem_map.mp hmem
      obtain ⟨slot, here, -⟩ := visit_of_mem (p := 0) hvisit
      rw [← hindex]
      exact (List.getElem?_eq_some_iff.mp here).1
    · -- only the instruction that stopped the run comes after those that were listed
      obtain ⟨abort, hsome⟩ : ∃ abort, result.abort = some abort := by
        rw [← Option.isSome_iff_exists]
        by_contra hnone
        rw [if_neg hnone] at hj
        omega
      exact Nat.lt_of_le_of_lt hlast (habort abort hsome).1.lt_length
  rcases hover with hneg | hpast | ⟨i, hi, htakes, hoffset⟩ | ⟨-, hbehind⟩
  · omega
  · omega
  · have htwo := position_succ_of_takesNext htakes
    rcases Nat.lt_or_ge i j with hlt | hge
    · have hle := script.position_mono (show i + 1 ≤ j from hlt)
      omega
    · have hle := script.position_mono hge
      omega
  · omega

/-- A run that has a result writes the declarations of the labels that point to an instruction right before the line of the
instruction, after the blank line that ends a procedure: jump labels before procedure labels, each in their order. When the run was
stopped, the declarations of the labels that point to the slot that stopped it come last.

So each label that points to an instruction that the run came to is declared once, and a label is never declared that points before
the first slot, behind the last one, to the payload of an instruction, or behind the slot that stopped the run. -/
theorem Script.labels_declared (script : Script) (header : String) (sink : Sink) (result : Result)
    (h : (script.writeTo header sink).outcome = .ok result) :
    (script.writeTo header sink).sink.text = sink.text ++ renderLines (script.linesOf header result) ∧
      script.walk.visits.map Visit.index = (List.range result.instructions).map script.position ∧
      (∀ visit ∈ script.walk.visits, ∃ slot, script.text[visit.index]? = some slot ∧ slot.opcode = visit.opcode.code) ∧
      (∀ abort, result.abort = some abort →
        abort.index = some (result.slots : Int) ∧ result.slots = script.position result.instructions) ∧
      (script.linesOf header result).filterMap Line.declared? = (script.declared result).map (·.name) ∧
      (script.declared result).Perm
        ((script.jumps ++ script.procedures).filter fun label => ∃ p ∈ script.stops result, label.offset = (p : Int)) ∧
      ∀ label, script.PassedOver result label.offset → label ∉ script.declared result := by
  obtain ⟨hfault, hreport⟩ := walk_of_outcome h
  obtain ⟨hindices, hslots, habort⟩ := reached_of_outcome h
  have hreached : script.walk.reached = result.slots := (congrArg Result.slots hreport).symm
  have hstopped : script.walk.fault.isSome = result.abort.isSome := by
    rw [hfault, Option.isSome_map]
  have hdeclared : (script.declared result).map (·.name) =
      (script.walk.visits.map Visit.index).flatMap script.namesAt ++
        if result.abort.isSome then script.namesAt result.slots else [] := by
    have hnames : ∀ stops : List Nat, (stops.flatMap script.labelsAt).map (·.name) = stops.flatMap script.namesAt :=
      fun stops => List.map_flatMap
    rw [declared, hnames, stops, hindices, hslots]
    split
    · rw [List.range_succ, List.map_append, List.flatMap_append]
      simp
    · simp
  refine ⟨?_, hindices, ?_, fun abort hsome => ⟨(habort abort hsome).2, hslots⟩, ?_,
    script.perm_flatMap_labelsAt (script.nodup_stops result), ?_⟩
  · rw [writeTo_text h, script.lines_eq, hstopped, hreached, linesOf]
  · intro visit hvisit
    obtain ⟨slot, here, hslot⟩ := visit_of_mem (p := 0) hvisit
    exact ⟨slot, here, (visit_eq_ok hslot).1⟩
  · rw [linesOf, List.filterMap_append, List.filterMap_append, List.filterMap_flatMap, script.filterMap_lastLines, hdeclared,
      List.flatMap_map]
    simp only [Visit.filterMap_lines]
    rfl
  · intro label hover hmem
    obtain ⟨p, hp, hlabel⟩ := List.mem_flatMap.mp hmem
    exact not_mem_stops h hover p hp (of_decide_eq_true (List.mem_filter.mp hlabel).2)

/-- Labels of one name, two of them at the slot that stops the run, among labels before the text section, behind it and on a
payload. -/
theorem Script.labels_declared_jump :
    let m : Script :=
      { text := [⟨0, 0, 0⟩, ⟨999, 0, 5⟩, ⟨9, 0, 0⟩, ⟨10, 7, 0⟩], jumps := [⟨"a", 3⟩, ⟨"payload", 1⟩, ⟨"a", 0⟩]
        procedures := [⟨"main", 0⟩, ⟨"behind", 4⟩, ⟨"a", 3⟩, ⟨"before", -1⟩] }
    ∃ result, (m.writeTo "x" { medium := .memory }).outcome = .ok result ∧ result.slots = 3 ∧
      (m.writeTo "x" { medium := .memory }).sink.text = "; x\n\n.text\na:\nmain:\nPUSHI 5\nEND\n\na:\na:\n" ∧
      (m.declared result).Perm [⟨"a", 3⟩, ⟨"a", 0⟩, ⟨"main", 0⟩, ⟨"a", 3⟩] ∧ ⟨"payload", 1⟩ ∉ m.declared result := by
  intro m
  have hrun : (m.writeTo "x" { medium := .memory }).outcome = .ok ⟨2, 3, [], some ⟨.missingLabel "jump labels" 3 7, some 3⟩⟩ := rfl
  obtain ⟨htext, -, -, -, -, hperm, hover⟩ := labels_declared m "x" { medium := .memory } _ hrun
  refine ⟨_, hrun, rfl, htext.trans rfl, hperm, hover ⟨"payload", 1⟩ (.inr (.inr (.inl ⟨0, by decide, rfl, rfl⟩)))⟩

end FlowListing
