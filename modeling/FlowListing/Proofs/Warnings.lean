import FlowListing.Proofs.Lifecycle
import FlowListing.Proofs.Readback

/-!
# Warnings

A warning is given for an instruction that takes no operand when its short is not zero (`Script.strayAt?`), once for each one that a
run lists (`Script.warnings_eq`). Nothing else depends on such a short, nor on the short of an instruction whose operand fills the next
slot. `Script.clearShorts` sets shorts of these two kinds to zero: visit by visit the walk stays the same but for the shorts that no
line shows (`Script.walk_clearShorts`), so the lines are written alike.
-/

namespace FlowListing

/-! ## Which warnings are given -/

/-- The warning about the slot at an index: it holds an instruction that takes no operand, and its short is not zero. -/
def Script.strayAt? (script : Script) (p : Nat) : Option String :=
  script.text[p]?.bind fun slot => (Opcode.ofCode? slot.opcode).bind fun op =>
    if op.operandClass = .none ∧ slot.short ≠ 0 then
      some s!"instruction {p}: {op.mnemonic} should not have any operands (found {slot.short})"
    else none

/-- An operand that is listed gives no warning. -/
theorem strayWarning_of_class {index : Option Int} {op : Opcode} {operand : Operand} (h : operand.operandClass ≠ .none) :
    strayWarning index op operand = none := by
  cases operand with
  | none stray => exact absurd rfl h
  | _ => rfl

/-- A visit leads to the warning about its slot. -/
theorem Script.strayWarning_of_mem {script : Script} {visit : Visit} (h : visit ∈ script.walk.visits) :
    strayWarning (some visit.index) visit.opcode visit.operand = script.strayAt? visit.index := by
  obtain ⟨slot, here, hvisit⟩ := visit_of_mem (p := 0) h
  obtain ⟨hcode, -, -, hoperand⟩ := visit_eq_ok hvisit
  rw [strayAt?, here, Option.bind_some, hcode, Opcode.ofCode?_code, Option.bind_some]
  by_cases hclass : visit.opcode.operandClass = .none
  · rw [hclass] at hoperand ⊢
    rw [← Except.ok.inj hoperand, strayWarning]
    by_cases hzero : slot.short = 0
    · rw [if_pos hzero, if_neg fun hboth => hboth.2 hzero]
    · rw [if_neg hzero, if_pos ⟨rfl, hzero⟩]
      rfl
  · rw [if_neg fun hboth => hclass hboth.1]
    exact strayWarning_of_class ((isFrom_operand hoperand).1 ▸ hclass)

/-- A visit warns of its own short, if at all. -/
theorem Visit.filterMap_warning (labels : LabelIndex) (visit : Visit) :
    (visit.actions labels).filterMap Action.warning? = (strayWarning (some visit.index) visit.opcode visit.operand).toList := by
  have hdeclarations : (declarations labels visit.index).filterMap Action.warning? = [] := by
    simp [declarations, List.filterMap_map, Action.warning?, Function.comp_def]
  have hline : ∀ separated : Bool, (Action.write (.instruction visit.opcode visit.operand) ::
      if separated then [Action.write .blank] else []).filterMap Action.warning? = [] := by
    intro separated
    cases separated <;> rfl
  rw [Visit.actions, List.filterMap_append, List.filterMap_append, hdeclarations, hline, List.append_nil, List.nil_append]
  cases strayWarning (some (visit.index : Int)) visit.opcode visit.operand <;> rfl

/-- The warnings of a run are those about the slots that it visits, in order. -/
theorem Script.warnings_eq (script : Script) (header : String) :
    script.warnings header = (script.walk.visits.map Visit.index).filterMap script.strayAt? := by
  have hclosing : (closing script script.labelIndex script.walk).filterMap Action.warning? = [] := by
    unfold closing
    cases script.walk.fault with
    | none => rfl
    | some fault => simp [declarations, List.filterMap_map, Action.warning?, Function.comp_def]
  have hvisits : (script.walk.visits.flatMap (Visit.actions script.labelIndex)).filterMap Action.warning? =
      (script.walk.visits.map Visit.index).filterMap script.strayAt? := by
    rw [List.filterMap_flatMap, List.filterMap_map, List.filterMap_eq_flatMap_toList]
    refine List.flatMap_congr fun visit hvisit => ?_
    rw [Visit.filterMap_warning, strayWarning_of_mem hvisit]
    rfl
  unfold warnings actions
  rw [List.filterMap_append, List.filterMap_append, hclosing, hvisits, List.append_nil]
  rfl

/-- A sink that takes all the writes leaves a record of each warning. -/
theorem Sink.perform_logs {sink : Sink} {actions : List Action} (h : (sink.perform actions).fault = none) :
    (sink.perform actions).logs = (actions.filterMap Action.warning?).map warningRecord := by
  induction actions generalizing sink with
  | nil => rfl
  | cons action rest ih =>
    cases action with
    | warn message => exact congrArg (warningRecord message :: ·) (ih h)
    | write line =>
      rw [perform] at h ⊢
      cases hwrite : sink.write line.render with
      | error fault =>
        rw [hwrite] at h
        cases h
      | ok after =>
        rw [hwrite] at h
        exact ih h

/-- Among the records of a run that has a result, those of warnings are the ones of its warnings. -/
theorem Script.filter_logs {script : Script} {header : String} {sink : Sink} {result : Result}
    (h : (script.writeTo header sink).outcome = .ok result) :
    (script.writeTo header sink).logs.filter (·.level = .warning) = (script.warnings header).map warningRecord := by
  obtain ⟨hclose, hfault, -⟩ := nothing_wrong_of_outcome h
  have hwarnings : ∀ messages : List String, (messages.map warningRecord).filter (·.level = .warning) = messages.map warningRecord := by
    intro messages
    rw [List.filter_eq_self]
    intro record hrecord
    obtain ⟨message, -, rfl⟩ := List.mem_map.mp hrecord
    rfl
  have hlogs : ∃ rest, (script.writeTo header sink).logs = (script.warnings header).map warningRecord ++ rest ∧
      rest.filter (·.level = .warning) = [] := by
    have hperform := Sink.perform_logs hfault
    unfold writeTo Delivery.records at h ⊢
    simp only [hclose, hfault, hperform, Option.or_none] at h ⊢
    rcases hstop : script.walk.fault with _ | (abort | fault) <;> simp only [hstop] at h ⊢
    · exact ⟨[_], rfl, rfl⟩
    · exact ⟨[_, _], List.append_assoc _ _ _, rfl⟩
    · cases h
  obtain ⟨rest, heq, hrest⟩ := hlogs
  rw [heq, List.filter_append, hwarnings, hrest, List.append_nil]

/-! ## Shorts that do not matter -/

/-- An operand of this class is not read from the short. -/
def OperandClass.ignoresShort (operandClass : OperandClass) : Bool :=
  operandClass = .none || operandClass.isExtended

/-- The slot holds an instruction whose operand is not read from the short. -/
def Slot.ignoresShort (slot : Slot) : Bool :=
  (Opcode.ofCode? slot.opcode).any fun op => op.operandClass.ignoresShort

/-- The slot with its short set to zero where it is chosen and the short is not read. -/
def Slot.clearWhen (chosen : Bool) (slot : Slot) : Slot :=
  if chosen && slot.ignoresShort then { slot with short := 0 } else slot

@[simp] theorem Slot.opcode_clearWhen (chosen : Bool) (slot : Slot) : (slot.clearWhen chosen).opcode = slot.opcode := by
  unfold clearWhen
  split <;> rfl

@[simp] theorem Slot.payload_clearWhen (chosen : Bool) (slot : Slot) : (slot.clearWhen chosen).payload = slot.payload := by
  unfold clearWhen
  split <;> rfl

/-- Clearing a short does not change whether a procedure ends. -/
theorem Slot.endsProcedure_clearWhen (chosen : Bool) (slot : Slot) :
    (slot.clearWhen chosen).endsProcedure = slot.endsProcedure := by
  simp [endsProcedure]

/-- Clearing a short does not change how many slots are taken. -/
theorem Slot.stride_clearWhen (chosen : Bool) (slot : Slot) : (slot.clearWhen chosen).stride = slot.stride := by
  simp [stride, takesNext]

/-- A short is cleared when it is chosen and not read. -/
theorem Slot.short_clearWhen {slot : Slot} {op : Opcode} (h : slot.opcode = op.code) (chosen : Bool) :
    (slot.clearWhen chosen).short = if chosen && op.operandClass.ignoresShort then 0 else slot.short := by
  rw [clearWhen, ignoresShort, h, Opcode.ofCode?_code, Option.any_some]
  split <;> rfl

/-- The script with the shorts that are not read set to zero in the chosen slots. -/
def Script.clearShorts (script : Script) (chosen : Nat → Bool) : Script :=
  { script with text := script.text.mapIdx fun p slot => slot.clearWhen (chosen p) }

/-- Each slot is cleared by itself. -/
theorem Script.getElem?_clearShorts (script : Script) (chosen : Nat → Bool) (p : Nat) :
    (script.clearShorts chosen).text[p]? = script.text[p]?.map (Slot.clearWhen (chosen p)) :=
  List.getElem?_mapIdx

/-- What does not depend on the short is the same in each slot. -/
theorem Script.map_getElem?_clearShorts {β : Type} (script : Script) (chosen : Nat → Bool) (p : Nat) {f : Slot → β}
    (h : ∀ chosen slot, f (Slot.clearWhen chosen slot) = f slot) :
    (script.clearShorts chosen).text[p]?.map f = script.text[p]?.map f := by
  rw [getElem?_clearShorts, Option.map_map]
  exact congrArg (Option.map · script.text[p]?) (funext (h (chosen p)))

/-- Clearing shorts leaves the tables as they are. -/
theorem Script.sameTables_clearShorts (script : Script) (chosen : Nat → Bool) :
    script.SameTables (script.clearShorts chosen) :=
  ⟨rfl, rfl, fun _ => rfl⟩

/-- The operand with its stray short set to zero where it is chosen. -/
def Operand.clearWhen (chosen : Bool) : Operand → Operand
  | .none stray => .none (if chosen then 0 else stray)
  | operand => operand

/-- An operand that is listed is left as it is. -/
theorem Operand.clearWhen_of_class {operand : Operand} (h : operand.operandClass ≠ .none) (chosen : Bool) :
    operand.clearWhen chosen = operand := by
  cases operand with
  | none stray => exact absurd rfl h
  | _ => rfl

/-- A stray short is not shown. -/
@[simp] theorem Operand.text_clearWhen (chosen : Bool) (operand : Operand) : (operand.clearWhen chosen).text = operand.text := by
  cases operand <;> rfl

/-- The visit with its stray short set to zero where it is chosen. -/
def Visit.clearWhen (chosen : Nat → Bool) (visit : Visit) : Visit :=
  { visit with operand := visit.operand.clearWhen (chosen visit.index) }

/-- In a chosen slot the operand is the same but for a stray short. -/
theorem Script.operand_clearShorts (script : Script) (chosen : Nat → Bool) (p : Nat) {slot : Slot} {op : Opcode}
    (code : slot.opcode = op.code) {next next' : Option Slot} (hnext : next.map Slot.payload = next'.map Slot.payload) :
    (script.clearShorts chosen).operand p (slot.clearWhen (chosen p)) next' op.operandClass =
      (script.operand p slot next op.operandClass).map (Operand.clearWhen (chosen p)) := by
  have hshort := slot.short_clearWhen code (chosen p)
  by_cases hnone : op.operandClass = .none
  · rw [hnone] at hshort ⊢
    simp [operand, hshort, OperandClass.ignoresShort, Except.map, Operand.clearWhen]
  · -- all other operands are the same, and so is a fault
    have hsame : (script.clearShorts chosen).operand p (slot.clearWhen (chosen p)) next' op.operandClass =
        script.operand p slot next op.operandClass := by
      refine (operand_congr (script.sameTables_clearShorts chosen) p (fun hplain => ?_) fun _ => hnext).symm
      rw [hshort, OperandClass.ignoresShort, hplain, decide_eq_false hnone, Bool.or_false, Bool.and_false]
      rfl
    rw [hsame]
    cases hoperand : script.operand p slot next op.operandClass with
    | error fault => rfl
    | ok operand =>
      rw [Except.map, Operand.clearWhen_of_class ((isFrom_operand hoperand).1 ▸ hnone)]

/-- A visit is the same but for a stray short. -/
theorem Script.visit_clearShorts (script : Script) (chosen : Nat → Bool) (p : Nat) (slot : Slot) :
    (script.clearShorts chosen).visit p (slot.clearWhen (chosen p)) (script.clearShorts chosen).text[p + 1]? =
      (script.visit p slot script.text[p + 1]?).map (Visit.clearWhen chosen) := by
  have hpayload := script.map_getElem?_clearShorts chosen (p + 1) Slot.payload_clearWhen
  have hends := script.map_getElem?_clearShorts chosen (p + 1) Slot.endsProcedure_clearWhen
  cases hrequire : Opcode.require slot.opcode (some p) with
  | error abort => simp only [visit, Slot.opcode_clearWhen, hrequire, Except.map]
  | ok op =>
    have code := Opcode.code_of_require hrequire
    rw [visit_of_code _ p _ code, visit_of_code _ p _ ((slot.opcode_clearWhen _).trans code),
      script.operand_clearShorts chosen p code hpayload.symm, separates_congr fun _ => hends]
    cases script.operand p slot script.text[p + 1]? op.operandClass <;> rfl

/-- The walk is the same but for stray shorts. -/
theorem Script.walkAt_clearShorts (script : Script) (chosen : Nat → Bool) (p : Nat) :
    (script.clearShorts chosen).walkAt p =
      { script.walkAt p with visits := (script.walkAt p).visits.map (Visit.clearWhen chosen) } := by
  have hslot : ∀ (p : Nat) (slot : Slot), script.text[p]? = some slot →
      (script.clearShorts chosen).text[p]? = some (slot.clearWhen (chosen p)) := by
    intro p slot here
    rw [getElem?_clearShorts, here, Option.map_some]
  refine script.walkAt_visit_induction (motive := fun p walk => (script.clearShorts chosen).walkAt p =
    { walk with visits := walk.visits.map (Visit.clearWhen chosen) }) ?_ ?_ ?_ p
  · intro p hend
    exact (script.clearShorts chosen).walkAt_end (by simpa [clearShorts] using hend)
  · intro p slot fault here hfault
    refine walkAt_of_error _ (hslot p slot here) ?_
    rw [visit_clearShorts, hfault]
    rfl
  · intro p slot visit here hvisit ih
    have hvisit' := script.visit_clearShorts chosen p slot
    rw [hvisit] at hvisit'
    rw [walkAt_of_visit _ (hslot p slot here) hvisit', Slot.stride_clearWhen, ih]
    rfl

/-- The walk over the cleared script visits the same, with cleared operands. -/
theorem Script.walk_clearShorts (script : Script) (chosen : Nat → Bool) :
    (script.clearShorts chosen).walk = { script.walk with visits := script.walk.visits.map (Visit.clearWhen chosen) } :=
  script.walkAt_clearShorts chosen 0

/-- The lines are written alike. -/
theorem Script.render_clearShorts (script : Script) (chosen : Nat → Bool) (header : String) :
    ((script.clearShorts chosen).lines header).map Line.render = (script.lines header).map Line.render := by
  have hvisit : ∀ visit : Visit, ((visit.clearWhen chosen).lines (script.clearShorts chosen)).map Line.render =
      (visit.lines script).map Line.render := by
    intro visit
    have hline : (Line.instruction visit.opcode (visit.operand.clearWhen (chosen visit.index))).render =
        (Line.instruction visit.opcode visit.operand).render := by
      simp only [Line.render, instructionText, Operand.text_clearWhen]
    unfold Visit.lines
    rw [List.map_append, List.map_append, List.map_cons, List.map_cons]
    exact congrArg (_ ++ · :: _) hline
  have hvisits : ((script.walk.visits.map (Visit.clearWhen chosen)).flatMap (Visit.lines (script.clearShorts chosen))).map
      Line.render = (script.walk.visits.flatMap (Visit.lines script)).map Line.render := by
    rw [List.map_flatMap, List.map_flatMap, List.flatMap_map]
    exact congrArg (List.flatMap · script.walk.visits) (funext hvisit)
  rw [lines_eq, lines_eq, walk_clearShorts]
  simp only [List.map_append, hvisits]
  rfl

/-- Clearing shorts that are not read changes nothing about a run but its warnings. -/
theorem Script.writeTo_clearShorts (script : Script) (chosen : Nat → Bool) (header : String) (sink : Sink) :
    ((script.clearShorts chosen).writeTo header sink).sink = (script.writeTo header sink).sink ∧
      ((script.clearShorts chosen).writeTo header sink).outcome = (script.writeTo header sink).outcome.map
        fun result => { result with warnings := (script.clearShorts chosen).warnings header } := by
  have hblock : sink.writeAllAndClose (((script.clearShorts chosen).lines header).map Line.render) =
      sink.writeAllAndClose ((script.lines header).map Line.render) := by
    rw [render_clearShorts]
  unfold lines at hblock
  rw [Sink.writeAllAndClose_render, Sink.writeAllAndClose_render] at hblock
  obtain ⟨hsink, hwrong⟩ := Prod.mk.inj hblock
  refine ⟨by rw [writeTo_sink_eq_close, writeTo_sink_eq_close, hsink], ?_⟩
  have hwalk := script.walk_clearShorts chosen
  have hlength : (script.clearShorts chosen).walk.visits.length = script.walk.visits.length := by
    rw [hwalk, List.length_map]
  have hreached : (script.clearShorts chosen).walk.reached = script.walk.reached := by rw [hwalk]
  have hstopped : (script.clearShorts chosen).walk.fault = script.walk.fault := by rw [hwalk]
  rw [writeTo_outcome, writeTo_outcome, hwrong]
  cases (sink.perform (script.actions header)).sink.close.2.or (sink.perform (script.actions header)).fault with
  | some fault => rfl
  | none =>
    simp only [outcome, report, hlength, hreached, hstopped]
    rcases script.walk.fault with _ | (_ | _) <;> rfl

/-- A chosen slot leads to no warning. -/
theorem Script.strayAt?_clearShorts (script : Script) {chosen : Nat → Bool} {p : Nat} (h : chosen p = true) :
    (script.clearShorts chosen).strayAt? p = none := by
  rw [strayAt?, getElem?_clearShorts, h]
  cases script.text[p]? with
  | none => rfl
  | some slot =>
    rw [Option.map_some, Option.bind_some, Slot.opcode_clearWhen]
    cases hop : Opcode.ofCode? slot.opcode with
    | none => rfl
    | some op =>
      refine if_neg fun hstray => hstray.2 ?_
      simp [Slot.clearWhen, Slot.ignoresShort, hop, hstray.1, OperandClass.ignoresShort]

/-- A run has a result when the payloads are words and the sink has room for its lines. Its warnings are, in the order of the slots, one
for each instruction that it listed, takes no operand and has a short that is not zero; each names the slot, the mnemonic and the
short. The records of warnings are these.

They do no harm: setting the short to zero in each instruction that was listed and either takes no operand or finds it in the next slot
leaves the sink, the counts and the fault as they are, for a run with a result as for one without, and there are no warnings then. -/
theorem Script.warnings_exact_and_harmless (script : Script) (header : String) (sink : Sink) :
    (script.WordPayloads → sink.Admits (script.lines header).length →
      ∃ result, (script.writeTo header sink).outcome = .ok result) ∧
    (∀ result, (script.writeTo header sink).outcome = .ok result →
      script.walk.visits.map Visit.index = (List.range result.instructions).map script.position ∧
      ((List.range result.instructions).map script.position).Pairwise (· < ·) ∧
      result.warnings = ((List.range result.instructions).map script.position).filterMap script.strayAt? ∧
      (script.writeTo header sink).logs.filter (·.level = .warning) = result.warnings.map warningRecord) ∧
    ∀ chosen : Nat → Bool, (∀ j < script.walk.visits.length, chosen (script.position j) = true) →
      ((script.clearShorts chosen).writeTo header sink).sink = (script.writeTo header sink).sink ∧
      ((script.clearShorts chosen).writeTo header sink).outcome =
        (script.writeTo header sink).outcome.map fun result => { result with warnings := [] } := by
  refine ⟨?_, ?_, ?_⟩
  · exact fun hwords hroom => hwords.exists_result (Sink.Admits.accepts (by simpa using hroom))
  · intro result hrun
    have hindices := (reached_of_outcome hrun).1
    have hwarnings : result.warnings = script.warnings header := congrArg Result.warnings (walk_of_outcome hrun).2
    refine ⟨hindices, ?_, ?_, ?_⟩
    · rw [List.pairwise_map]
      exact List.pairwise_lt_range.imp script.position_strictMono
    · rw [hwarnings, script.warnings_eq, hindices]
    · rw [hwarnings, filter_logs hrun]
  · intro chosen hchosen
    obtain ⟨hsink, houtcome⟩ := script.writeTo_clearShorts chosen header sink
    have hnone : (script.clearShorts chosen).warnings header = [] := by
      have hindices : (script.clearShorts chosen).walk.visits.map Visit.index = script.walk.visits.map Visit.index := by
        rw [walk_clearShorts, List.map_map]
        rfl
      rw [warnings_eq, hindices, script.walk_position.1, List.filterMap_eq_nil_iff]
      intro p hp
      obtain ⟨j, hj, rfl⟩ := List.mem_map.mp hp
      exact script.strayAt?_clearShorts (hchosen j (List.mem_range.mp hj))
    exact ⟨hsink, hnone ▸ houtcome⟩

/-- Stray shorts of both signs, one in an instruction whose operand fills the next slot and one in a payload, before a slot that stops
the run and has a short too. -/
theorem Script.warnings_exact_and_harmless_add :
    let m : Script := { text := [⟨14, 3, 0⟩, ⟨0, 5, 0⟩, ⟨9, 7, 6⟩, ⟨9, -1, 0⟩, ⟨99, 4, 0⟩] }
    let sink : Sink := { medium := .memory }
    let warnings :=
      ["instruction 0: ADD should not have any operands (found 3)", "instruction 3: END should not have any operands (found -1)"]
    let abort : Abort := ⟨.unknownOpcode 99, some 4⟩
    (∃ result, (m.writeTo "x" sink).outcome = .ok result) ∧
      (m.writeTo "x" sink).outcome = .ok ⟨3, 4, warnings, some abort⟩ ∧
      (m.writeTo "x" sink).logs.filter (·.level = .warning) = warnings.map warningRecord ∧
      ((m.clearShorts fun _ => true).writeTo "x" sink).sink.text = "; x\n\n.text\nADD\nPUSHI 6\nEND\n\n" ∧
      ((m.clearShorts fun _ => true).writeTo "x" sink).outcome = .ok ⟨3, 4, [], some abort⟩ := by
  intro m sink warnings abort
  have hrun : (m.writeTo "x" sink).outcome = .ok ⟨3, 4, warnings, some abort⟩ := rfl
  have hwords : m.WordPayloads := by simp [WordPayloads, m]
  have hbuffer : sink.IsBuffer := ⟨rfl, rfl⟩
  obtain ⟨hresult, hexact, hharmless⟩ := warnings_exact_and_harmless m "x" sink
  obtain ⟨-, -, -, hlogs⟩ := hexact _ hrun
  obtain ⟨hsink, houtcome⟩ := hharmless (fun _ => true) fun _ _ => rfl
  refine ⟨hresult hwords (hbuffer.admits _), hrun, hlogs, ?_, ?_⟩
  · rw [hsink]
    rfl
  · rw [houtcome, hrun]
    rfl

end FlowListing
