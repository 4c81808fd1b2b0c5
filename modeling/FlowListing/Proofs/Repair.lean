import FlowListing.Proofs.Delivery
import FlowListing.Proofs.Walk

/-!
# Runs on a script that was repaired

What a run did before it was stopped at a slot follows from the tables, from the slots before that one, and from the fact that the
slot ends no procedure. When the script is repaired from the slot on, a run does the same up to there (`Script.Repairs.walkAt_eq`)
and then declares the labels that point to the slot, whatever it does next (`Script.declarations_prefix_actions`). So what the first
run wrote is what the second begins with (`Script.writeTo_repaired`).
-/

namespace FlowListing

/-- A script is another one with new slots from some slot on, with words for their payloads, the first of which ends no procedure.
The message data may be new too. -/
structure Script.Repairs (repaired script : Script) (k : Nat) : Prop where
  tables : script.SameTables repaired
  before : repaired.text.take k = script.text.take k
  resumes : ∃ slot, repaired.text[k]? = some slot ∧ slot.opcode ≠ Opcode.end.code
  words : ∀ slot ∈ repaired.text.drop k, 0 ≤ slot.payload ∧ slot.payload < 0x100000000

namespace Script

/-- A walk that was stopped at a slot ended there. -/
theorem reached_of_fatal {script : Script} {p k : Nat} {abort : Abort} (h : (script.walkAt p).fault = some (.fatal abort))
    (hindex : abort.index = some (k : Int)) : (script.walkAt p).reached = k :=
  Int.ofNat.inj (Option.some.inj ((failsAt_of_fatal h).2.symm.trans hindex))

namespace Repairs

variable {repaired script : Script} {k : Nat}

/-- A repair leaves the slots before it as they are. -/
theorem getElem?_eq (h : repaired.Repairs script k) {p : Nat} (hp : p < k) : repaired.text[p]? = script.text[p]? := by
  rw [← List.getElem?_take_of_lt hp, h.before, List.getElem?_take_of_lt hp]

/-- A repair leaves the labels as they are. -/
theorem labelIndex_eq (h : repaired.Repairs script k) : repaired.labelIndex = script.labelIndex := by
  rw [labelIndex, labelIndex, h.tables.jumps, h.tables.procedures]

/-- A visit before the slot that stopped the run is the same after the repair. The slot behind it may be the one that was replaced,
but neither that one nor the new one ends a procedure. -/
theorem visit_eq (h : repaired.Repairs script k) {fault : Fault} (hfail : script.FailsAt k fault) {p : Nat} {slot : Slot}
    (hp : p + slot.stride ≤ k) :
    repaired.visit p slot repaired.text[p + 1]? = script.visit p slot script.text[p + 1]? := by
  refine (visit_congr h.tables p rfl rfl (fun htakes => ?_) (fun hkeeps => ?_)).symm
  · have hstride : slot.stride = 2 := by rw [Slot.stride, if_pos htakes]
    rw [h.getElem?_eq (show p + 1 < k by omega)]
  · have hone := slot.one_le_stride
    rcases Nat.lt_or_eq_of_le (show p + 1 ≤ k by omega) with hlt | rfl
    · rw [h.getElem?_eq hlt]
    · obtain ⟨new, hnew, hresumes⟩ := h.resumes
      have hlt := hfail.lt_length
      have hold : script.text[p + 1]? = some script.text[p + 1] := List.getElem?_eq_getElem hlt
      have hstopped := hfail.opcode_ne_end hold
      rw [hold, hnew, Option.map_some, Option.map_some, Slot.endsProcedure, Slot.endsProcedure, decide_eq_false hstopped,
        decide_eq_false hresumes]

/-- A run that was stopped is followed, after the repair, up to the slot that stopped it. -/
theorem walkAt_eq (h : repaired.Repairs script k) {abort : Abort} (hindex : abort.index = some (k : Int)) (p : Nat)
    (hstopped : (script.walkAt p).fault = some (.fatal abort)) :
    repaired.walkAt p =
      { repaired.walkAt k with visits := (script.walkAt p).visits ++ (repaired.walkAt k).visits } := by
  refine script.walkAt_induction (motive := fun p walk => walk.fault = some (.fatal abort) →
    repaired.walkAt p = { repaired.walkAt k with visits := walk.visits ++ (repaired.walkAt k).visits }) ?_ ?_ ?_ ?_ p hstopped
  · rintro p - hstopped
    cases hstopped
  · rintro p fault - hstopped
    cases hstopped
    obtain rfl : p = k := Int.ofNat.inj (Option.some.inj hindex)
    rfl
  · rintro p fault - hstopped
    cases hstopped
  · rintro p slot visit here - - hvisit ih hstopped
    have hreached := reached_of_fatal hstopped hindex
    have hfail : script.FailsAt k abort.fault := hreached ▸ (failsAt_of_fatal hstopped).1
    have hle : p + slot.stride ≤ k := hreached ▸ (script.walkAt_stop (p + slot.stride)).1
    have hone := slot.one_le_stride
    have here' : repaired.text[p]? = some slot := (h.getElem?_eq (show p < k by omega)).trans here
    rw [repaired.walkAt_of_visit here' ((h.visit_eq hfail hle).trans hvisit), ih hstopped]
    rfl

/-- The walk over the repaired script visits what was visited before, and goes on from the repair. -/
theorem walk_eq (h : repaired.Repairs script k) {abort : Abort} (hindex : abort.index = some (k : Int))
    (hstopped : script.walk.fault = some (.fatal abort)) :
    repaired.walk = { repaired.walkAt k with visits := script.walk.visits ++ (repaired.walkAt k).visits } :=
  h.walkAt_eq hindex 0 hstopped

/-- From the slot on at which it was repaired, a script has no operand that should be a word and is none. -/
theorem not_oddPayloadAt (h : repaired.Repairs script k) {p : Nat} (hp : k ≤ p) : ¬repaired.OddPayloadAt p := by
  rintro ⟨slot, payload, -, -, hnext, hodd⟩
  refine hodd (h.words payload (List.mem_of_getElem? (i := p + 1 - k) ?_))
  rw [List.getElem?_drop, Nat.add_sub_cancel' (by omega)]
  exact hnext

end Repairs

/-- Where a walk comes to a slot, the declarations of the labels that point to it come first, whether the slot is visited or not. -/
theorem declarations_prefix_actions (script : Script) {p : Nat} (h : p < script.text.length) :
    declarations script.labelIndex p <+:
      (script.walkAt p).visits.flatMap (Visit.actions script.labelIndex) ++ closing script script.labelIndex (script.walkAt p) := by
  refine script.walkAt_induction (motive := fun p walk => p < script.text.length → declarations script.labelIndex p <+:
    walk.visits.flatMap (Visit.actions script.labelIndex) ++ closing script script.labelIndex walk) ?_ ?_ ?_ ?_ p h
  · intro p hend hlt
    omega
  · intro p fault _ _
    exact List.prefix_refl _
  · intro p fault _ _
    exact List.prefix_refl _
  · intro p slot visit _ _ _ hvisit _ _
    obtain ⟨-, hindex, -, -⟩ := visit_eq_ok hvisit
    rw [Walk.after, List.flatMap_cons, Visit.actions, hindex]
    simp only [List.append_assoc]
    exact List.prefix_append _ _

/-- The actions of a run that was stopped are those that a run begins with after the repair. -/
theorem Repairs.actions_prefix_actions {repaired script : Script} {k : Nat} (h : repaired.Repairs script k) {abort : Abort}
    (hindex : abort.index = some (k : Int)) (hstopped : script.walk.fault = some (.fatal abort)) (header : String) :
    script.actions header <+: repaired.actions header := by
  have hreached := reached_of_fatal (p := 0) hstopped hindex
  obtain ⟨slot, hnew, -⟩ := h.resumes
  have hclosing : closing script script.labelIndex script.walk = declarations script.labelIndex k := by
    rw [closing, hstopped]
    exact congrArg (declarations script.labelIndex) hreached
  have hrest := repaired.declarations_prefix_actions (List.getElem?_eq_some_iff.mp hnew).1
  rw [h.labelIndex_eq] at hrest
  rw [actions, actions, hclosing, h.labelIndex_eq, h.walk_eq hindex hstopped, List.flatMap_append, ← List.append_assoc,
    List.append_assoc _ _ (closing _ _ _)]
  exact (List.prefix_append_right_inj _).mpr hrest

/-- When a run was stopped at a slot and the script is repaired from that slot on, a run on the repaired script has a result, and it
begins as the first one went: it writes what that one wrote before anything else and gives the same warnings first, and it lists and
passes no less. -/
theorem writeTo_repaired {script repaired : Script} {header : String} {sink sink' : Sink} {result : Result} {abort : Abort}
    {k : Nat} (hrun : (script.writeTo header sink).outcome = .ok result) (habort : result.abort = some abort)
    (hindex : abort.index = some (k : Int)) (hrepairs : repaired.Repairs script k)
    (hroom : sink'.Admits (repaired.lines header).length) :
    ∃ result' written rest, (repaired.writeTo header sink').outcome = .ok result' ∧
      (script.writeTo header sink).sink.text = sink.text ++ written ∧
      (repaired.writeTo header sink').sink.text = sink'.text ++ (written ++ rest) ∧
      result.warnings <+: result'.warnings ∧ result.instructions ≤ result'.instructions ∧ result.slots ≤ result'.slots := by
  obtain ⟨hfault, hreport⟩ := walk_of_outcome hrun
  have hstopped : script.walk.fault = some (.fatal abort) := by rw [hfault, habort, Option.map_some]
  have hreached := reached_of_fatal (p := 0) hstopped hindex
  have hwalk := hrepairs.walk_eq hindex hstopped
  obtain ⟨hle, hstop⟩ := repaired.walkAt_stop k
  have hactions := hrepairs.actions_prefix_actions hindex hstopped header
  obtain ⟨rest, hlines⟩ := hactions.filterMap Action.line?
  rcases outcome_of_admits hroom with ⟨fault, hpayload, -⟩ | ⟨-, result', hrun'⟩
  · -- the walk ends at the slot or behind it, where every payload is a word
    rw [hwalk] at hpayload
    rcases hstop with ⟨-, hnone⟩ | ⟨other, -, hfatal⟩ | ⟨hodd, -⟩
    · cases hnone.symm.trans hpayload
    · cases hfatal.symm.trans hpayload
    · exact absurd hodd (hrepairs.not_oddPayloadAt hle)
  · obtain ⟨-, hreport'⟩ := walk_of_outcome hrun'
    refine ⟨result', renderLines (script.lines header), renderLines rest, hrun', writeTo_text hrun, ?_, ?_, ?_, ?_⟩
    · rw [writeTo_text hrun', ← renderLines_append]
      exact congrArg (fun lines => sink'.text ++ renderLines lines) hlines.symm
    · rw [hreport, hreport']
      exact hactions.filterMap Action.warning?
    · rw [hreport, hreport', report, report, hwalk, List.length_append]
      exact Nat.le_add_right _ _
    · rw [hreport, hreport', report, report, hwalk]
      exact hreached ▸ hle

/-- A script that ends in an unknown opcode, behind the end of a procedure and with a label on it, and a repaired one that is
stopped later on. -/
theorem writeTo_repaired_unknown :
    let m : Script := { text := [⟨9, 5, 0⟩, ⟨99, 0, 0⟩], procedures := [⟨"a", 1⟩], jumps := [⟨"b", 3⟩] }
    let repaired : Script :=
      { text := [⟨9, 5, 0⟩, ⟨0, 0, 0⟩, ⟨9, 9, 7⟩, ⟨10, 1, 0⟩], procedures := [⟨"a", 1⟩], jumps := [⟨"b", 3⟩], message := [1] }
    let sink : Sink := { medium := .memory }
    ∃ result result' rest, (m.writeTo "x" sink).outcome = .ok result ∧ repaired.Repairs m 1 ∧
      (repaired.writeTo "x" sink).outcome = .ok result' ∧ (m.writeTo "x" sink).sink.text = "; x\n\n.text\nEND\n\na:\n" ∧
      (repaired.writeTo "x" sink).sink.text = (m.writeTo "x" sink).sink.text ++ rest ∧
      result.warnings <+: result'.warnings ∧ result.warnings.length = 1 ∧ 1 ≤ result'.instructions ∧ 1 ≤ result'.slots := by
  intro m repaired sink
  have hrun : (m.writeTo "x" sink).outcome = .ok
      ⟨1, 1, ["instruction 0: END should not have any operands (found 5)"], some ⟨.unknownOpcode 99, some 1⟩⟩ := rfl
  have hrepairs : repaired.Repairs m 1 :=
    ⟨⟨rfl, rfl, fun _ => rfl⟩, rfl, ⟨⟨0, 0, 0⟩, rfl, by decide⟩, by decide⟩
  have hbuffer : sink.IsBuffer := ⟨rfl, rfl⟩
  obtain ⟨result', written, rest, hrun', htext, htext', hwarnings, hinstructions, hslots⟩ :=
    writeTo_repaired hrun rfl rfl hrepairs (hbuffer.admits _)
  rw [← String.append_assoc, ← htext] at htext'
  exact ⟨_, result', rest, hrun, hrepairs, hrun', rfl, htext', hwarnings, rfl, hinstructions, hslots⟩

end Script

end FlowListing
