import FlowListing.Proofs.Delivery
import FlowListing.Proofs.Walk

/-!
# The outcome of a run

A run on an open buffer always has a result when the payloads are words. Which one is read off the positions of the instructions:
the first position that fails stops the run and is named in the result; when none fails, the run passes all the slots.
-/

namespace FlowListing

/-- The walk is stopped at the first position that fails. -/
theorem Script.walk_of_first_failure (script : Script) (hw : script.WordPayloads) {k : Nat} {fault : Fault}
    (hfail : script.FailsAt (script.position k) fault)
    (hok : ∀ j < k, ∀ other, ¬script.FailsAt (script.position j) other) :
    script.walk.visits.length = k ∧ script.walk.reached = script.position k ∧
      script.walk.fault = some (.fatal ⟨fault, some (script.position k)⟩) := by
  have hk := hfail.lt_length
  have hin : ∀ j < k, script.position j < script.text.length :=
    fun j hj => Nat.lt_trans (script.position_strictMono hj) hk
  obtain ⟨visits, hlen, hwalk⟩ := script.exists_visits hw k hin hok
  have here : script.text[script.position k]? = some script.text[script.position k] := List.getElem?_eq_getElem hk
  have hend := script.walkAt_of_error here (visit_error_of_failsAt here hfail)
  rw [hwalk, hend]
  exact ⟨by simp [hlen], rfl, rfl⟩

/-- From a position that does not fail, the next one is at most behind the last slot: a payload that is missing would be a failure. -/
theorem Script.position_succ_le {script : Script} {j : Nat} (hlt : script.position j < script.text.length)
    (hok : ∀ fault, ¬script.FailsAt (script.position j) fault) : script.position (j + 1) ≤ script.text.length := by
  have here : script.text[script.position j]? = some script.text[script.position j] := List.getElem?_eq_getElem hlt
  rw [script.position_succ j here]
  unfold Slot.stride
  split
  · rename_i htakes
    rw [Slot.takesNext_iff] at htakes
    rcases Nat.lt_or_ge (script.position j + 1) script.text.length with hnext | hlast
    · exact hnext
    · exact absurd (.payload here htakes hlast) (hok _)
  · exact hlt

/-- When no position fails, one of them is right behind the last slot: positions grow at least as fast as their numbers, so they cannot
all stay inside. -/
theorem Script.exists_position_eq_length (script : Script)
    (hok : ∀ j fault, ¬script.FailsAt (script.position j) fault) : ∃ n, script.position n = script.text.length := by
  have hpass : ∀ n, (∀ j ≤ n, script.position j < script.text.length) ∨ ∃ m, script.position m = script.text.length := by
    intro n
    induction n with
    | zero =>
      rcases Nat.eq_zero_or_pos script.text.length with hzero | hpos
      · exact .inr ⟨0, hzero.symm⟩
      · exact .inl fun j hj => by rwa [Nat.le_zero.mp hj]
    | succ n ih =>
      rcases ih with hbefore | hend
      · rcases Nat.lt_or_eq_of_le (script.position_succ_le (hbefore n (Nat.le_refl n)) (hok n)) with hlt | heq
        · refine .inl fun j hj => ?_
          rcases Nat.lt_or_eq_of_le hj with hj | rfl
          · exact hbefore j (Nat.le_of_lt_succ hj)
          · exact hlt
        · exact .inr ⟨n + 1, heq⟩
      · exact .inr hend
  rcases hpass script.text.length with hbefore | hend
  · have hlt := hbefore _ (Nat.le_refl _)
    rw [script.position_eq_add_countP] at hlt
    omega
  · exact hend

/-- The walk passes all the slots when no position fails. -/
theorem Script.walk_of_no_failure (script : Script) (hw : script.WordPayloads)
    (hok : ∀ j fault, ¬script.FailsAt (script.position j) fault) :
    script.position script.walk.visits.length = script.text.length ∧ script.walk.reached = script.text.length ∧
      script.walk.fault = none := by
  obtain ⟨n, hn⟩ := script.exists_position_eq_length hok
  have hin : ∀ j < n, script.position j < script.text.length := fun j hj => hn ▸ script.position_strictMono hj
  obtain ⟨visits, hlen, hwalk⟩ := script.exists_visits hw n hin fun j _ => hok j
  rw [hwalk, script.walkAt_end (Nat.le_of_eq hn.symm)]
  exact ⟨by simpa [hlen] using hn, hn, rfl⟩

/-- On an open buffer the run reports the first position that fails, if there is one, with the fault there, and counts what it
listed and passed before it. If there is none it passes all the slots, one or two for each instruction, and the buffer gets the
listing. Asking for the listing alone gives the same fault or the same text. -/
theorem Script.writeTo_buffer_outcome (script : Script) (hw : script.WordPayloads) (header : String) (sink : Sink)
    (hs : sink.IsBuffer) :
    (∀ k fault, script.FailsAt (script.position k) fault →
      (∀ j < k, ∀ other, ¬script.FailsAt (script.position j) other) →
      (∃ result, (script.writeTo header sink).outcome = .ok result ∧
        result.abort = some ⟨fault, some (script.position k)⟩ ∧
        result.instructions = k ∧ result.slots = script.position k) ∧
      script.listing header = .error (.fatal ⟨fault, some (script.position k)⟩)) ∧
    ((∀ j fault, ¬script.FailsAt (script.position j) fault) →
      (∃ result, (script.writeTo header sink).outcome = .ok result ∧ result.abort = none ∧
        result.slots = script.text.length ∧
        (∀ j, j < result.instructions ↔ script.position j < script.text.length) ∧
        result.instructions
          + (List.range result.instructions).countP (fun j => script.takesNextAt (script.position j))
          = script.text.length) ∧
      ∃ text, script.listing header = .ok text ∧ (script.writeTo header sink).sink.text = sink.text ++ text) := by
  have houtcome : (script.writeTo header sink).outcome = script.outcome header := outcome_of_accepts (hs.admits _).accepts
  unfold outcome at houtcome
  constructor
  · intro k fault hfail hok
    obtain ⟨hvisits, hreached, hfault⟩ := script.walk_of_first_failure hw hfail hok
    rw [hfault] at houtcome
    exact ⟨⟨_, houtcome, rfl, hvisits, hreached⟩, by rw [listing, hfault]⟩
  · intro hok
    obtain ⟨hvisits, hreached, hfault⟩ := script.walk_of_no_failure hw hok
    rw [hfault] at houtcome
    refine ⟨⟨_, houtcome, rfl, hreached, fun j => ⟨fun hj => ?_, fun hj => ?_⟩, ?_⟩, ?_⟩
    · rw [← hvisits]
      exact script.position_strictMono hj
    · rcases Nat.lt_or_ge j script.walk.visits.length with hlt | hge
      · exact hlt
      · rcases Nat.lt_or_eq_of_le hge with hlt | heq
        · have := script.position_strictMono hlt
          omega
        · rw [← heq] at hj
          omega
    · rw [← script.position_eq_add_countP]
      exact hvisits
    · exact ⟨_, by rw [listing, hfault], writeTo_text houtcome⟩

/-- A payload that would be no instruction is passed over, and a jump to a label that is not there stops the run at slot two after one
instruction; without the jump the run passes both slots. -/
theorem Script.writeTo_buffer_outcome_pushi_jump :
    let stopped : Script := { text := [⟨0, 0, 0⟩, ⟨999, 0, 5⟩, ⟨10, 7, 0⟩] }
    let whole : Script := { text := [⟨0, 0, 0⟩, ⟨999, 0, 5⟩] }
    let buffer : Sink := { medium := .memory }
    (∃ result, (stopped.writeTo "" buffer).outcome = .ok result ∧
      result.abort = some ⟨.missingLabel "jump labels" 0 7, some 2⟩ ∧ result.instructions = 1 ∧ result.slots = 2) ∧
    (∃ result, (whole.writeTo "" buffer).outcome = .ok result ∧ result.abort = none ∧ result.slots = 2) := by
  intro stopped whole buffer
  have hbuffer : buffer.IsBuffer := ⟨rfl, rfl⟩
  have hpushi : ∀ script : Script, script.text[0]? = some ⟨0, 0, 0⟩ → 2 ≤ script.text.length →
      ∀ fault, ¬script.FailsAt 0 fault := by
    intro script hzero hlen fault h
    cases h <;> simp_all [Opcode.code, Opcode.ctorIdx]
    omega
  constructor
  · have hw : stopped.WordPayloads := by simp [WordPayloads, stopped]
    have here : stopped.text[stopped.position 1]? = some ⟨10, 7, 0⟩ := rfl
    have hfail := Script.FailsAt.jump here (.inl rfl) (.inr (by decide))
    have hok : ∀ j < 1, ∀ other, ¬stopped.FailsAt (stopped.position j) other := by
      intro j hj
      rw [Nat.lt_one_iff.mp hj]
      exact hpushi stopped rfl (by decide)
    exact ((writeTo_buffer_outcome stopped hw "" buffer hbuffer).1 1 _ hfail hok).1
  · have hw : whole.WordPayloads := by simp [WordPayloads, whole]
    have hok : ∀ j fault, ¬whole.FailsAt (whole.position j) fault := by
      intro j fault h
      cases j with
      | zero => exact hpushi whole rfl (by decide) fault h
      | succ j =>
        have hle : whole.position 1 ≤ whole.position (j + 1) := by
          rcases Nat.eq_zero_or_pos j with rfl | hj
          · exact Nat.le_refl _
          · exact Nat.le_of_lt (whole.position_strictMono (by omega))
        have hlt := h.lt_length
        exact absurd (Nat.lt_of_le_of_lt hle hlt) (by decide)
    obtain ⟨⟨result, h, habort, hslots, -⟩, -⟩ := (writeTo_buffer_outcome whole hw "" buffer hbuffer).2 hok
    exact ⟨result, h, habort, hslots⟩

end FlowListing
