import Mathlib
import FlowListing.Sink
import FlowListing.Proofs.Outcome
import FlowListing.Proofs.Views

/-!
# The life of a sink

What a sink holds after calls since it was new is read off the calls (`Sink.Tells`): one call keeps this up (`Sink.Tells.call`), and
so do all of them (`Sink.tells_after`). Whatever stops a run, for its sink it is no more than calls that write the lines, up to the first
that is refused, and then close it (`Script.writeTo_sink`). So the life of a sink with a run in it is one sequence of calls.

A run on a sink that takes its lines and can then be let go has a result unless it comes to an operand that should be a word and is none
(`Script.exists_payload_fault_iff`). A sink that cannot be let go ends the run without a result, whatever else there is to say
(`Script.unreleased_without_result`).
-/

namespace FlowListing

/-! ## Calls -/

/-- The call closes the sink. -/
def Call.closes (call : Call) : Bool :=
  call.text?.isNone

/-- The texts that calls write before one of them closes the sink. -/
def openWrites : List Call → List String
  | [] => []
  | call :: rest =>
    match call.text? with
    | some text => text :: openWrites rest
    | none => []

/-- What is written behind a call that closes the sink is not written to an open one. -/
theorem openWrites_append (calls more : List Call) :
    openWrites (calls ++ more) = openWrites calls ++ if calls.any Call.closes then [] else openWrites more := by
  induction calls with
  | nil => rfl
  | cons call rest ih =>
    rw [List.cons_append, openWrites, openWrites, List.any_cons, Call.closes]
    cases call.text? with
    | none => simp
    | some text => simp [ih]

namespace Medium

/-- The writes that a medium keeps: each of them unless it is refused after those that were kept before. -/
def kept (medium : Medium) (texts : List String) : List String :=
  texts.foldl (fun kept text => if (medium.refusal? kept.length text).isNone then kept ++ [text] else kept) []

/-- How often a stream is closed and flushed when a sink lets go of it. -/
def parting : Medium → Nat × Nat
  | .stream true _ => (1, 0)
  | .stream false _ => (0, 1)
  | _ => (0, 0)

/-- One write more is kept unless it is refused. -/
theorem kept_concat (medium : Medium) (texts : List String) (text : String) :
    medium.kept (texts ++ [text]) =
      if (medium.refusal? (medium.kept texts).length text).isNone then medium.kept texts ++ [text] else medium.kept texts := by
  rw [kept, List.foldl_append]
  rfl

/-- A medium that refuses none of the texts keeps them all. -/
theorem kept_of_taken {medium : Medium} {texts : List String}
    (h : ∀ i text, texts[i]? = some text → medium.refusal? i text = none) : medium.kept texts = texts := by
  induction texts using List.reverseRecOn with
  | nil => rfl
  | append_singleton texts text ih =>
    have hfront : medium.kept texts = texts := by
      refine ih fun i other hother => h i other ?_
      rw [List.getElem?_append_left (List.getElem?_eq_some_iff.mp hother).1]
      exact hother
    have hlast := h texts.length text (by simp)
    rw [kept_concat, hfront, hlast]
    rfl

end Medium

namespace Sink

/-- The sink after calls. -/
def after (sink : Sink) (calls : List Call) : Sink :=
  calls.foldl (fun sink call => (sink.call call).1) sink

/-- Calls and more calls are made one after another. -/
theorem after_append (sink : Sink) (calls more : List Call) : sink.after (calls ++ more) = (sink.after calls).after more :=
  List.foldl_append

/-- A closed sink stays as it is and refuses every write. -/
theorem call_of_closed {sink : Sink} (h : sink.closed = true) (call : Call) :
    sink.call call = (sink, if call.closes then none else some .closed) := by
  have hclose : sink.close = (sink, none) := by rw [close, if_pos h]
  have hrefused : ∀ text, sink.refusal? text = some .closed := fun text => by rw [refusal?, if_pos h]
  unfold Sink.call Call.closes
  cases call.text? with
  | none => simp [hclose]
  | some text => simp [write, hrefused]

/-- Closing an open sink marks it as closed and lets go of its medium, and that is all, also when the medium cannot be let go. -/
theorem close_of_open {sink : Sink} (h : sink.closed = false) :
    sink.close.1 = { sink with
      closed := true, releases := sink.releases + 1, closes := sink.closes + sink.medium.parting.1,
      flushes := sink.flushes + sink.medium.parting.2 } := by
  rw [close, if_neg (by simp [h]), release]
  cases sink.medium with
  | memory | bounded limit | absent => simp [Medium.parting]
  | stream owned file => cases owned <;> simp [Medium.parting]

/-! ## What a sink tells of its life -/

/-- What a sink holds after calls since it was new: the writes before it was first closed, as far as its medium took them; and it
let go of its medium once if it was closed, and not otherwise. -/
structure Tells (sink : Sink) (medium : Medium) (calls : List Call) : Prop where
  same : sink.medium = medium
  closed : sink.closed = calls.any Call.closes
  text : sink.text = String.join (medium.kept (openWrites calls))
  writes : sink.writes = (medium.kept (openWrites calls)).length
  releases : sink.releases = if sink.closed then 1 else 0
  parted : (sink.closes, sink.flushes) = if sink.closed then medium.parting else (0, 0)

/-- A new sink has nothing to tell. -/
theorem tells_new (medium : Medium) : Tells { medium := medium } medium [] := by
  exact ⟨rfl, rfl, rfl, rfl, rfl, rfl⟩

/-- A call on a closed sink changes nothing that it tells. -/
theorem Tells.call_closed {sink : Sink} {medium : Medium} {calls : List Call} (h : sink.Tells medium calls) (call : Call)
    (hclosed : sink.closed = true) : sink.Tells medium (calls ++ [call]) := by
  have hany : calls.any Call.closes = true := by rw [← h.closed, hclosed]
  have hwrites : openWrites (calls ++ [call]) = openWrites calls := by
    rw [openWrites_append, hany]
    simp
  refine ⟨h.same, ?_, ?_, ?_, h.releases, h.parted⟩
  · rw [List.any_append, hany, hclosed, Bool.true_or]
  · rw [hwrites]
    exact h.text
  · rw [hwrites]
    exact h.writes

/-- Closing an open sink, by whichever call, is told of it. -/
theorem Tells.close_open {sink : Sink} {medium : Medium} {calls : List Call} (h : sink.Tells medium calls) {call : Call}
    (hcall : call.text? = none) (hopen : sink.closed = false) : sink.close.1.Tells medium (calls ++ [call]) := by
  have hwrites : openWrites (calls ++ [call]) = openWrites calls := by
    rw [openWrites_append, openWrites, hcall]
    simp
  have hreleases := h.releases
  have hparted := h.parted
  rw [hopen] at hreleases hparted
  obtain ⟨hcloses, hflushes⟩ := Prod.mk.inj hparted
  rw [close_of_open hopen]
  refine ⟨h.same, ?_, ?_, ?_, ?_, ?_⟩
  · rw [List.any_append]
    simp [Call.closes, hcall]
  · rw [hwrites]
    exact h.text
  · rw [hwrites]
    exact h.writes
  · rw [hreleases]
    rfl
  · rw [h.same, hcloses, hflushes]
    simp

/-- A write on an open sink is told of it as far as the medium takes it. -/
theorem Tells.write_open {sink : Sink} {medium : Medium} {calls : List Call} (h : sink.Tells medium calls) {call : Call}
    {text : String} (hcall : call.text? = some text) (hopen : sink.closed = false) :
    (sink.call call).1.Tells medium (calls ++ [call]) := by
  have hany : calls.any Call.closes = false := by rw [← h.closed, hopen]
  have hwrites : openWrites (calls ++ [call]) = openWrites calls ++ [text] := by
    rw [openWrites_append, hany, openWrites, hcall]
    rfl
  have hclosed : (calls ++ [call]).any Call.closes = false := by
    rw [List.any_append, hany]
    simp [Call.closes, hcall]
  unfold Sink.call
  rw [hcall]
  have hrefusal : sink.refusal? text = medium.refusal? (medium.kept (openWrites calls)).length text := by
    rw [refusal?, hopen, h.same, h.writes]
    rfl
  have hkept := medium.kept_concat (openWrites calls) text
  rw [← hwrites, ← hrefusal] at hkept
  cases htaken : sink.refusal? text with
  | none =>
    rw [htaken, Option.isNone_none, if_pos rfl] at hkept
    simp only [write, htaken]
    refine ⟨h.same, by rw [hclosed]; exact hopen, ?_, ?_, h.releases, h.parted⟩
    · rw [hkept, add, h.text]
      simp
    · rw [hkept, add, h.writes]
      simp
  | some fault =>
    rw [htaken, Option.isNone_some, if_neg Bool.false_ne_true] at hkept
    simp only [write, htaken]
    refine ⟨h.same, by rw [hclosed]; exact hopen, ?_, ?_, h.releases, h.parted⟩
    · rw [hkept]
      exact h.text
    · rw [hkept]
      exact h.writes

/-- One call keeps up what a sink tells of its life. -/
theorem Tells.call {sink : Sink} {medium : Medium} {calls : List Call} (h : sink.Tells medium calls) (call : Call) :
    (sink.call call).1.Tells medium (calls ++ [call]) := by
  cases hstate : sink.closed with
  | true =>
    rw [call_of_closed hstate]
    exact h.call_closed call hstate
  | false =>
    cases hcall : call.text? with
    | none =>
      have hclose : (sink.call call).1 = sink.close.1 := by rw [Sink.call, hcall]
      rw [hclose]
      exact h.close_open hcall hstate
    | some text => exact h.write_open hcall hstate

/-- After any calls a sink tells of all of them. -/
theorem tells_after (medium : Medium) (calls : List Call) : (Sink.after { medium := medium } calls).Tells medium calls := by
  induction calls using List.reverseRecOn with
  | nil => exact tells_new medium
  | append_singleton calls call ih =>
    rw [after_append]
    exact ih.call call

/-! ## A run as calls -/

/-- The texts that a block writes to a sink: all of them up to the first that is refused, this one included. -/
def attempts (sink : Sink) : List String → List String
  | [] => []
  | text :: rest =>
    match sink.write text with
    | .ok after => text :: after.attempts rest
    | .error _ => [text]

/-- A block writes all its texts to a sink that takes them. -/
theorem attempts_of_takes {sink : Sink} {texts : List String} (h : sink.Takes texts) : sink.attempts texts = texts := by
  induction texts generalizing sink with
  | nil => rfl
  | cons text rest ih =>
    obtain ⟨htaken, hrest⟩ := takes_cons_iff.mp h
    rw [attempts, write, htaken]
    exact congrArg (text :: ·) (ih hrest)

/-- A block that writes texts is calls that write them, and its end. -/
theorem writeAllAndClose_eq_after (sink : Sink) (texts : List String) :
    (sink.writeAllAndClose texts).1 = sink.after ((sink.attempts texts).map .fragment ++ [.leave]) := by
  induction texts generalizing sink with
  | nil => rfl
  | cons text rest ih =>
    have hcall : sink.call (.fragment text) = match sink.write text with
      | .ok next => (next, none)
      | .error fault => (sink, some fault) := rfl
    rw [writeAllAndClose, attempts]
    cases hwrite : sink.write text with
    | error fault =>
      rw [hwrite] at hcall
      simp only [List.map_cons, List.map_nil, List.cons_append, List.nil_append, after, List.foldl_cons, List.foldl_nil, hcall]
      rfl
    | ok next =>
      rw [hwrite] at hcall
      simp only [List.map_cons, List.cons_append, after, List.foldl_cons, hcall]
      exact ih next

/-- Carrying out actions and then closing is a block that writes the lines. -/
theorem writeAllAndClose_render (sink : Sink) (actions : List Action) :
    sink.writeAllAndClose ((actions.filterMap Action.line?).map Line.render) =
      ((sink.perform actions).sink.close.1, (sink.perform actions).sink.close.2.or (sink.perform actions).fault) := by
  induction actions generalizing sink with
  | nil => simp [writeAllAndClose, perform]
  | cons action rest ih =>
    cases action with
    | warn message => exact ih sink
    | write line =>
      have hlines : (Action.write line :: rest).filterMap Action.line? = line :: rest.filterMap Action.line? := rfl
      rw [hlines, List.map_cons, perform, writeAllAndClose]
      cases sink.write line.render with
      | error fault => rfl
      | ok next => exact ih next

end Sink

/-- The calls that a run makes on its sink: it writes its lines, up to the first that is refused, and closes the sink. -/
def Script.calls (script : Script) (header : String) (sink : Sink) : List Call :=
  (sink.attempts ((script.lines header).map Line.render)).map .fragment ++ [.close]

/-- For its sink, a run is the calls that write its lines and then close it. -/
theorem Script.writeTo_sink (script : Script) (header : String) (sink : Sink) :
    (script.writeTo header sink).sink = sink.after (script.calls header sink) := by
  have hblock : (sink.writeAllAndClose ((script.lines header).map Line.render)).1 =
      (sink.perform (script.actions header)).sink.close.1 := by
    rw [lines, sink.writeAllAndClose_render]
  rw [writeTo_sink_eq_close, ← hblock, sink.writeAllAndClose_eq_after, Sink.after_append, calls, Sink.after_append]
  rfl

/-- A run closes its sink. -/
theorem Script.any_closes_calls (script : Script) (header : String) (sink : Sink) :
    (script.calls header sink).any Call.closes = true := by
  rw [calls, List.any_append, Bool.or_eq_true]
  exact .inr rfl

/-- On a closed sink a run fails at its first write and leaves the sink as it was. -/
theorem Script.writeTo_closed (script : Script) (header : String) {sink : Sink} (h : sink.closed = true) :
    (script.writeTo header sink).outcome = .error (.sink .closed) ∧ (script.writeTo header sink).sink = sink := by
  have hwrite : ∀ text, sink.write text = .error .closed := by
    intro text
    rw [Sink.write, Sink.refusal?, if_pos h]
  have hperform : sink.perform (script.actions header) = ⟨sink, [], some .closed⟩ := by
    unfold Script.actions opening
    simp only [List.cons_append, Sink.perform, hwrite]
  have hclose : sink.close = (sink, none) := by rw [Sink.close, if_pos h]
  constructor
  · rw [writeTo_outcome, hperform, hclose]
    rfl
  · rw [writeTo_sink_eq_close, hperform, hclose]

/-! ## Runs without a result -/

/-- The run comes to an operand that should be a word and is none, and to nothing before it that stops it. -/
def Script.MeetsOddPayload (script : Script) : Prop :=
  ∃ j, (∀ i < j, ∀ fault, ¬script.FailsAt (script.position i) fault) ∧ script.OddPayloadAt (script.position j)

/-- From a position on, the walk is stopped by a payload exactly when it comes to one that is no word before it comes to anything
that cannot be listed. -/
theorem Script.exists_payload_fault_from (script : Script) (n : Nat) :
    (∃ fault, (script.walkAt (script.position n)).fault = some (.payload fault)) ↔
      ∃ j, n ≤ j ∧ (∀ i, n ≤ i → i < j → ∀ fault, ¬script.FailsAt (script.position i) fault) ∧
        script.OddPayloadAt (script.position j) := by
  refine script.walkAt_induction (motive := fun p walk => ∀ n, script.position n = p →
    ((∃ fault, walk.fault = some (.payload fault)) ↔ ∃ j, n ≤ j ∧
      (∀ i, n ≤ i → i < j → ∀ fault, ¬script.FailsAt (script.position i) fault) ∧ script.OddPayloadAt (script.position j)))
    ?_ ?_ ?_ ?_ (script.position n) n rfl
  · rintro p hend n rfl
    refine iff_of_false (by simp) ?_
    rintro ⟨j, hj, -, slot, payload, here, -⟩
    have hlt := (List.getElem?_eq_some_iff.mp here).1
    have hle := script.position_mono hj
    omega
  · rintro p fault hfail n rfl
    refine iff_of_false (by simp) ?_
    rintro ⟨j, hj, hok, hodd⟩
    rcases Nat.eq_or_lt_of_le hj with rfl | hlt
    · exact hfail.not_oddPayloadAt hodd
    · exact hok n (Nat.le_refl n) hlt fault hfail
  · rintro p fault hodd n rfl
    refine iff_of_true ⟨fault, rfl⟩ ⟨n, Nat.le_refl n, ?_, hodd⟩
    intro i hle hlt
    omega
  · rintro p slot visit here hok hword - ih n rfl
    refine (ih (n + 1) (script.position_succ n here)).trans ⟨?_, ?_⟩
    · rintro ⟨j, hj, hbefore, hodd⟩
      refine ⟨j, by omega, fun i hle hlt => ?_, hodd⟩
      rcases Nat.eq_or_lt_of_le hle with rfl | hlater
      · exact hok
      · exact hbefore i hlater hlt
    · rintro ⟨j, hj, hbefore, hodd⟩
      rcases Nat.eq_or_lt_of_le hj with rfl | hlater
      · exact absurd hodd hword
      · exact ⟨j, hlater, fun i hle hlt => hbefore i (by omega) hlt, hodd⟩

/-- The walk is stopped by a payload exactly when it comes to an operand that should be a word and is none. -/
theorem Script.exists_payload_fault_iff (script : Script) :
    (∃ fault, script.walk.fault = some (.payload fault)) ↔ script.MeetsOddPayload := by
  refine (script.exists_payload_fault_from 0).trans ⟨?_, ?_⟩
  · rintro ⟨j, -, hbefore, hodd⟩
    exact ⟨j, fun i hlt => hbefore i (Nat.zero_le i) hlt, hodd⟩
  · rintro ⟨j, hbefore, hodd⟩
    exact ⟨j, Nat.zero_le j, fun i _ hlt => hbefore i hlt, hodd⟩

/-- On a sink that takes its lines and can then be let go, a run fails exactly when it comes to an operand that should be a word
and is none, and for this reason. -/
theorem Script.writeTo_error_iff {script : Script} {header : String} {sink : Sink}
    (h : sink.Accepts ((script.lines header).map Line.render)) :
    ((∃ fault, (script.writeTo header sink).outcome = .error fault) ↔ script.MeetsOddPayload) ∧
      ∀ fault, (script.writeTo header sink).outcome = .error fault → ∃ payload, fault = .payload payload := by
  rw [← script.exists_payload_fault_iff, outcome_of_accepts h, outcome]
  rcases script.walk.fault with _ | (_ | _) <;> simp

/-- A sink that takes the lines and cannot be let go ends a run without a result. -/
theorem Script.writeTo_unreleased {script : Script} {header : String} {sink : Sink} {fault : SinkFault}
    (h : sink.Takes ((script.lines header).map Line.render))
    (hfault : sink.medium.releaseFault? (sink.writes + (script.lines header).length) = some fault) :
    (script.writeTo header sink).outcome = .error (.sink fault) := by
  have htaken := (sink.perform_fault_eq_none_iff h.1 (script.actions header)).mpr h
  have hclose : (sink.perform (script.actions header)).sink.close.2 = some fault := by
    rw [Sink.perform_sink htaken, ← hfault]
    exact Sink.close_fault h.1
  rw [writeTo_outcome, hclose]
  rfl

/-- A run on a sink with room for its lines has a result when all payloads are words, as they are in a script that was read. -/
theorem Script.WordPayloads.exists_result {script : Script} (hwords : script.WordPayloads) {header : String} {sink : Sink}
    (h : sink.Accepts ((script.lines header).map Line.render)) : ∃ result, (script.writeTo header sink).outcome = .ok result := by
  cases houtcome : (script.writeTo header sink).outcome with
  | ok result => exact ⟨result, rfl⟩
  | error fault =>
    obtain ⟨j, -, hodd⟩ := (writeTo_error_iff h).1.mp ⟨fault, houtcome⟩
    exact absurd hodd (hwords.not_oddPayloadAt _)

/-- Whatever calls are made on a sink before and after a run:

* the run closes it;
* over its whole life it lets go of its medium once, so a stream that it owns is closed once and one that it borrowed is flushed
  once and never closed;
* it holds the writes before it was first closed, those of the run among them, as far as its medium took them, and it refuses every
  later write and is not changed by it;
* on a sink that was closed before, the run fails and leaves it as it was;
* on an open sink that takes its lines the run writes them all, and what comes of it depends on whether the sink can then let go of its
  medium. If it can, the run fails exactly when it comes to an operand that should be a word and is none, and only for this reason; so it
  has a result when the script was read from a container. If it cannot, that is how the run fails. -/
theorem Script.sink_life (script : Script) (header : String) (medium : Medium) (before later : List Call) :
    let early := Sink.after { medium := medium } before
    let texts := (script.lines header).map Line.render
    let run := script.writeTo header early
    let late := run.sink.after later
    run.sink.closed = true ∧
      late.releases = 1 ∧ (late.closes, late.flushes) = medium.parting ∧
      late.text = String.join (medium.kept (openWrites (before ++ script.calls header early ++ later))) ∧
      (∀ call, call.closes = false → late.call call = (late, some .closed)) ∧
      (early.closed = true →
        (∀ call, call.closes = false → early.call call = (early, some .closed)) ∧
          run.outcome = .error (.sink .closed) ∧ run.sink = early) ∧
      (early.Takes texts →
        script.calls header early = texts.map .fragment ++ [.close] ∧ run.sink.text = early.text ++ String.join texts ∧
          (medium.releaseFault? (early.writes + texts.length) = none →
            ((∃ fault, run.outcome = .error fault) ↔ script.MeetsOddPayload) ∧
              (∀ fault, run.outcome = .error fault → ∃ payload, fault = .payload payload) ∧
              ∀ data (decoder : Encoding.Decoder) forced, (Script.read data decoder forced).outcome = .ok script →
                ∃ result, run.outcome = .ok result) ∧
          ∀ fault, medium.releaseFault? (early.writes + texts.length) = some fault → run.outcome = .error (.sink fault)) := by
  intro early texts run late
  have hrefuse : ∀ sink : Sink, sink.closed = true →
      ∀ call, call.closes = false → sink.call call = (sink, some .closed) := by
    intro sink hclosed call hwrite
    rw [Sink.call_of_closed hclosed, hwrite]
    rfl
  have hearly : early.Tells medium before := Sink.tells_after medium before
  have hrun : run.sink.Tells medium (before ++ script.calls header early) := by
    have htells := Sink.tells_after medium (before ++ script.calls header early)
    rwa [Sink.after_append, ← script.writeTo_sink] at htells
  have hlate : late.Tells medium (before ++ script.calls header early ++ later) := by
    have htells := Sink.tells_after medium (before ++ script.calls header early ++ later)
    rwa [Sink.after_append, Sink.after_append, ← script.writeTo_sink] at htells
  have hclosed : run.sink.closed = true := by
    rw [hrun.closed, List.any_append, script.any_closes_calls, Bool.or_true]
  have hend : late.closed = true := by
    rw [hlate.closed, List.any_append, List.any_append, script.any_closes_calls, Bool.or_true, Bool.true_or]
  have hreleases := hlate.releases
  have hparted := hlate.parted
  rw [hend] at hreleases hparted
  refine ⟨hclosed, hreleases, hparted, hlate.text, hrefuse late hend, ?_, ?_⟩
  · intro hshut
    exact ⟨hrefuse early hshut, script.writeTo_closed header hshut⟩
  · intro htakes
    refine ⟨by rw [calls, Sink.attempts_of_takes htakes], ?_, ?_, ?_⟩
    · have htaken := (early.perform_fault_eq_none_iff htakes.1 (script.actions header)).mpr htakes
      rw [writeTo_sink_eq_close, Sink.close_text, Sink.perform_sink htaken]
      rfl
    · intro hrelease
      have haccepts : early.Accepts texts := ⟨htakes, hearly.same ▸ hrelease⟩
      obtain ⟨hiff, hpayload⟩ := writeTo_error_iff haccepts
      exact ⟨hiff, hpayload, fun data decoder forced hread => (wordPayloads_of_read hread).exists_result haccepts⟩
    · intro fault hfault
      refine writeTo_unreleased htakes ?_
      rw [hearly.same]
      simpa [texts] using hfault

/-- A run on a borrowed stream, after a line was written to it, that comes to a negative payload; and a run on a sink that was
closed. -/
theorem Script.sink_life_stream :
    let m : Script := { text := [⟨9, 0, 0⟩, ⟨0, 0, 0⟩, ⟨1, 0, -1⟩] }
    let early := Sink.after { medium := .stream false } [.line "a"]
    let shut := Sink.after { medium := .stream true } [.fragment "a", .leave]
    let late := (m.writeTo "x" early).sink.after [.blank, .close]
    early.Takes ((m.lines "x").map Line.render) ∧ m.MeetsOddPayload ∧
      (∃ fault, (m.writeTo "x" early).outcome = .error fault) ∧ (late.closes, late.flushes) = (0, 1) ∧
      late.text = "a\n; x\n\n.text\nEND\n\n" ∧ late.call (.comment "b") = (late, some .closed) ∧
      shut.closed = true ∧ (m.writeTo "x" shut).outcome = .error (.sink .closed) ∧ (m.writeTo "x" shut).sink.text = "a" := by
  intro m early shut late
  have htakes : early.Takes ((m.lines "x").map Line.render) := ⟨rfl, fun _ _ _ => rfl⟩
  have hshut : shut.closed = true := rfl
  obtain ⟨-, -, hparted, htext, hlater, -, hopen⟩ := sink_life m "x" (.stream false) [.line "a"] [.blank, .close]
  obtain ⟨-, -, -, -, -, hclosed, -⟩ := sink_life m "x" (.stream true) [.fragment "a", .leave] []
  have hodd : m.MeetsOddPayload := by
    refine ⟨1, fun i hi fault hfail => ?_, ⟨0, 0, 0⟩, ⟨1, 0, -1⟩, rfl, rfl, rfl, by decide⟩
    obtain rfl : i = 0 := by omega
    cases visit_error_of_failsAt (show m.text[0]? = some ⟨9, 0, 0⟩ from rfl) hfail
  obtain ⟨-, houtcome, hsame⟩ := hclosed hshut
  obtain ⟨hcalls, -, hfails, -⟩ := hopen htakes
  rw [hcalls, Medium.kept_of_taken fun _ _ _ => rfl] at htext
  exact ⟨htakes, hodd, (hfails rfl).1.mpr hodd, hparted, htext.trans rfl, hlater (.comment "b") rfl, hshut, houtcome,
    congrArg Sink.text hsame⟩

/-- A stream that takes every text and then cannot be closed: the run fails though the script was read from a container and all its
payloads are words, and nothing is wrong but that the device is full. -/
theorem Script.unreleased_without_result :
    let full : Stream := { releaseFault? := fun _ => some (.access ⟨28, "No space left on device", none⟩) }
    let sink : Sink := { medium := .stream true full }
    let script : Script := { text := [⟨9, 0, 9⟩] }
    (Script.read (bareHeader [1, 0, 0, 0] ++ [2, 0, 0, 0, 4, 0, 0, 0, 1, 0, 0, 0, 48, 0, 0, 0] ++ [9, 0, 0, 0]) "ascii" none).outcome =
        .ok script ∧
      sink.Takes ((script.lines "x").map Line.render) ∧ ¬script.MeetsOddPayload ∧
      (script.writeTo "x" sink).outcome = .error (.sink (.unreleased (.access ⟨28, "No space left on device", none⟩))) := by
  intro full sink script
  have hread : (Script.read (bareHeader [1, 0, 0, 0] ++ [2, 0, 0, 0, 4, 0, 0, 0, 1, 0, 0, 0, 48, 0, 0, 0] ++ [9, 0, 0, 0])
      "ascii" none).outcome = .ok script := by decide +kernel
  refine ⟨hread, ⟨rfl, fun _ _ _ => rfl⟩, ?_, rfl⟩
  rintro ⟨j, -, hodd⟩
  exact (wordPayloads_of_read hread).not_oddPayloadAt _ hodd

end FlowListing
