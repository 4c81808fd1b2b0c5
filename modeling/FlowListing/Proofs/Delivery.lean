import FlowListing.Listing.Run

/-!
# What a sink holds after a run

Carrying out actions either takes them all or stops at a refused write. When all are taken, the sink holds its old text and then the
lines that the actions write (`Sink.perform_text`), and otherwise the first of these (`Sink.perform_written`). An open sink takes them
all exactly if it refuses none of the lines (`Sink.perform_fault_eq_none_iff`).

A run ends with what went wrong on its sink (`Script.writeTo_outcome`). On a sink that takes all the lines and can then be let go nothing
does, and what the run comes to depends on the script alone (`Script.outcome_of_accepts`).
-/

namespace FlowListing

/-- No lines are no text. -/
@[simp] theorem renderLines_nil : renderLines [] = "" := by
  simp [renderLines]

/-- The text of lines is the text of the first and of the others. -/
@[simp] theorem renderLines_cons (line : Line) (lines : List Line) :
    renderLines (line :: lines) = line.render ++ renderLines lines := by
  simp [renderLines]

/-- The text of lines and more lines is the text of both. -/
theorem renderLines_append (first second : List Line) :
    renderLines (first ++ second) = renderLines first ++ renderLines second := by
  simp [renderLines]

namespace Sink

/-- A write that is taken adds its text and counts; nothing else changes. -/
theorem write_eq_ok {sink after : Sink} {text : String} (h : sink.write text = .ok after) :
    sink.refusal? text = none ∧ after = sink.add text := by
  unfold write at h
  cases hr : sink.refusal? text with
  | some fault => simp [hr] at h
  | none =>
    rw [hr] at h
    exact ⟨rfl, (Except.ok.inj h).symm⟩

/-- The sink with the lines that were written to it. -/
def holding (sink : Sink) (written : List Line) : Sink :=
  { sink with text := sink.text ++ renderLines written, writes := sink.writes + written.length }

/-- A line and then others are held in this order. -/
theorem holding_cons (sink : Sink) (line : Line) (written : List Line) :
    sink.holding (line :: written) = (sink.add line.render).holding written := by
  simp only [holding, add, renderLines_cons, String.append_assoc, List.length_cons, Nat.add_assoc, Nat.add_comm 1]

/-- After actions a sink holds its old text and then the first of their lines, all of them unless a write was refused. -/
theorem perform_written (sink : Sink) (actions : List Action) :
    ∃ written, written <+: actions.filterMap Action.line? ∧ (sink.perform actions).sink = sink.holding written ∧
      ((sink.perform actions).fault = none → written = actions.filterMap Action.line?) := by
  induction actions generalizing sink with
  | nil => exact ⟨[], List.prefix_rfl, by simp [perform, holding], fun _ => rfl⟩
  | cons action rest ih =>
    cases action with
    | warn message => exact ih sink
    | write line =>
      have hlines : (Action.write line :: rest).filterMap Action.line? = line :: rest.filterMap Action.line? := rfl
      rw [hlines, perform]
      cases hw : sink.write line.render with
      | error fault => exact ⟨[], List.nil_prefix, by simp [holding], by simp⟩
      | ok after =>
        obtain ⟨-, rfl⟩ := write_eq_ok hw
        obtain ⟨written, hprefix, hsink, hall⟩ := ih (sink.add line.render)
        refine ⟨line :: written, (List.prefix_cons_inj line).mpr hprefix, ?_, fun hfault => by rw [hall hfault]⟩
        rw [holding_cons]
        exact hsink

/-- A sink that takes all the writes holds its old text and then the lines. -/
theorem perform_sink {sink : Sink} {actions : List Action} (h : (sink.perform actions).fault = none) :
    (sink.perform actions).sink = sink.holding (actions.filterMap Action.line?) := by
  obtain ⟨written, -, hsink, hall⟩ := sink.perform_written actions
  rw [hsink, hall h]

/-! ## Sinks that take all the lines -/

/-- The sink is open and takes these texts one after another. -/
def Takes (sink : Sink) (texts : List String) : Prop :=
  sink.closed = false ∧ ∀ i text, texts[i]? = some text → sink.medium.refusal? (sink.writes + i) text = none

/-- The sink takes these texts, and can then let go of its medium. -/
def Accepts (sink : Sink) (texts : List String) : Prop :=
  sink.Takes texts ∧ sink.medium.releaseFault? (sink.writes + texts.length) = none

/-- The sink is open, takes this many writes more, whatever they are, and can then let go of its medium. -/
def Admits (sink : Sink) (count : Nat) : Prop :=
  sink.closed = false ∧ (∀ i < count, ∀ text, sink.medium.refusal? (sink.writes + i) text = none) ∧
    sink.medium.releaseFault? (sink.writes + count) = none

/-- A sink that takes any texts takes these. -/
theorem Admits.accepts {sink : Sink} {texts : List String} (h : sink.Admits texts.length) : sink.Accepts texts := by
  obtain ⟨hopen, htakes, hrelease⟩ := h
  refine ⟨⟨hopen, fun i text htext => htakes i ?_ text⟩, hrelease⟩
  exact (List.getElem?_eq_some_iff.mp htext).1

/-- An open sink takes texts when it takes the first and then the others. -/
theorem takes_cons_iff {sink : Sink} {text : String} {texts : List String} :
    sink.Takes (text :: texts) ↔ sink.refusal? text = none ∧ (sink.add text).Takes texts := by
  unfold Takes refusal? add
  constructor
  · rintro ⟨hopen, htakes⟩
    refine ⟨?_, hopen, fun i other hother => ?_⟩
    · rw [hopen]
      exact htakes 0 text rfl
    · have := htakes (i + 1) other hother
      rwa [← Nat.add_assoc, Nat.add_right_comm] at this
  · rintro ⟨hrefusal, hopen, htakes⟩
    have hopen : sink.closed = false := hopen
    rw [hopen] at hrefusal
    refine ⟨hopen, fun i other hother => ?_⟩
    cases i with
    | zero =>
      obtain rfl : text = other := Option.some.inj hother
      exact hrefusal
    | succ i =>
      have := htakes i other hother
      rwa [← Nat.add_assoc, Nat.add_right_comm]

/-- An open sink takes all the lines of actions exactly if it refuses none of them. -/
theorem perform_fault_eq_none_iff {sink : Sink} (hopen : sink.closed = false) (actions : List Action) :
    (sink.perform actions).fault = none ↔ sink.Takes ((actions.filterMap Action.line?).map Line.render) := by
  induction actions generalizing sink with
  | nil => exact iff_of_true rfl ⟨hopen, by simp⟩
  | cons action rest ih =>
    cases action with
    | warn message => exact ih hopen
    | write line =>
      have hlines : ((Action.write line :: rest).filterMap Action.line?).map Line.render =
        line.render :: (rest.filterMap Action.line?).map Line.render := rfl
      rw [hlines, takes_cons_iff, perform, write]
      cases sink.refusal? line.render with
      | some fault => simp
      | none =>
        have hafter : (sink.add line.render).closed = false := hopen
        simpa using ih hafter

/-- An open buffer in memory. -/
def IsBuffer (sink : Sink) : Prop :=
  sink.medium = .memory ∧ sink.closed = false

/-- An open buffer takes any number of texts. -/
theorem IsBuffer.admits {sink : Sink} (h : sink.IsBuffer) (count : Nat) : sink.Admits count := by
  refine ⟨h.2, fun i hi text => ?_, ?_⟩
  · rw [h.1]
    rfl
  · rw [h.1]
    rfl

/-! ## Closing -/

/-- Closing a sink keeps its text. -/
@[simp] theorem close_text (sink : Sink) : sink.close.1.text = sink.text := by
  unfold close release
  split
  · rfl
  · simp only []
    split <;> rfl

/-- Closing an open sink fails when its medium cannot be let go. -/
theorem close_fault {sink : Sink} (hopen : sink.closed = false) : sink.close.2 = sink.medium.releaseFault? sink.writes := by
  rw [close, if_neg (by simp [hopen])]
  rfl

/-- Closing fails only because a medium cannot be let go. -/
theorem exists_unreleased_of_close {sink : Sink} {fault : SinkFault} (h : sink.close.2 = some fault) :
    ∃ reason, fault = .unreleased reason := by
  cases hclosed : sink.closed with
  | true => simp [close, hclosed] at h
  | false =>
    rw [close_fault hclosed] at h
    unfold Medium.releaseFault? at h
    split at h
    · obtain ⟨reason, -, rfl⟩ := Option.map_eq_some_iff.mp h
      exact ⟨reason, rfl⟩
    · cases h

/-- Nothing goes wrong on a sink exactly if it takes all the lines of actions and can then let go of its medium. -/
theorem perform_close_eq_none_iff {sink : Sink} (hopen : sink.closed = false) (actions : List Action) :
    (sink.perform actions).sink.close.2.or (sink.perform actions).fault = none ↔
      sink.Accepts ((actions.filterMap Action.line?).map Line.render) := by
  obtain ⟨written, -, hsink, hall⟩ := sink.perform_written actions
  have hclose : (sink.perform actions).sink.close.2 = sink.medium.releaseFault? (sink.writes + written.length) := by
    rw [hsink]
    exact close_fault hopen
  rw [Option.or_eq_none_iff, hclose, Accepts, ← perform_fault_eq_none_iff hopen, List.length_map]
  constructor
  · rintro ⟨hrelease, hfault⟩
    exact ⟨hfault, hall hfault ▸ hrelease⟩
  · rintro ⟨hfault, hrelease⟩
    exact ⟨hall hfault ▸ hrelease, hfault⟩

end Sink

/-! ## Runs -/

/-- What a run reports about a script. -/
def Script.report (script : Script) (header : String) (abort : Option Abort) : Result :=
  ⟨script.walk.visits.length, script.walk.reached, script.warnings header, abort⟩

/-- The outcome of a run that nothing on its sink ends. -/
def Script.outcome (script : Script) (header : String) : Except RunFault Result :=
  match script.walk.fault with
  | some (.payload fault) => .error (.payload fault)
  | some (.fatal abort) => .ok (script.report header abort)
  | none => .ok (script.report header none)

section Runs

variable {script : Script} {header : String} {sink : Sink} {result : Result}

/-- A run ends with what went wrong on its sink, and otherwise with what the walk came to. -/
theorem Script.writeTo_outcome (script : Script) (header : String) (sink : Sink) :
    (script.writeTo header sink).outcome =
      match (sink.perform (script.actions header)).sink.close.2.or (sink.perform (script.actions header)).fault with
      | some fault => .error (.sink fault)
      | none => script.outcome header := by
  unfold writeTo outcome
  simp only []
  cases (sink.perform (script.actions header)).sink.close.2.or (sink.perform (script.actions header)).fault with
  | some fault => rfl
  | none => rcases script.walk.fault with _ | (_ | _) <;> rfl

/-- On a sink that takes all the lines and can then be let go, the outcome of a run depends on the script alone. -/
theorem Script.outcome_of_accepts (h : sink.Accepts ((script.lines header).map Line.render)) :
    (script.writeTo header sink).outcome = script.outcome header := by
  rw [writeTo_outcome, (sink.perform_close_eq_none_iff h.1.1 _).mpr h]

/-- A run with a result met nothing that went wrong on its sink. -/
theorem Script.nothing_wrong_of_outcome (h : (script.writeTo header sink).outcome = .ok result) :
    (sink.perform (script.actions header)).sink.close.2 = none ∧ (sink.perform (script.actions header)).fault = none ∧
      script.outcome header = .ok result := by
  rw [writeTo_outcome] at h
  cases hwrong : (sink.perform (script.actions header)).sink.close.2.or (sink.perform (script.actions header)).fault with
  | some fault =>
    rw [hwrong] at h
    cases h
  | none =>
    rw [hwrong] at h
    obtain ⟨hclose, hfault⟩ := Option.or_eq_none_iff.mp hwrong
    exact ⟨hclose, hfault, h⟩

/-- Whatever stops a run, its sink is closed after the actions. -/
theorem Script.writeTo_sink_eq_close (script : Script) (header : String) (sink : Sink) :
    (script.writeTo header sink).sink = (sink.perform (script.actions header)).sink.close.1 := by
  simp only [writeTo]
  split <;> rfl

/-- What a run writes are the first of its lines, all of them unless something went wrong on its sink. -/
theorem Script.writeTo_written (script : Script) (header : String) (sink : Sink) :
    ∃ written, written <+: script.lines header ∧
      (script.writeTo header sink).sink.text = sink.text ++ renderLines written ∧
      ((∀ fault, (script.writeTo header sink).outcome ≠ .error (.sink fault)) → written = script.lines header) := by
  obtain ⟨written, hprefix, hsink, hall⟩ := sink.perform_written (script.actions header)
  refine ⟨written, hprefix, ?_, fun htaken => hall ?_⟩
  · rw [writeTo_sink_eq_close, Sink.close_text, hsink]
    rfl
  · rw [writeTo_outcome] at htaken
    cases hwrong : (sink.perform (script.actions header)).sink.close.2.or (sink.perform (script.actions header)).fault with
    | none => exact (Option.or_eq_none_iff.mp hwrong).2
    | some fault =>
      rw [hwrong] at htaken
      exact absurd rfl (htaken fault)

/-- A run with a result, stopped or not, has written all its lines. -/
theorem Script.writeTo_text (h : (script.writeTo header sink).outcome = .ok result) :
    (script.writeTo header sink).sink.text = sink.text ++ renderLines (script.lines header) := by
  obtain ⟨-, hfault, -⟩ := nothing_wrong_of_outcome h
  rw [writeTo_sink_eq_close, Sink.close_text, Sink.perform_sink hfault]
  rfl

/-- A run on a sink with room for its lines fails because of a payload, or it has a result. -/
theorem Script.outcome_of_admits (h : sink.Admits (script.lines header).length) :
    (∃ fault, script.walk.fault = some (.payload fault) ∧ (script.writeTo header sink).outcome = .error (.payload fault)) ∨
      ((∀ fault, script.walk.fault ≠ some (.payload fault)) ∧
        ∃ result, (script.writeTo header sink).outcome = .ok result) := by
  rw [outcome_of_accepts (Sink.Admits.accepts (by simpa using h)), outcome]
  rcases script.walk.fault with _ | (_ | _) <;> simp

/-- A result tells what stopped the walk, and counts what it visited. -/
theorem Script.walk_of_outcome (h : (script.writeTo header sink).outcome = .ok result) :
    script.walk.fault = result.abort.map StepFault.fatal ∧ result = script.report header result.abort := by
  obtain ⟨-, -, houtcome⟩ := nothing_wrong_of_outcome h
  unfold outcome at houtcome
  cases hf : script.walk.fault with
  | none =>
    rw [hf] at houtcome
    cases houtcome
    exact ⟨rfl, rfl⟩
  | some fault =>
    rw [hf] at houtcome
    cases fault with
    | payload fault => cases houtcome
    | fatal abort =>
      cases houtcome
      exact ⟨rfl, rfl⟩

end Runs

end FlowListing
