import FlowListing.Command.Run
import FlowListing.Proofs.Lifecycle

/-!
# What a job comes to

A job either fails before it lists anything, or it has a header and a script to list (`Job.plan`). Neither depends on where the
listing goes or on how much the command says. What the command leaves apart from the error stream follows from the plan and from what
the host does with the listing (`Job.effect_run`): a failure before the listing leaves nothing but its exit code; a listing is printed,
if the host can print it; or a file gets its lines, up to the first that its stream does not take.

Nothing is assumed of the host: neither of its decoders, nor of what it prints, nor of its streams.
-/

namespace FlowListing

/-! ## Streams -/

/-- What goes wrong is that the access to the file is denied. -/
def StreamFault.isDenied : StreamFault → Bool
  | .unencodable _ => false
  | .access fault => fault.isDenied

/-- How many of these texts a stream takes before it refuses one, when so many were written before. -/
def Stream.room (stream : Stream) : (writes : Nat) → (texts : List String) → Nat
  | _, [] => 0
  | writes, text :: rest => if (stream.refusal? writes text).isNone then stream.room (writes + 1) rest + 1 else 0

/-- A stream takes no more texts than there are. -/
theorem Stream.room_le (stream : Stream) (writes : Nat) (texts : List String) : stream.room writes texts ≤ texts.length := by
  induction texts generalizing writes with
  | nil => exact Nat.le_refl 0
  | cons text rest ih =>
    rw [room]
    split
    · exact Nat.succ_le_succ (ih (writes + 1))
    · exact Nat.zero_le _

/-- What goes wrong when these texts are written to a new stream one after another and it is then let go, if anything does. When a text
is refused and letting go fails too, the latter is what is reported. -/
def Stream.fault? (stream : Stream) (texts : List String) : Option StreamFault :=
  let taken := stream.room 0 texts
  (stream.releaseFault? taken).or (texts[taken]?.bind (stream.refusal? taken))

/-- What an open sink on a stream holds after actions, and the write that was refused: the lines are taken up to the first that the
stream refuses. -/
theorem Sink.perform_stream {sink : Sink} {owned : Bool} {stream : Stream} (hmedium : sink.medium = .stream owned stream)
    (hopen : sink.closed = false) (actions : List Action) :
    let lines := actions.filterMap Action.line?
    let taken := stream.room sink.writes (lines.map Line.render)
    (sink.perform actions).sink = sink.holding (lines.take taken) ∧
      (sink.perform actions).fault =
        ((lines.map Line.render)[taken]?.bind (stream.refusal? (sink.writes + taken))).map .refused := by
  induction actions generalizing sink with
  | nil => exact ⟨by simp [perform, holding], rfl⟩
  | cons action rest ih =>
    cases action with
    | warn message => exact ih hmedium hopen
    | write line =>
      have hlines : (Action.write line :: rest).filterMap Action.line? = line :: rest.filterMap Action.line? := rfl
      have hrefusal : sink.refusal? line.render = (stream.refusal? sink.writes line.render).map .refused := by
        rw [refusal?, hopen, hmedium]
        rfl
      simp only [hlines, List.map_cons, Stream.room, perform, write, hrefusal]
      cases hstream : stream.refusal? sink.writes line.render with
      | some fault => simp [holding, hstream]
      | none =>
        have hafter : (sink.add line.render).medium = .stream owned stream := hmedium
        obtain ⟨hsink, hfault⟩ := ih hafter hopen
        have hnext : ∀ n, sink.writes + (n + 1) = (sink.add line.render).writes + n := fun n => Nat.add_right_comm _ 1 n ▸ rfl
        simp only [Option.map_none, Option.isNone_none, if_true, List.take_succ_cons, holding_cons, List.getElem?_cons_succ, hnext]
        exact ⟨hsink, hfault⟩

namespace Script

/-- The texts that a run writes one after another. -/
def texts (script : Script) (header : String) : List String :=
  (script.lines header).map Line.render

/-- The lines of a listing that a stream takes. -/
def linesTaken (script : Script) (header : String) (stream : Stream) : List Line :=
  (script.lines header).take (stream.room 0 (script.texts header))

/-- After its actions a run on a new stream has written the lines that the stream takes, and the next line is the one that was refused. -/
theorem perform_new_stream (script : Script) (header : String) (stream : Stream) :
    let delivery := Sink.perform { medium := .stream true stream } (script.actions header)
    let taken := stream.room 0 (script.texts header)
    delivery.sink = Sink.holding { medium := .stream true stream } (script.linesTaken header stream) ∧
      delivery.fault = ((script.texts header)[taken]?.bind (stream.refusal? taken)).map .refused := by
  intro delivery taken
  have hnew : ({ medium := .stream true stream } : Sink).medium = .stream true stream := rfl
  obtain ⟨hsink, hfault⟩ := Sink.perform_stream hnew rfl (script.actions header)
  rw [Nat.zero_add] at hfault
  exact ⟨hsink, hfault⟩

/-- What goes wrong on the stream of a run: it cannot be let go after the lines that it took, or it refused the next one. -/
theorem wrong_on_stream (script : Script) (header : String) (stream : Stream) :
    let delivery := Sink.perform { medium := .stream true stream } (script.actions header)
    let taken := stream.room 0 (script.texts header)
    delivery.sink.close.2.or delivery.fault =
      ((stream.releaseFault? taken).map SinkFault.unreleased).or
        (((script.texts header)[taken]?.bind (stream.refusal? taken)).map .refused) := by
  intro delivery taken
  obtain ⟨hsink, hfault⟩ := script.perform_new_stream header stream
  have hwrites : delivery.sink.writes = taken := by
    have hroom : taken ≤ (script.lines header).length := (stream.room_le 0 (script.texts header)).trans_eq (List.length_map _)
    rw [hsink]
    exact (Nat.zero_add _).trans (List.length_take_of_le hroom)
  have hmedium : delivery.sink.medium = .stream true stream := by rw [hsink]; rfl
  have hopen : delivery.sink.closed = false := by rw [hsink]; rfl
  rw [Sink.close_fault hopen, hmedium, hwrites, hfault]
  rfl

/-- A run on a new stream leaves the lines that the stream takes. -/
theorem writeTo_stream_text (script : Script) (header : String) (stream : Stream) :
    (script.writeTo header { medium := .stream true stream }).sink.text = renderLines (script.linesTaken header stream) := by
  rw [writeTo_sink_eq_close, Sink.close_text, (script.perform_new_stream header stream).1]
  exact String.empty_append

/-- A run on a new stream ends as the script has it, or with what goes wrong on the stream. -/
theorem writeTo_stream_outcome (script : Script) (header : String) (stream : Stream) :
    let run := script.writeTo header { medium := .stream true stream }
    match stream.fault? (script.texts header) with
    | none => run.outcome = script.outcome header
    | some fault => run.outcome = .error (.sink (.refused fault)) ∨ run.outcome = .error (.sink (.unreleased fault)) := by
  intro run
  simp only [run, writeTo_outcome, wrong_on_stream, Stream.fault?]
  cases stream.releaseFault? (stream.room 0 (script.texts header)) with
  | some fault => exact .inr rfl
  | none =>
    cases (script.texts header)[stream.room 0 (script.texts header)]?.bind
        (stream.refusal? (stream.room 0 (script.texts header))) with
    | some fault => exact .inl rfl
    | none => rfl

/-- A stream on which nothing goes wrong takes the whole listing. -/
theorem renderLines_linesTaken {script : Script} {header : String} {stream : Stream}
    (h : stream.fault? (script.texts header) = none) :
    renderLines (script.linesTaken header stream) = renderLines (script.lines header) := by
  have hfault : (Sink.perform { medium := .stream true stream } (script.actions header)).fault = none := by
    rw [(script.perform_new_stream header stream).2]
    exact congrArg (Option.map SinkFault.refused) (Option.or_eq_none_iff.mp h).2
  rw [← writeTo_stream_text, writeTo_sink_eq_close, Sink.close_text, Sink.perform_sink hfault]
  exact String.empty_append

end Script

namespace Command

open Container Encoding

/-! ## Effects -/

/-- What a command leaves apart from what it says on the error stream. -/
structure Effect where
  exitCode : Nat
  stdout : String
  files : FileTree
  deriving DecidableEq, Repr

/-- The effect of an outcome. -/
def Outcome.effect (outcome : Outcome) : Effect :=
  ⟨outcome.exitCode, outcome.stdout, outcome.files⟩

/-- The exit code that a failure leads to. -/
def Failure.exitCode : Failure → Nat
  | .tool _ => 1
  | .parameter _ => 2
  | .access fault => if fault.isDenied then 2 else 3
  | .internal _ => 3

/-- The exit code does not depend on how much the command says, nor on what the error stream gets of it. -/
theorem Host.ending_exitCode (host : Host) (failure : Failure) (verbose : Bool) (activity : String) :
    (host.ending failure verbose activity).exitCode = failure.exitCode := by
  cases failure with
  | access fault =>
    simp only [ending, Failure.exitCode]
    split <;> rfl
  | _ => rfl

/-- A failure leaves its exit code, and what was printed and written before it. -/
theorem Host.effect_failed (host : Host) (failure : Failure) (verbose : Bool) (stderr : String) (files : FileTree) (stdout : String) :
    (host.failed failure verbose stderr files stdout).effect = ⟨failure.exitCode, stdout, files⟩ := by
  simp only [failed, Outcome.effect, ending_exitCode]

/-- What goes wrong on a stream is an internal error, unless the access to the file is denied. -/
theorem Failure.exitCode_ofStream (fault : StreamFault) :
    (Failure.ofStream fault).exitCode = if fault.isDenied then 2 else 3 := by
  cases fault <;> rfl

/-- A run without a result leaves the exit code of its fault. -/
theorem Host.effect_finish_error {run : Run} {fault : RunFault} (h : run.outcome = .error fault) (host : Host) (verbose : Bool)
    (said remarks : String) (printed : Except StreamFault String) (files : FileTree) :
    (host.finish verbose run said remarks printed files).effect = ⟨(Failure.ofRun fault).exitCode, "", files⟩ := by
  simp only [finish, h]
  exact host.effect_failed ..

/-- A result leaves what was printed, and its exit code tells whether the listing was stopped; unless printing fails. -/
theorem Host.effect_finish_ok {run : Run} {result : Result} (h : run.outcome = .ok result) (host : Host) (verbose : Bool)
    (said remarks : String) (printed : Except StreamFault String) (files : FileTree) :
    (host.finish verbose run said remarks printed files).effect =
      match printed with
      | .error fault => ⟨(Failure.ofStream fault).exitCode, "", files⟩
      | .ok stdout => ⟨if result.abort.isSome then 1 else 0, stdout, files⟩ := by
  unfold finish
  rw [h]
  cases printed with
  | error fault => exact host.effect_failed ..
  | ok stdout =>
    simp only []
    cases result.abort with
    | none => rfl
    | some abort => exact host.effect_failed ..

/-! ## Plans -/

/-- What a job has to list, a header and a script, or why it fails before it lists anything. -/
def Job.plan (job : Job) (host : Host) (env : Environment) : Except Failure (String × Script) :=
  match ReaderSettings.ofEnvironment env with
  | .error fault => .error (.internal fault.message)
  | .ok settings =>
    let settings := settings.choose job.encoding job.order
    match (Script.read job.bytes (host.decoder settings.encoding) settings.order).outcome with
    | .error fault => .error (.ofRead fault)
    | .ok script => .ok (((ListingSettings.ofEnvironment env).choose job.header).header, script)

/-- The exit code of a listing that arrives: whether it was stopped. -/
def listingCode (script : Script) : Nat :=
  if script.walk.fault.isSome then 1 else 0

/-- The text of a listing, in full or up to where it was stopped. -/
def listingText (header : String) (script : Script) : String :=
  renderLines (script.lines header)

/-- Where a listing goes, given the output file that is asked for: to the standard output if none is, or to the place of a file that
can be written. -/
def FileTree.Routes (tree : FileTree) (output : Option String) : Option Place → Prop
  | none => output = none
  | some place => ∃ path, output = some path ∧ tree.target (normalPath path) = .ok place

/-- Why a listing does not arrive where it goes, if it does not: it cannot be printed, or something goes wrong on the stream of the
file. -/
def Host.fault? (host : Host) (header : String) (script : Script) : Option Place → Option StreamFault
  | none =>
    match host.echo (listingText header script) with
    | .error fault => some fault
    | .ok _ => none
  | some place => (host.stream place).fault? (script.texts header)

/-- The exit code of a listing, whether it arrives or not. -/
def Host.exitCode (host : Host) (header : String) (script : Script) (place? : Option Place) : Nat :=
  match host.fault? header script place? with
  | some fault => (Failure.ofStream fault).exitCode
  | none => listingCode script

/-- A listing that does not arrive is an internal error, unless the access to the file is denied. -/
theorem Host.exitCode_of_fault {host : Host} {header : String} {script : Script} {place? : Option Place} {fault : StreamFault}
    (h : host.fault? header script place? = some fault) :
    host.exitCode header script place? = if fault.isDenied then 2 else 3 := by
  rw [exitCode, h]
  exact Failure.exitCode_ofStream fault

/-- The exit code of a listing that arrives tells whether it was stopped. -/
theorem Host.exitCode_of_arrives {host : Host} {header : String} {script : Script} {place? : Option Place}
    (h : host.fault? header script place? = none) : host.exitCode header script place? = listingCode script := by
  rw [exitCode, h]

/-- What is printed of a text: nothing, when it cannot be printed. -/
def Host.printed (host : Host) (text : String) : String :=
  (host.echo text).toOption.getD ""

/-- What a file gets of a listing: what its stream stores of the lines that it takes. -/
def Host.written (host : Host) (header : String) (script : Script) (place : Place) : List UInt8 :=
  (host.stream place).stored (renderLines (script.linesTaken header (host.stream place)))

/-- A listing that is printed arrives exactly if the host can print it. -/
theorem Host.prints_iff (host : Host) (header : String) (script : Script) :
    host.fault? header script none = none ↔ ∃ shown, host.echo (listingText header script) = .ok shown := by
  rw [fault?]
  cases host.echo (listingText header script) <;> simp

/-- A file gets the whole listing when it arrives. -/
theorem Host.written_of_arrives {host : Host} {header : String} {script : Script} {place : Place}
    (h : host.fault? header script (some place) = none) :
    host.written header script place = (host.stream place).stored (listingText header script) :=
  congrArg (host.stream place).stored (Script.renderLines_linesTaken h)

/-- The effect of a plan whose listing goes to a place, or to the standard output. -/
def Host.effect (host : Host) (plan : Except Failure (String × Script)) (files : FileTree) (place? : Option Place) : Effect :=
  match plan, place? with
  | .error failure, _ => ⟨failure.exitCode, "", files⟩
  | .ok (header, script), none => ⟨host.exitCode header script none, host.printed (listingText header script), files⟩
  | .ok (header, script), some place =>
    ⟨host.exitCode header script (some place), "", files.write place (host.written header script place)⟩

section Effects

variable {host : Host} {job : Job} {env : Environment} {header : String} {script : Script} {files : FileTree}

/-- A job that fails before it lists anything leaves nothing but the exit code. -/
theorem Job.effect_run_of_error {failure : Failure} (h : job.plan host env = .error failure) (files : FileTree) :
    (job.run host env files).effect = ⟨failure.exitCode, "", files⟩ := by
  unfold plan at h
  unfold run
  cases hsettings : ReaderSettings.ofEnvironment env with
  | error fault =>
    simp only [hsettings] at h ⊢
    cases h
    exact host.effect_failed ..
  | ok settings =>
    simp only [hsettings] at h ⊢
    cases hread : (Script.read job.bytes (host.decoder (settings.choose job.encoding job.order).encoding)
        (settings.choose job.encoding job.order).order).outcome with
    | error fault =>
      simp only [hread] at h ⊢
      cases h
      exact host.effect_failed ..
    | ok script =>
      simp only [hread] at h
      cases h

/-- The script of a plan was read from the input, and the run goes on to list it. -/
theorem Job.run_of_plan (h : job.plan host env = .ok (header, script)) (files : FileTree) :
    (∃ decoder forced, (Script.read job.bytes decoder forced).outcome = .ok script) ∧
      ∃ said, job.run host env files = writeListing host job header script said files := by
  unfold plan at h
  unfold run
  cases hsettings : ReaderSettings.ofEnvironment env with
  | error fault => simp [hsettings] at h
  | ok settings =>
    simp only [hsettings] at h ⊢
    cases hread : (Script.read job.bytes (host.decoder (settings.choose job.encoding job.order).encoding)
        (settings.choose job.encoding job.order).order).outcome with
    | error fault =>
      simp only [hread] at h
      cases h
    | ok other =>
      simp only [hread] at h ⊢
      cases h
      exact ⟨⟨_, _, hread⟩, _, rfl⟩

/-- A run that nothing on its sink ends, of a script that was read, has a result that tells whether the listing was stopped. -/
theorem exists_report_of_read {data : List UInt8} {decoder : Decoder} {forced : Option ByteOrder}
    (hread : (Script.read data decoder forced).outcome = .ok script) (header : String) :
    ∃ result, script.outcome header = .ok result ∧ (if result.abort.isSome then 1 else 0) = listingCode script := by
  have hbuffer : Sink.IsBuffer { medium := .memory } := ⟨rfl, rfl⟩
  obtain ⟨result, hresult⟩ := (Script.wordPayloads_of_read hread).exists_result (hbuffer.admits _).accepts
  obtain ⟨-, -, houtcome⟩ := Script.nothing_wrong_of_outcome hresult
  obtain ⟨hfault, -⟩ := Script.walk_of_outcome hresult
  refine ⟨result, houtcome, ?_⟩
  simp only [listingCode, hfault, Option.isSome_map]

section Listings

variable {data : List UInt8} {decoder : Decoder} {forced : Option ByteOrder}

/-- Without an output file the listing is printed, if it can be. -/
theorem effect_writeListing_printed (hread : (Script.read data decoder forced).outcome = .ok script) (hout : job.output = none)
    (header said : String) (files : FileTree) :
    (writeListing host job header script said files).effect = host.effect (.ok (header, script)) files none := by
  obtain ⟨result, hreport, hcode⟩ := exists_report_of_read hread header
  have hbuffer : Sink.IsBuffer { medium := .memory } := ⟨rfl, rfl⟩
  have houtcome : (script.writeTo header { medium := .memory }).outcome = .ok result :=
    (Script.outcome_of_accepts (hbuffer.admits _).accepts).trans hreport
  have htext : (script.writeTo header { medium := .memory }).sink.text = listingText header script := by
    rw [Script.writeTo_text houtcome]
    exact String.empty_append
  simp only [writeListing, hout, Host.effect_finish_ok houtcome, htext, hcode, Host.effect, Host.exitCode, Host.fault?, Host.printed]
  cases host.echo (listingText header script) with
  | error fault => rfl
  | ok shown => rfl

/-- An output file gets the lines that its stream takes. -/
theorem effect_writeListing_file (hread : (Script.read data decoder forced).outcome = .ok script) {path : String} {place : Place}
    (hout : job.output = some path) (htarget : files.target (normalPath path) = .ok place) (header said : String) :
    (writeListing host job header script said files).effect = host.effect (.ok (header, script)) files (some place) := by
  have houtcome := script.writeTo_stream_outcome header (host.stream place)
  simp only [writeListing, hout, htarget, Script.writeTo_stream_text, Host.effect, Host.exitCode, Host.fault?, Host.written]
  cases hfault : (host.stream place).fault? (script.texts header) with
  | some fault =>
    rw [hfault] at houtcome
    rcases houtcome with hrefused | hunreleased
    · exact Host.effect_finish_error hrefused ..
    · exact Host.effect_finish_error hunreleased ..
  | none =>
    obtain ⟨result, hreport, hcode⟩ := exists_report_of_read hread header
    rw [hfault] at houtcome
    simp only [Host.effect_finish_ok (houtcome.trans hreport), hcode]

end Listings

/-- A job whose listing has somewhere to go has the effect of its plan. -/
theorem Job.effect_run {place? : Option Place} (h : files.Routes job.output place?) (host : Host) (env : Environment) :
    (job.run host env files).effect = host.effect (job.plan host env) files place? := by
  cases hplan : job.plan host env with
  | error failure => exact effect_run_of_error hplan files
  | ok plan =>
    obtain ⟨header, script⟩ := plan
    obtain ⟨⟨decoder, forced, hread⟩, said, hrun⟩ := run_of_plan hplan files
    rw [hrun]
    cases place? with
    | none => exact effect_writeListing_printed hread h header said files
    | some place =>
      obtain ⟨path, hout, htarget⟩ := h
      exact effect_writeListing_file hread hout htarget header said

end Effects

end Command

end FlowListing
