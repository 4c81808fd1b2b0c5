import FlowListing.Proofs.JobOutcome

/-!
# Exit codes

What a job comes to in an environment that sets nothing, on any host, by its exit code (`Job.run_exitCode`). A codec that fails in a way
of its own, instead of naming the bytes that it does not decode, ends the command as an internal error when reading meets text that it
fails on (`Container.Raises`); so does a listing that cannot be printed or written. Nothing else does. Among the codecs that fail in
such a way are those from bytes to bytes, which decode no text and are accepted as encodings all the same.
-/

namespace FlowListing.Command

open Container Encoding

/-! ## Without an environment -/

/-- The encoding that names and strings are read in when the environment has none. -/
def Job.encodingName (job : Job) : String :=
  job.encoding.getD "shift_jis"

/-- The header of the listing when the environment has none. -/
def Job.headerText (job : Job) : String :=
  job.header.getD ({} : ListingSettings).header

/-- The plan of a job in an environment that sets nothing. -/
theorem Job.plan_empty (job : Job) (host : Host) :
    job.plan host {} =
      match (Script.read job.bytes (host.decoder job.encodingName) job.order).outcome with
      | .error fault => .error (.ofRead fault)
      | .ok script => .ok (job.headerText, script) := by
  have horder : (job.order <|> none) = job.order := by cases job.order <;> rfl
  simp only [plan, ReaderSettings.ofEnvironment, Environment.order, Except.map, ReaderSettings.choose, horder]
  rfl

/-- The exit code of a job in an environment that sets nothing. -/
theorem Job.exitCode_run_empty {job : Job} {files : FileTree} {place? : Option Place} (h : files.Routes job.output place?)
    (host : Host) :
    (job.run host {} files).exitCode =
      match (Script.read job.bytes (host.decoder job.encodingName) job.order).outcome with
      | .error fault => (Failure.ofRead fault).exitCode
      | .ok script => host.exitCode job.headerText script place? := by
  have heffect := congrArg Effect.exitCode (job.effect_run h host {})
  rw [plan_empty] at heffect
  refine heffect.trans ?_
  cases (Script.read job.bytes (host.decoder job.encodingName) job.order).outcome with
  | error fault => rfl
  | ok script => cases place? <;> rfl

/-! ## Which exit code -/

/-- The listing of a script that was read is there in full, or was stopped at an instruction that cannot be listed. -/
theorem listing_of_read {data : List UInt8} {decoder : Decoder} {forced : Option ByteOrder} {script : Script}
    (hread : (Script.read data decoder forced).outcome = .ok script) (header : String) :
    (listingCode script = 0 ∧ ∃ text, script.listing header = .ok text) ∨
      (listingCode script = 1 ∧ ∃ abort, script.listing header = .error (.fatal abort)) := by
  obtain ⟨result, hreport, -⟩ := exists_report_of_read hread header
  unfold Script.outcome at hreport
  rcases hfault : script.walk.fault with _ | (abort | fault)
  · exact .inl ⟨by simp [listingCode, hfault], by simp [Script.listing, hfault]⟩
  · exact .inr ⟨by simp [listingCode, hfault], by simp [Script.listing, hfault]⟩
  · rw [hfault] at hreport
    cases hreport

/-- The exit code of a job in an environment that sets nothing, on any host, when there is somewhere for the listing to go. The input
is read exactly if it is well-formed, and the exit code is

* 0 exactly if the input is read, its listing is there in full, and it arrives;
* 1 exactly if the input is no container, or its listing was stopped at an instruction that cannot be listed, and arrives up to there;
* 2 exactly if there is a listing that does not arrive because the access to a file is denied;
* 3 exactly if the codec fails in a way of its own on text that reading meets, or there is a listing that does not arrive for another
  reason;
* none other. So where the codec only ever names bytes that it does not decode, and a listing arrives if there is one, it is 0 or 1. -/
theorem Job.run_exitCode (host : Host) {job : Job} {files : FileTree} {place? : Option Place}
    (hroute : files.Routes job.output place?) :
    let code := (job.run host {} files).exitCode
    let decoder := host.decoder job.encodingName
    let outcome := (Script.read job.bytes decoder job.order).outcome
    let fault? := fun script => host.fault? job.headerText script place?
    ((∃ script, outcome = .ok script) ↔ ∃ order, ReadIn job.bytes job.order order ∧ WellFormed order decoder job.bytes) ∧
      (code = 0 ↔ ∃ script text, outcome = .ok script ∧ script.listing job.headerText = .ok text ∧ fault? script = none) ∧
      (code = 1 ↔ (∃ fault, outcome = .error (.format fault)) ∨
        ∃ script abort, outcome = .ok script ∧ script.listing job.headerText = .error (.fatal abort) ∧ fault? script = none) ∧
      (code = 2 ↔ ∃ script fault, outcome = .ok script ∧ fault? script = some fault ∧ fault.isDenied = true) ∧
      (code = 3 ↔ (∃ order fault, ReadIn job.bytes job.order order ∧ Raises order decoder job.bytes fault) ∨
        ∃ script fault, outcome = .ok script ∧ fault? script = some fault ∧ fault.isDenied = false) ∧
      code ≤ 3 ∧
      (decoder.BlamesBytes → (∀ script, outcome = .ok script → fault? script = none) → code = 0 ∨ code = 1) := by
  intro code decoder outcome fault?
  have hjudges := Script.judges_read job.bytes decoder job.order
  have hcode : code = match outcome with
      | .error fault => (Failure.ofRead fault).exitCode
      | .ok script => host.exitCode job.headerText script place? := exitCode_run_empty hroute host
  have hraises : (∃ order fault, ReadIn job.bytes job.order order ∧ Raises order decoder job.bytes fault) ↔
      ∃ fault, outcome = .error (.codec fault) := by
    rw [exists_comm]
    exact exists_congr fun fault => (hjudges.codec_iff fault).symm
  refine ⟨hjudges.ok_iff, ?_⟩
  rw [hraises]
  rcases hjudges.cases with ⟨-, script, hok⟩ | ⟨fault, ⟨order, -, hmet⟩, hcodec⟩ | ⟨-, -, fault, hformat⟩
  · have hok : outcome = .ok script := hok
    have hcode : code = host.exitCode job.headerText script place? := by rw [hcode, hok]
    cases hfault : fault? script with
    | some fault =>
      have hfails := Host.exitCode_of_fault hfault
      cases hdenied : fault.isDenied <;> simp [hcode, hfails, hok, hfault, hdenied]
    | none =>
      rw [Host.exitCode_of_arrives hfault] at hcode
      rcases listing_of_read hok job.headerText with ⟨hzero, text, htext⟩ | ⟨hone, abort, habort⟩
      · simp [hcode, hzero, hok, hfault, htext]
      · simp [hcode, hone, hok, hfault, habort]
  · have hcodec : outcome = .error (.codec fault) := hcodec
    rw [hcodec] at hcode
    have hblames : ¬decoder.BlamesBytes := fun h => not_raises_of_blamesBytes h hmet
    simp [hcode, hcodec, hblames, Failure.ofRead, Failure.exitCode]
  · have hformat : outcome = .error (.format fault) := hformat
    rw [hformat] at hcode
    simp [hcode, hformat, Failure.ofRead, Failure.exitCode]

/-- A string that is no text in an encoding is a fault of the input. In an encoding from bytes to bytes the command fails on it, since
the codec fails in a way of its own. -/
theorem Job.run_exitCode_accent :
    let job (encoding : String) : Job := ⟨"a.bf", accentContainer, none, none, some encoding, none, false⟩
    ((job "utf-8").run .standard {} {}).exitCode = 1 ∧ ((job "hex").run .standard {} {}).exitCode = 3 ∧
      ∃ order fault, ReadIn accentContainer none order ∧ Raises order "hex" accentContainer fault := by
  intro job
  have hprinted : ∀ encoding, FileTree.Routes {} (job encoding).output none := fun _ => rfl
  have hdecoder : ∀ encoding, Host.standard.decoder (job encoding).encodingName = Decoder.named encoding := fun _ => rfl
  obtain ⟨-, -, hone, -⟩ := run_exitCode .standard (hprinted "utf-8")
  obtain ⟨-, -, -, -, hthree, -⟩ := run_exitCode .standard (hprinted "hex")
  rw [hdecoder] at hone hthree
  have hutf : ∃ fault, (Script.read accentContainer "utf-8" none).outcome = .error (.format fault) := ⟨_, rfl⟩
  have hhex : (Script.read accentContainer "hex" none).outcome = .error (.codec (.notText "hex")) := rfl
  obtain ⟨order, hread, hmet⟩ := ((Script.judges_read accentContainer "hex" none).codec_iff _).mp hhex
  exact ⟨hone.mpr (.inl hutf), hthree.mpr (.inl ⟨order, _, hread, hmet⟩), order, _, hread, hmet⟩

/-- An encoding from bytes to bytes is accepted, and then reported as an internal error. -/
theorem Job.run_fails_in_hex :
    let job : Job := ⟨"a.bf", accentContainer, none, none, some "hex", none, false⟩
    Host.standard.knows "hex" = true ∧
      job.run .standard {} {} =
        { exitCode := 3
          stderr := "Internal error: 'hex' is not a text encoding; use codecs.decode() to handle arbitrary codecs\n"
          files := {} } := by
  decide +kernel

end FlowListing.Command
