import FlowListing.Proofs.JobOutcome

/-!
# The command line before the environment

When the header, the encoding and the byte order of a job are all chosen, nothing of the environment is used. But its byte order is
looked at before, and one that is not accepted ends the command whatever was chosen (`Job.run_of_choosesAll`). This holds on every
host.
-/

namespace FlowListing

/-- The byte order in the environment is accepted: it is not there, it is empty, or it is the name of one, where white space around it
and upper case do not matter. -/
def Environment.Accepted (env : Environment) : Prop :=
  ∀ given, env.endianness = some given →
    given = "" ∨ Text.toLowerCase (Text.strip given) = "little" ∨ Text.toLowerCase (Text.strip given) = "big"

/-- The environment has a byte order to force, or none, exactly if it is accepted. -/
theorem Environment.exists_order_iff (env : Environment) : (∃ order, env.order = .ok order) ↔ env.Accepted := by
  unfold order Accepted
  cases env.endianness with
  | none => simp
  | some given =>
    simp only [Option.some.injEq, forall_eq']
    split
    · rename_i hempty
      exact iff_of_true ⟨_, rfl⟩ (.inl hempty)
    split
    · rename_i hlittle
      exact iff_of_true ⟨_, rfl⟩ (.inr (.inl hlittle))
    split
    · rename_i hbig
      exact iff_of_true ⟨_, rfl⟩ (.inr (.inr hbig))
    · rename_i hempty hlittle hbig
      refine iff_of_false ?_ ?_
      · rintro ⟨order, h⟩
        cases h
      · rintro (h | h | h)
        · exact hempty h
        · exact hlittle h
        · exact hbig h

/-- An environment that is accepted has settings for the reader. -/
theorem Environment.Accepted.exists_settings {env : Environment} (h : env.Accepted) :
    ∃ settings, ReaderSettings.ofEnvironment env = .ok settings := by
  obtain ⟨order, horder⟩ := env.exists_order_iff.mpr h
  rw [ReaderSettings.ofEnvironment, horder]
  exact ⟨_, rfl⟩

/-- An environment that is not accepted has a fault. -/
theorem Environment.exists_fault_of_not_accepted {env : Environment} (h : ¬env.Accepted) :
    ∃ fault, ReaderSettings.ofEnvironment env = .error fault := by
  rw [← env.exists_order_iff] at h
  cases horder : env.order with
  | ok order => exact absurd ⟨order, horder⟩ h
  | error fault =>
    rw [ReaderSettings.ofEnvironment, horder]
    exact ⟨fault, rfl⟩

namespace Command

open Container

/-! ## Everything is chosen -/

/-- A job for which the header, the encoding and the byte order are all chosen. -/
structure Job.ChoosesAll (job : Job) : Prop where
  header : ∃ header, job.header = some header
  encoding : ∃ encoding, job.encoding = some encoding
  order : ∃ order, job.order = some order

section Jobs

variable {host : Host} {job : Job} {env env' : Environment} {files : FileTree}

/-- A job for which everything is chosen does the same in all the environments that are accepted. -/
theorem Job.ChoosesAll.run_eq (hall : job.ChoosesAll) (h : env.Accepted) (h' : env'.Accepted) :
    job.run host env files = job.run host env' files := by
  obtain ⟨settings, hsettings⟩ := h.exists_settings
  obtain ⟨settings', hsettings'⟩ := h'.exists_settings
  obtain ⟨⟨header, hheader⟩, ⟨encoding, hencoding⟩, ⟨order, horder⟩⟩ := hall
  have hreader : settings.choose job.encoding job.order = settings'.choose job.encoding job.order := by
    rw [hencoding, horder]
    rfl
  have hlisting : (ListingSettings.ofEnvironment env).choose job.header = (ListingSettings.ofEnvironment env').choose job.header := by
    rw [hheader]
    rfl
  simp only [run, hsettings, hsettings', hreader, hlisting]

/-- In an environment that is not accepted a job leaves nothing but the exit code of an internal error. -/
theorem Job.effect_run_of_not_accepted (h : ¬env.Accepted) (host : Host) (job : Job) (files : FileTree) :
    (job.run host env files).effect = ⟨3, "", files⟩ := by
  obtain ⟨fault, hfault⟩ := Environment.exists_fault_of_not_accepted h
  have hplan : job.plan host env = .error (.internal fault.message) := by simp only [plan, hfault]
  exact effect_run_of_error hplan files

end Jobs

/-- When the header, the encoding and the byte order of a job are all chosen, on any host:

* two environments that are accepted are not told apart, not even on the error stream;
* in an environment that is not accepted the job ends as an internal error, with nothing printed and no file changed;
* so two environments lead to the same exit code, the same printed text and the same files exactly when both or neither of them is
  accepted, or the job ends in this way in both. -/
theorem Job.run_of_choosesAll (host : Host) {job : Job} (hall : job.ChoosesAll) (files : FileTree) (env env' : Environment) :
    (env.Accepted → env'.Accepted → job.run host env files = job.run host env' files) ∧
      (¬env.Accepted → (job.run host env files).effect = ⟨3, "", files⟩) ∧
      ((job.run host env files).effect = (job.run host env' files).effect ↔
        (env.Accepted ↔ env'.Accepted) ∨
          ((job.run host env files).effect = ⟨3, "", files⟩ ∧ (job.run host env' files).effect = ⟨3, "", files⟩)) := by
  refine ⟨hall.run_eq, fun h => effect_run_of_not_accepted h host job files, ?_⟩
  by_cases h : env.Accepted <;> by_cases h' : env'.Accepted
  · rw [hall.run_eq h h']
    exact iff_of_true rfl (.inl (iff_of_true h h'))
  · have hfails := effect_run_of_not_accepted h' host job files
    simp [h, h', hfails]
  · have hfails := effect_run_of_not_accepted h host job files
    simp [h, h', hfails, eq_comm]
  · have hfails := effect_run_of_not_accepted h host job files
    have hfails' := effect_run_of_not_accepted h' host job files
    simp [h, h', hfails, hfails']

/-- A container with one instruction. -/
def endContainer : List UInt8 :=
  bareHeader [1, 0, 0, 0] ++ [2, 0, 0, 0, 4, 0, 0, 0, 1, 0, 0, 0, 48, 0, 0, 0] ++ [9, 0, 0, 0]

/-- A job that chooses all there is to choose. -/
def choosyJob : Job where
  input := "a.bf"
  bytes := endContainer
  output := none
  header := some "x"
  encoding := some "ascii"
  order := some .little
  verbose := false

/-- An environment that asks for another header, an encoding that does not exist and the other byte order changes nothing. -/
theorem Job.run_of_choosesAll_end :
    let env : Environment := { header := some "y", encoding := some "no such", endianness := some " BIG " }
    choosyJob.ChoosesAll ∧ env.Accepted ∧ choosyJob.run .standard env {} = choosyJob.run .standard {} {} ∧
      (choosyJob.run .standard {} {}).exitCode = 0 := by
  intro env
  have hall : choosyJob.ChoosesAll := ⟨⟨_, rfl⟩, ⟨_, rfl⟩, ⟨_, rfl⟩⟩
  have haccepted : env.Accepted := env.exists_order_iff.mp ⟨some .big, by decide +kernel⟩
  have hempty : Environment.Accepted {} := Environment.exists_order_iff {} |>.mp ⟨none, rfl⟩
  exact ⟨hall, haccepted, (run_of_choosesAll .standard hall {} env {}).1 haccepted hempty, by decide +kernel⟩

/-- A byte order in the environment that is not accepted ends the command, although the byte order was chosen. -/
theorem Job.run_fails_with_order_given :
    (choosyJob.run .standard {} {}).effect = ⟨0, "; x\n\n.text\nEND\n\n.msgdata raw\n", {}⟩ ∧
      (choosyJob.run .standard { endianness := some "middle" } {}).effect = ⟨3, "", {}⟩ := by
  decide +kernel

end Command

end FlowListing
