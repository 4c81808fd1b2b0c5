import FlowListing.Proofs.JobOutcome

/-!
# The standard output and the output file

A job that prints its listing and one that writes it to a file, whatever they are told to say, have the same plan (`Job.run_delivers`).
If nothing goes wrong on the way they have the same exit code, and the file gets the listing as it is. What the host prints of it is
another matter: a standard output that is no terminal gets it without its control sequences, and then the two agree on exactly the
listings in which no control sequence stands.
-/

namespace FlowListing.Text

/-! ## Control sequences -/

/-- The text starts with a control sequence. -/
def StartsControl (cs : List Char) : Prop :=
  ∃ parameters final rest, cs = escapeChar :: '[' :: (parameters ++ final :: rest) ∧
    (∀ c ∈ parameters, isParameter c = true) ∧ final.isAlpha = true

/-- A control sequence stands in the text. -/
def HasControl (s : String) : Prop :=
  ∃ before rest, s.toList = before ++ rest ∧ StartsControl rest

/-- A letter ends the parameters of a control sequence. -/
theorem isParameter_of_isAlpha {c : Char} (h : c.isAlpha = true) : isParameter c = false := by
  have hdigit : c.isDigit = false := by
    simp only [Char.isAlpha, Char.isUpper, Char.isLower, Char.isDigit] at h ⊢
    grind
  have hmark : ∀ mark : Char, mark.isAlpha = false → (c == mark) = false := by
    intro mark hmark
    rw [beq_eq_false_iff_ne]
    rintro rfl
    rw [h] at hmark
    cases hmark
  simp [isParameter, hdigit, hmark]

/-- The length of a control sequence is found where one starts. -/
theorem isSome_controlLength?_iff (cs : List Char) : (controlLength? cs).isSome = true ↔ StartsControl cs := by
  constructor
  · intro h
    unfold controlLength? at h
    split at h
    · rename_i esc bracket rest
      split at h
      · rename_i hlead
        split at h
        · rename_i final after hafter
          split at h
          · rename_i hfinal
            simp only [Bool.and_eq_true, beq_iff_eq] at hlead
            refine ⟨rest.takeWhile isParameter, final, after, ?_, fun c hc => List.mem_takeWhile_imp hc, hfinal⟩
            rw [hlead.1, hlead.2, ← hafter, List.takeWhile_append_dropWhile]
          · cases h
        · cases h
      · cases h
    · cases h
  · rintro ⟨parameters, final, rest, rfl, hparameters, hfinal⟩
    have hstop : isParameter final = false := isParameter_of_isAlpha hfinal
    have hafter : (parameters ++ final :: rest).dropWhile isParameter = final :: rest := by
      rw [List.dropWhile_append_of_pos hparameters, List.dropWhile_cons_of_neg (by simp [hstop])]
    simp [controlLength?, hafter, hfinal]

/-- Leaving control sequences out makes no text longer. -/
theorem length_dropControls_le (skip : Nat) (cs : List Char) : (dropControls skip cs).length ≤ cs.length := by
  fun_induction dropControls skip cs with
  | case1 => exact Nat.le_refl _
  | case2 skip c rest ih => exact Nat.le_succ_of_le ih
  | case3 c rest n hn ih => exact Nat.le_succ_of_le ih
  | case4 c rest hnone ih => exact Nat.succ_le_succ ih

/-- Leaving control sequences out leaves exactly those texts as they are in which none starts anywhere: where one is left out, the text
gets shorter. -/
theorem dropControls_eq_self_iff (cs : List Char) :
    dropControls 0 cs = cs ↔ ∀ before rest, cs = before ++ rest → ¬StartsControl rest := by
  induction cs with
  | nil =>
    refine iff_of_true rfl ?_
    rintro before rest hsplit ⟨parameters, final, after, rfl, -⟩
    simp at hsplit
  | cons c cs ih =>
    rw [dropControls]
    cases hlength : controlLength? (c :: cs) with
    | some n =>
      refine iff_of_false ?_ ?_
      · intro heq
        have hshort := length_dropControls_le (n - 1) cs
        have hlong := congrArg List.length heq
        simp only [List.length_cons] at hlong
        omega
      · intro hnone
        exact hnone [] (c :: cs) rfl ((isSome_controlLength?_iff _).mp (by rw [hlength]; rfl))
    | none =>
      have hhead : ¬StartsControl (c :: cs) := by
        rw [← isSome_controlLength?_iff, hlength]
        simp
      simp only [List.cons.injEq, true_and]
      rw [ih]
      constructor
      · intro hrest before rest hsplit
        cases before with
        | nil =>
          rw [List.nil_append] at hsplit
          rwa [← hsplit]
        | cons d before => exact hrest before rest (List.cons.inj hsplit).2
      · intro hall before rest hsplit
        exact hall (c :: before) rest (by rw [hsplit]; rfl)

/-- A text without control sequences is printed as it is, and no other text is. -/
theorem stripControls_eq_self_iff (s : String) : stripControls s = s ↔ ¬HasControl s := by
  have hlist : stripControls s = s ↔ dropControls 0 s.toList = s.toList := by
    rw [← String.toList_inj, stripControls, String.toList_ofList]
  rw [hlist, dropControls_eq_self_iff]
  constructor
  · rintro h ⟨before, rest, hsplit, hstart⟩
    exact h before rest hsplit hstart
  · intro h before rest hsplit hstart
    exact h ⟨before, rest, hsplit, hstart⟩

end FlowListing.Text

namespace FlowListing

/-! ## Bytes -/

/-- The bytes of a text in UTF-8. -/
def utf8Bytes (text : String) : List UInt8 :=
  text.toUTF8.data.toList

/-- A text can be told from its bytes. -/
theorem utf8Bytes_inj {text text' : String} : utf8Bytes text = utf8Bytes text' ↔ text = text' := by
  constructor
  · intro h
    exact String.toByteArray_inj.mp (ByteArray.ext (Array.toList_inj.mp h))
  · rintro rfl
    rfl

/-- What is written to the stream is stored in UTF-8. -/
def Stream.StoresUtf8 (stream : Stream) : Prop :=
  ∀ held, stream.stored held = utf8Bytes held

namespace Command

/-- What is printed loses its control sequences, as it does on a standard output that is no terminal, and nothing else. -/
def Host.StripsControls (host : Host) : Prop :=
  ∀ text shown, host.echo text = .ok shown → shown = Text.stripControls text

/-- A file that was written holds what was written. -/
theorem FileTree.node?_write {tree : FileTree} {path : String} {place : Place} (h : tree.target path = .ok place)
    (bytes : List UInt8) : (tree.write place bytes).node? place = some (.file bytes) := by
  have hplace : (place.all (· == "..") || place == ["/"]) = false := by
    cases hroot : place.all (· == "..") || place == ["/"] with
    | false => rfl
    | true =>
      have hnode : tree.node? place = some .directory := by rw [node?, if_pos hroot]
      unfold target at h
      split at h
      · cases h
      · split at h
        · cases h
        · rename_i hother
          cases h
          exact absurd hnode hother
  rw [node?, hplace]
  simp [write]

/-! ## Two runs -/

/-- A listing arrives exactly if its exit code is one of those that tell whether it was stopped. -/
theorem Host.exitCode_le_one_iff (host : Host) (header : String) (script : Script) (place? : Option Place) :
    host.exitCode header script place? ≤ 1 ↔ host.fault? header script place? = none := by
  cases hfault : host.fault? header script place? with
  | some fault =>
    rw [exitCode_of_fault hfault]
    cases fault.isDenied <;> simp
  | none =>
    rw [exitCode_of_arrives hfault, listingCode]
    split <;> simp

/-- What a job comes to when it prints its listing, and when it writes it to a file that can be written, on any host and however much it
is told to say:

* how much is said does not matter;
* the first changes no file, and the second prints nothing;
* if the job fails before it lists anything, both end with the same exit code, nothing is printed, and no file is changed;
* if there is a listing, stopped or not, each exit code tells whether it arrives. When both arrive the exit codes are the same, and the
  file holds the listing, and no other file is changed. So if the file is stored in UTF-8, it holds the bytes of what is printed exactly
  when the listing is printed as it is; and if control sequences are not printed, that is when none stands in it. -/
theorem Job.run_delivers (host : Host) (job : Job) (env : Environment) {files : FileTree} {path : String} {place : Place}
    (htarget : files.target (normalPath path) = .ok place) :
    ∃ printed written : Effect,
      (∀ verbose, ({ job with output := none, verbose := verbose }.run host env files).effect = printed ∧
        ({ job with output := some path, verbose := verbose }.run host env files).effect = written) ∧
      printed.files = files ∧ written.stdout = "" ∧
      (∀ failure, job.plan host env = .error failure → printed = ⟨failure.exitCode, "", files⟩ ∧ written = printed) ∧
      ∀ header script, job.plan host env = .ok (header, script) →
        let text := listingText header script
        let stream := host.stream place
        (printed.exitCode ≤ 1 ↔ ∃ shown, host.echo text = .ok shown) ∧
          (written.exitCode ≤ 1 ↔ stream.fault? (script.texts header) = none) ∧
          ∀ shown, host.echo text = .ok shown → stream.fault? (script.texts header) = none →
            written.exitCode = printed.exitCode ∧ printed.stdout = shown ∧
              written.files = files.write place (stream.stored text) ∧
              written.files.node? place = some (.file (stream.stored text)) ∧
              (stream.StoresUtf8 →
                (written.files.node? place = some (.file (utf8Bytes printed.stdout)) ↔ printed.stdout = text)) ∧
              (host.StripsControls → (printed.stdout = text ↔ ¬Text.HasControl text)) := by
  refine ⟨host.effect (job.plan host env) files none, host.effect (job.plan host env) files (some place), fun verbose => ⟨?_, ?_⟩, ?_⟩
  · have hprints : files.Routes none none := rfl
    exact Job.effect_run (by exact hprints) host env
  · have hwrites : files.Routes (some path) (some place) := ⟨path, rfl, htarget⟩
    exact Job.effect_run (by exact hwrites) host env
  cases hplan : job.plan host env with
  | error failure =>
    refine ⟨rfl, rfl, ?_, ?_⟩
    · rintro _ ⟨rfl⟩
      exact ⟨rfl, rfl⟩
    · intro header script h
      cases h
  | ok plan =>
    obtain ⟨header, script⟩ := plan
    refine ⟨rfl, rfl, ?_, ?_⟩
    · intro failure h
      cases h
    · rintro _ _ ⟨rfl, rfl⟩ text stream
      simp only [Host.effect]
      refine ⟨(host.exitCode_le_one_iff header script none).trans (host.prints_iff header script),
        host.exitCode_le_one_iff header script (some place), ?_⟩
      intro shown hshown htaken
      have htaken : host.fault? header script (some place) = none := htaken
      have hprints : host.fault? header script none = none := (host.prints_iff header script).mpr ⟨shown, hshown⟩
      have hstdout : host.printed text = shown := by rw [Host.printed, hshown]; rfl
      have hnode : (files.write place (stream.stored text)).node? place = some (.file (stream.stored text)) :=
        FileTree.node?_write htarget _
      rw [Host.exitCode_of_arrives htaken, Host.exitCode_of_arrives hprints, Host.written_of_arrives htaken, hstdout]
      refine ⟨rfl, rfl, rfl, hnode, ?_, ?_⟩
      · intro hutf8
        rw [hnode, hutf8 text, Option.some.injEq, Node.file.injEq, utf8Bytes_inj]
        exact eq_comm
      · intro hstrips
        rw [hstrips text shown hshown]
        exact Text.stripControls_eq_self_iff text

/-- A container whose second instruction cannot be listed. -/
def stoppedContainer : List UInt8 :=
  bareHeader [1, 0, 0, 0] ++ [2, 0, 0, 0, 4, 0, 0, 0, 2, 0, 0, 0, 48, 0, 0, 0] ++ [9, 0, 0, 0, 99, 0, 0, 0]

/-- The listing of a container that stops it, under a header. -/
def stoppedJob (header : String) : Job where
  input := "a.bf"
  bytes := stoppedContainer
  output := none
  header := some header
  encoding := none
  order := none
  verbose := false

/-- A listing that is stopped is the same on the standard output and in a file. -/
theorem Job.run_delivers_stopped :
    let printed := (stoppedJob "x").run .standard {} {}
    let written := { stoppedJob "x" with output := some "out", verbose := true }.run .standard {} {}
    written.exitCode = printed.exitCode ∧ printed.exitCode = 1 ∧ printed.stdout = "; x\n\n.text\nEND\n\n" ∧ written.stdout = "" ∧
      written.files.node? ["out"] = some (.file (utf8Bytes printed.stdout)) := by
  intro printed written
  have htarget : FileTree.target {} (normalPath "out") = .ok ["out"] := by decide +kernel
  have hplan : (stoppedJob "x").plan .standard {} = .ok ("x", { text := [⟨9, 0, 9⟩, ⟨99, 0, 99⟩] }) := by decide +kernel
  obtain ⟨printed', written', heffects, -, hempty, -, hlisting⟩ := run_delivers .standard (stoppedJob "x") {} htarget
  obtain rfl : printed.effect = printed' := (heffects false).1
  obtain rfl : written.effect = written' := (heffects true).2
  have hshown : Host.standard.echo (listingText "x" { text := [⟨9, 0, 9⟩, ⟨99, 0, 99⟩] }) = .ok "; x\n\n.text\nEND\n\n" := by
    decide +kernel
  obtain ⟨-, -, harrives⟩ := hlisting _ _ hplan
  obtain ⟨hcode, hstdout, -, -, hutf8, -⟩ := harrives _ hshown (by decide +kernel)
  refine ⟨hcode, by decide +kernel, hstdout, hempty, (hutf8 ?_).mpr ?_⟩
  · intro held
    rfl
  · exact hstdout.trans (by decide +kernel)

/-- A header with a control sequence is in the file and is not printed. -/
theorem Job.run_prints_less_than_file :
    let printed := (stoppedJob "\x1b[1mx").run .standard {} {}
    let written := { stoppedJob "\x1b[1mx" with output := some "out" }.run .standard {} {}
    printed.stdout = "; x\n\n.text\nEND\n\n" ∧
      written.files.node? ["out"] = some (.file (utf8Bytes "; \x1b[1mx\n\n.text\nEND\n\n")) ∧
      written.files.node? ["out"] ≠ some (.file (utf8Bytes printed.stdout)) := by
  decide +kernel

end Command

end FlowListing
