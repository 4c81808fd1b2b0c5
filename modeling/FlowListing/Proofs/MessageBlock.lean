import FlowListing.Proofs.Readback

/-!
# The message data of a listing

The message data are the last line of a listing and the only one without a line end, so they are found without reading what comes
before: header, names and strings may hold anything (`lastLine_of_complete`). Pairs of digits give the bytes back
(`Text.readDump_hexDump`). A run that does not complete stops before it writes them, and so it is the same run whatever they are
(`Script.writeTo_with_message`).
-/

namespace FlowListing

namespace Text

/-! ## Reading a dump -/

/-- The upper-case hexadecimal digits, in the order of their values. -/
def upperHexDigits : List Char :=
  ['0', '1', '2', '3', '4', '5', '6', '7', '8', '9', 'A', 'B', 'C', 'D', 'E', 'F']

/-- The bytes that pairs of upper-case digits stand for. -/
def readDump : List Char → Option (List UInt8)
  | [] => some []
  | [_] => none
  | high :: low :: rest => do
    let h ← upperHexDigits.idxOf? high
    let l ← upperHexDigits.idxOf? low
    let bytes ← readDump rest
    return UInt8.ofNat (16 * h + l) :: bytes

/-- The digit of a value is found at that value. -/
theorem idxOf?_hexDigit {d : ℕ} (h : d < 16) : upperHexDigits.idxOf? (hexDigit d) = some d := by
  have hall : ∀ d : Fin 16, upperHexDigits.idxOf? (hexDigit d) = some d.val := by decide
  exact hall ⟨d, h⟩

/-- The digit of a value is a digit. -/
theorem hexDigit_mem {d : ℕ} (h : d < 16) : hexDigit d ∈ upperHexDigits := by
  have hall : ∀ d : Fin 16, hexDigit d ∈ upperHexDigits := by decide
  exact hall ⟨d, h⟩

/-- A dump is read as the bytes that it was made of. -/
theorem readDump_hexDump (bytes : List UInt8) : readDump (hexDump bytes).toList = some bytes := by
  induction bytes with
  | nil => rw [toList_hexDump_nil, readDump]
  | cons b bytes ih =>
    have hb : b.toNat < 256 := b.toNat_lt
    have hbyte : UInt8.ofNat (16 * (b.toNat / 16) + b.toNat % 16) = b := by
      rw [Nat.div_add_mod, UInt8.ofNat_toNat]
    rw [toList_hexDump_cons, readDump, idxOf?_hexDigit (by omega), idxOf?_hexDigit (by omega), ih]
    exact congrArg (fun byte => some (byte :: bytes)) hbyte

/-- A dump has two digits for each byte. -/
theorem length_hexDump (bytes : List UInt8) : (hexDump bytes).toList.length = 2 * bytes.length := by
  induction bytes with
  | nil => rw [toList_hexDump_nil]; rfl
  | cons b bytes ih =>
    rw [toList_hexDump_cons, List.length_cons, List.length_cons, ih, List.length_cons]
    omega

/-- A dump is made of digits. -/
theorem mem_upperHexDigits_of_mem_hexDump {bytes : List UInt8} {c : Char} (h : c ∈ (hexDump bytes).toList) :
    c ∈ upperHexDigits := by
  induction bytes with
  | nil =>
    rw [toList_hexDump_nil] at h
    cases h
  | cons b bytes ih =>
    have hb : b.toNat < 256 := b.toNat_lt
    rw [toList_hexDump_cons] at h
    rcases List.mem_cons.mp h with rfl | h
    · exact hexDigit_mem (by omega)
    · rcases List.mem_cons.mp h with rfl | h
      · exact hexDigit_mem (by omega)
      · exact ih h

end Text

/-! ## The last line -/

/-- The text after the last line end. -/
def lastLine (text : List Char) : List Char :=
  text.rtakeWhile (· ≠ '\n')

/-- The last line is what stands behind a line end and holds none. -/
theorem lastLine_append {rest : List Char} (h : '\n' ∉ rest) (front : List Char) : lastLine (front ++ '\n' :: rest) = rest := by
  have hrest : ∀ c ∈ rest.reverse, decide (c ≠ '\n') = true := by
    intro c hc
    refine decide_eq_true fun hnewline => h ?_
    rw [← hnewline]
    exact List.mem_reverse.mp hc
  rw [lastLine, List.rtakeWhile, List.reverse_append, List.reverse_cons, List.append_assoc, List.takeWhile_append_of_pos hrest,
    List.singleton_append, List.takeWhile_cons_of_neg (by simp), List.append_nil, List.reverse_reverse]

/-- The last line of a run that was not stopped is the dump of its message data, and the mark of the message data is the line before
it. -/
theorem Script.lastLine_of_complete {script : Script} (header : String) (h : script.walk.fault = none) :
    lastLine (renderLines (script.lines header)).toList = (Text.hexDump script.message).toList ∧
      ∃ front, (renderLines (script.lines header)).toList =
        front ++ "\n.msgdata raw\n".toList ++ (Text.hexDump script.message).toList := by
  have hmark : (renderLines [.blank, .messageMark]).toList = "\n.msgdata raw\n".toList := by
    simp [Line.render]
  have htext : (renderLines (script.lines header)).toList =
      (renderLines ([.comment header, .blank, .textMark] ++ script.walk.visits.flatMap (Visit.lines script))).toList ++
        "\n.msgdata raw\n".toList ++ (Text.hexDump script.message).toList := by
    rw [text_of_complete header h, bodyLines, ← hmark]
    simp only [renderLines_append, String.toList_append, List.append_assoc]
    simp [Line.render]
  refine ⟨?_, _, htext⟩
  have hsplit : "\n.msgdata raw\n".toList = "\n.msgdata raw".toList ++ ['\n'] := by decide
  rw [htext, hsplit, ← List.append_assoc, List.append_assoc _ ['\n'], List.singleton_append]
  exact lastLine_append (Text.newline_not_mem_hexDump script.message) _

/-! ## Runs that do not complete -/

/-- A dump is a plain text. -/
theorem Text.isPlain_hexDump (bytes : List UInt8) : IsPlain (hexDump bytes) := by
  have hall : ∀ c ∈ upperHexDigits, c.toNat < 128 := by simp [upperHexDigits]
  exact fun c hc => hall c (mem_upperHexDigits_of_mem_hexDump hc)

/-- One plain text is to a medium what any other is. -/
theorem Medium.refusal?_plain (medium : Medium) (writes : Nat) {text other : String} (h : IsPlain text) (h' : IsPlain other) :
    medium.refusal? writes text = medium.refusal? writes other := by
  cases medium with
  | stream owned file => simp only [refusal?, file.plain writes text other h h']
  | memory | bounded limit | absent => rfl

/-- A sink that refuses a dump as the last of some writes refuses every dump in its place. -/
theorem Sink.perform_of_dump_refused {sink : Sink} {front : List Action} {bytes : List UInt8}
    (h : (sink.perform (front ++ [.write (.dump bytes)])).fault ≠ none) (other : List UInt8) :
    sink.perform (front ++ [.write (.dump other)]) = sink.perform (front ++ [.write (.dump bytes)]) := by
  induction front generalizing sink with
  | nil =>
    have hsame : sink.refusal? (Line.dump other).render = sink.refusal? (Line.dump bytes).render := by
      simp only [refusal?, Line.render,
        sink.medium.refusal?_plain sink.writes (Text.isPlain_hexDump other) (Text.isPlain_hexDump bytes)]
    rw [List.nil_append] at h
    rw [List.nil_append, List.nil_append]
    cases hrefusal : sink.refusal? (Line.dump bytes).render with
    | none => simp [perform, write, hrefusal] at h
    | some fault => simp [perform, write, hsame, hrefusal]
  | cons action front ih =>
    cases action with
    | warn message =>
      have hrest := ih h
      simp only [List.cons_append, perform, hrest]
    | write first =>
      rw [List.cons_append, perform] at h
      rw [List.cons_append, List.cons_append, perform, perform]
      cases hwrite : sink.write first.render with
      | error fault => rfl
      | ok after =>
        rw [hwrite] at h
        exact ih h

/-- A run of a complete walk that does not complete met a refused write, unless all its lines were taken and its sink could not be
let go. -/
theorem Script.perform_fault_of_incomplete {script : Script} {header : String} {sink : Sink} (hwalk : script.walk.fault = none)
    (h : ∀ result, (script.writeTo header sink).outcome = .ok result → result.abort ≠ none)
    (hrelease : ∀ fault, (script.writeTo header sink).outcome = .error (.sink (.unreleased fault)) →
      (sink.perform (script.actions header)).fault ≠ none) :
    (sink.perform (script.actions header)).fault ≠ none := by
  intro htaken
  rw [writeTo_outcome, htaken, Option.or_none] at h hrelease
  cases hclose : (sink.perform (script.actions header)).sink.close.2 with
  | none =>
    rw [hclose, outcome, hwalk] at h
    exact h _ rfl rfl
  | some fault =>
    obtain ⟨reason, rfl⟩ := Sink.exists_unreleased_of_close hclose
    rw [hclose] at hrelease
    exact hrelease reason rfl rfl

/-- A run that does not complete is the same run whatever the message data are. A walk that was stopped leads to no action that has them,
and otherwise a write was refused. -/
theorem Script.writeTo_with_message {script : Script} {header : String} {sink : Sink}
    (h : ∀ result, (script.writeTo header sink).outcome = .ok result → result.abort ≠ none)
    (hrelease : ∀ fault, (script.writeTo header sink).outcome = .error (.sink (.unreleased fault)) →
      script.walk.fault ≠ none ∨ (sink.perform (script.actions header)).fault ≠ none)
    (message : List UInt8) : { script with message := message }.writeTo header sink = script.writeTo header sink := by
  have hwalk := script.walk_with_message message
  cases hfault : script.walk.fault with
  | some fault =>
    have hactions : { script with message := message }.actions header = script.actions header := by
      simp only [actions, closing, hwalk, hfault]
      rfl
    simp only [writeTo, warnings, hactions, hwalk]
  | none =>
    have hrefused : (sink.perform (script.actions header)).fault ≠ none :=
      perform_fault_of_incomplete hfault h fun fault hunreleased => (hrelease fault hunreleased).resolve_left (not_not.mpr hfault)
    have hlast : ∀ other : Script, other.walk = script.walk → other.labelIndex = script.labelIndex →
        other.actions header = (opening header ++ script.walk.visits.flatMap (Visit.actions script.labelIndex) ++
          [.write .blank, .write .messageMark]) ++ [.write (.dump other.message)] := by
      intro other hsame hlabels
      simp only [actions, closing, hsame, hlabels, hfault, List.append_assoc, List.cons_append, List.nil_append]
    have hperform : sink.perform ({ script with message := message }.actions header) = sink.perform (script.actions header) := by
      rw [hlast script rfl rfl] at hrefused ⊢
      rw [hlast { script with message := message } hwalk rfl]
      exact Sink.perform_of_dump_refused hrefused _
    obtain ⟨fault, hsome⟩ := Option.ne_none_iff_exists'.mp hrefused
    have hwrong : ∃ wrong, (sink.perform (script.actions header)).sink.close.2.or (some fault) = some wrong := by
      cases (sink.perform (script.actions header)).sink.close.2 <;> simp
    obtain ⟨wrong, hwrong⟩ := hwrong
    simp only [writeTo, hperform, hsome, hwrong, hwalk]

/-- When a run completes, the text after the last line end of what it wrote is the message data: as many pairs of upper-case
hexadecimal digits as there are bytes, which are read as these bytes. The line before it is the mark of the message data. Neither
depends on what header, names and strings hold.

A run that was stopped writes neither the mark nor a dump, and no run that does not complete shows anything of the message data. Left
aside is only a run with no fault in its code and no line refused, whose sink then cannot be let go: it has written its message data. -/
theorem Script.message_recoverable (script : Script) (header : String) (sink : Sink) :
    (∀ result, (script.writeTo header sink).outcome = .ok result → result.abort = none →
      ∃ listing : String, (script.writeTo header sink).sink.text = sink.text ++ listing ∧
        (lastLine listing.toList).length = 2 * script.message.length ∧
        (∀ c ∈ lastLine listing.toList, c ∈ Text.upperHexDigits) ∧
        (∃ front, listing.toList = front ++ "\n.msgdata raw\n".toList ++ lastLine listing.toList) ∧
        Text.readDump (lastLine listing.toList) = some script.message) ∧
    (∀ result abort, (script.writeTo header sink).outcome = .ok result → result.abort = some abort →
      (script.writeTo header sink).sink.text = sink.text ++ renderLines (script.lines header) ∧
        Line.messageMark ∉ script.lines header ∧ ∀ bytes, Line.dump bytes ∉ script.lines header) ∧
    ((∀ result, (script.writeTo header sink).outcome = .ok result → result.abort ≠ none) →
      (∀ fault, (script.writeTo header sink).outcome = .error (.sink (.unreleased fault)) →
        script.walk.fault ≠ none ∨ (sink.perform (script.actions header)).fault ≠ none) →
      ∀ message, { script with message := message }.writeTo header sink = script.writeTo header sink) := by
  refine ⟨?_, ?_, writeTo_with_message⟩
  · intro result hrun hok
    obtain ⟨hfault, -⟩ := walk_of_outcome hrun
    rw [hok] at hfault
    obtain ⟨hlast, hfront⟩ := lastLine_of_complete header hfault
    refine ⟨renderLines (script.lines header), writeTo_text hrun, ?_⟩
    rw [hlast]
    exact ⟨Text.length_hexDump script.message, fun c => Text.mem_upperHexDigits_of_mem_hexDump, hfront,
      Text.readDump_hexDump script.message⟩
  · intro result abort hrun habort
    obtain ⟨hfault, -⟩ := walk_of_outcome hrun
    have hlines : ∀ line ∈ script.lines header, line ≠ .messageMark ∧ ∀ bytes, line ≠ .dump bytes := by
      intro line hline
      rw [script.lines_eq, hfault, habort, Option.map_some, Option.isSome_some, lastLines, if_pos rfl] at hline
      simp only [List.mem_append, List.mem_cons, List.not_mem_nil, or_false, List.mem_flatMap, List.mem_map] at hline
      rcases hline with ((rfl | rfl | rfl) | ⟨visit, -, hvisit⟩) | ⟨name, -, rfl⟩
      · simp
      · simp
      · simp
      · rcases visit.mem_lines hvisit with ⟨name, -, rfl⟩ | rfl | ⟨-, rfl⟩ <;> simp
      · simp
    exact ⟨writeTo_text hrun, fun hmem => (hlines _ hmem).1 rfl, fun bytes hmem => (hlines _ hmem).2 bytes rfl⟩

/-- A header and a name that hold the mark and digits of their own, and the same script stopped behind its first instruction. -/
theorem Script.message_recoverable_lookalike :
    let m : Script := { text := [⟨9, 0, 0⟩], jumps := [⟨"\n.msgdata raw\nFF", 0⟩], message := [10, 255, 0] }
    let stopped : Script := { m with text := [⟨9, 0, 0⟩, ⟨99, 0, 0⟩] }
    let sink : Sink := { medium := .memory }
    Text.readDump (lastLine (m.writeTo "x\n.msgdata raw\n00" sink).sink.text.toList) = some [10, 255, 0] ∧
      (stopped.writeTo "x" sink).sink.text = "; x\n\n.text\n\n.msgdata raw\nFF:\nEND\n\n" ∧
      Line.dump [10, 255, 0] ∉ stopped.lines "x" ∧
      { stopped with message := [] }.writeTo "x" sink = stopped.writeTo "x" sink := by
  intro m stopped sink
  have hrun : (m.writeTo "x\n.msgdata raw\n00" sink).outcome = .ok ⟨1, 1, [], none⟩ := rfl
  have hstopped : (stopped.writeTo "x" sink).outcome = .ok ⟨1, 1, [], some ⟨.unknownOpcode 99, some 1⟩⟩ := rfl
  obtain ⟨hcomplete, -, -⟩ := message_recoverable m "x\n.msgdata raw\n00" sink
  obtain ⟨-, habort, hsame⟩ := message_recoverable stopped "x" sink
  obtain ⟨listing, htext, -, -, -, hread⟩ := hcomplete _ hrun rfl
  obtain ⟨-, -, hdump⟩ := habort _ _ hstopped rfl
  rw [show sink.text = "" from rfl, String.empty_append] at htext
  refine ⟨htext ▸ hread, rfl, hdump _, hsame (fun result hresult => ?_) (fun fault hfault => ?_) []⟩
  · cases Except.ok.inj (hresult.symm.trans hstopped)
    simp
  · cases hfault.symm.trans hstopped

end FlowListing
