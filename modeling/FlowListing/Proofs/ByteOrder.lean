import FlowListing.Listing.Run
import FlowListing.Proofs.Layout
import FlowListing.Proofs.Walk

/-!
# The listing does not depend on the byte order

Slots that were written in the two orders are not read as the same slots: the payload of an instruction differs, and so do the opcode
and the short of a word. A visit looks at none of these (`Script.visit_congr`): at the next slot it looks as a payload where the
operand fills it, and otherwise only to see whether it ends a procedure. So the walks are equal, visit by visit, and with them all
that is made of a walk.
-/

namespace FlowListing

open Container Encoding

/-! ## Walks that visits cannot tell apart -/

/-- Walks over slots that visits cannot tell apart are equal if they are so behind the first instruction. -/
theorem Script.walkFrom_congr (script : Script) {index : Nat} {slot slot' : Slot} {rest rest' : List Slot}
    (hopcode : slot.opcode = slot'.opcode) (hshort : slot.short = slot'.short)
    (hpayload : slot.takesNext = true → rest.head?.map Slot.payload = rest'.head?.map Slot.payload)
    (hnext : slot.takesNext = false → rest.head?.map Slot.endsProcedure = rest'.head?.map Slot.endsProcedure)
    (hlater : script.walkFrom (index + slot.stride) (rest.drop (slot.stride - 1)) =
      script.walkFrom (index + slot.stride) (rest'.drop (slot.stride - 1))) :
    script.walkFrom index (slot :: rest) = script.walkFrom index (slot' :: rest') := by
  have hvisit := visit_congr (.refl script) index hopcode hshort hpayload hnext
  have hstride : slot'.stride = slot.stride := by rw [Slot.stride, Slot.stride, Slot.takesNext, Slot.takesNext, hopcode]
  cases hresult : script.visit index slot rest.head? with
  | error fault => rw [walkFrom, walkFrom, ← hvisit, hresult]
  | ok visit =>
    rw [script.walkFrom_of_visit hresult, script.walkFrom_of_visit (hvisit ▸ hresult), hstride, hlater]

/-! ## Slots in the two orders -/

/-- The operand of the instruction with this opcode fills the next slot. -/
def TakesWord (opcode : UInt16) : Prop :=
  opcode.toNat = Opcode.pushi.code ∨ opcode.toNat = Opcode.pushf.code

instance (opcode : UInt16) : Decidable (TakesWord opcode) :=
  inferInstanceAs (Decidable (_ ∨ _))

/-- Slots that are written instruction by instruction. An instruction whose operand fills the next slot has a word there, unless it
is the last. -/
inductive IsProgram : List Cell → Prop where
  | nil : IsProgram []
  | ordinary {opcode : UInt16} (short : Int16) {rest : List Cell} (hopcode : ¬TakesWord opcode) (hrest : IsProgram rest) :
      IsProgram (.instruction opcode short :: rest)
  | extended {opcode : UInt16} (short : Int16) (value : UInt32) {rest : List Cell} (hopcode : TakesWord opcode)
      (hrest : IsProgram rest) : IsProgram (.instruction opcode short :: .word value :: rest)
  | cut {opcode : UInt16} (short : Int16) (hopcode : TakesWord opcode) : IsProgram [.instruction opcode short]

/-- Whether a slot takes the next one as its operand does not depend on the order. -/
theorem takesNext_slot (order : ByteOrder) (opcode : UInt16) (short : Int16) :
    ((Cell.instruction opcode short).slot order).takesNext = true ↔ TakesWord opcode := by
  simp only [Slot.takesNext, TakesWord, Cell.opcode_slot, Bool.or_eq_true, decide_eq_true_iff, Int.natCast_inj]

/-- The first slot is an instruction, so its opcode is read alike in the two orders. -/
theorem IsProgram.head_endsProcedure {cells : List Cell} (h : IsProgram cells) :
    (cells.map (Cell.slot .little)).head?.map Slot.endsProcedure =
      (cells.map (Cell.slot .big)).head?.map Slot.endsProcedure := by
  cases h <;> simp [Slot.endsProcedure]

/-- The walks over slots that were written in the two orders are equal. Of the slot behind an instruction only the opcode is looked at when
it is an instruction, and only the payload when it is a word. -/
theorem Script.walkFrom_slots (script : Script) {cells : List Cell} (h : IsProgram cells) (index : Nat) :
    script.walkFrom index (cells.map (Cell.slot .little)) = script.walkFrom index (cells.map (Cell.slot .big)) := by
  induction h generalizing index with
  | nil => rfl
  | @ordinary opcode short rest hopcode hrest ih =>
    have hone : ∀ order, ((Cell.instruction opcode short).slot order).takesNext = false := by
      intro order
      rwa [← Bool.not_eq_true, takesNext_slot]
    refine script.walkFrom_congr (by simp) (by simp) (fun htwo => ?_) (fun _ => hrest.head_endsProcedure) ?_
    · rw [hone] at htwo
      cases htwo
    · simpa [Slot.stride, hone] using ih (index + 1)
  | @extended opcode short value rest hopcode hrest ih =>
    have htwo : ∀ order, ((Cell.instruction opcode short).slot order).takesNext = true := by
      intro order
      rwa [takesNext_slot]
    refine script.walkFrom_congr (by simp) (by simp) (fun _ => by simp) (fun hone => ?_) ?_
    · rw [htwo] at hone
      cases hone
    · simpa [Slot.stride, htwo] using ih (index + 2)
  | cut short hopcode => exact script.walkFrom_congr (by simp) (by simp) (fun _ => rfl) (fun _ => rfl) rfl

/-! ## Scripts in the two orders -/

section WithText

variable (script : Script) {text : List Slot}

/-- All that is made of a script depends on its text section through the walk and the number of slots. -/
theorem Script.actions_with_text (hwalk : { script with text := text }.walk = script.walk) (header : String) :
    { script with text := text }.actions header = script.actions header := by
  unfold actions
  rw [hwalk]
  rfl

/-- A run with another text section on which the walk is the same has the same result. -/
theorem Script.writeTo_with_text (hwalk : { script with text := text }.walk = script.walk)
    (hlength : text.length = script.text.length) (header : String) (sink : Sink) :
    { script with text := text }.writeTo header sink = script.writeTo header sink := by
  simp only [writeTo, warnings, script.actions_with_text hwalk, hwalk, hlength]

/-- A listing with another text section on which the walk is the same is the same. -/
theorem Script.listing_with_text (hwalk : { script with text := text }.walk = script.walk) (header : String) :
    { script with text := text }.listing header = script.listing header := by
  simp only [listing, lines, script.actions_with_text hwalk, hwalk]

end WithText

end FlowListing

namespace FlowListing.Container

open Encoding

/-- The text section of a draft, if it has one, is written instruction by instruction. -/
def Draft.HasProgram (draft : Draft) : Prop :=
  ∀ cells, draft.text = some cells → IsProgram cells

/-- Adding the content of a section keeps the text section a program. -/
theorem Draft.HasProgram.add {decoder : Decoder} {draft more : Draft} {content : Content} (hdraft : draft.HasProgram)
    (hcontent : ∀ cells, content = .text cells → IsProgram cells) (h : draft.add decoder content = .ok more) :
    more.HasProgram := by
  rw [Draft.add] at h
  split at h
  · cases h
  cases content with
  | procedures nameSize entries | jumps nameSize entries =>
    obtain ⟨labels, -, rfl⟩ := exists_of_map_eq_ok h
    exact hdraft
  | text cells =>
    cases h
    rintro _ ⟨rfl⟩
    exact hcontent cells rfl
  | message bytes =>
    cases h
    exact hdraft
  | strings bytes =>
    obtain ⟨strings, -, rfl⟩ := exists_of_map_eq_ok h
    exact hdraft
  | other kind elementSize count bytes hkind hsize =>
    cases h
    exact hdraft

/-- Adding the contents of all sections keeps the text section a program. -/
theorem Draft.HasProgram.foldlM {decoder : Decoder} {contents : List Content} {draft more : Draft} (hdraft : draft.HasProgram)
    (hcontents : ∀ cells, Content.text cells ∈ contents → IsProgram cells)
    (h : contents.foldlM (Draft.add decoder) draft = .ok more) : more.HasProgram := by
  induction contents generalizing draft with
  | nil =>
    cases h
    exact hdraft
  | cons content rest ih =>
    rw [List.foldlM_cons] at h
    obtain ⟨next, hadd, hrest⟩ := exists_of_bind_eq_ok h
    refine ih (hdraft.add ?_ hadd) (fun cells hcells => hcontents cells (List.mem_cons_of_mem _ hcells)) hrest
    rintro cells rfl
    exact hcontents cells List.mem_cons_self

/-- The text section of a draft that holds a program is a program, also where there is none. -/
theorem Draft.HasProgram.isProgram {draft : Draft} (h : draft.HasProgram) : IsProgram (draft.text.getD []) := by
  cases htext : draft.text with
  | none => exact .nil
  | some cells => exact h cells htext

/-- The text section of the script is what the cells of the draft say in an order. -/
theorem Draft.text_script (draft : Draft) (order : ByteOrder) :
    (draft.parts order).script.text = (draft.text.getD []).map (Cell.slot order) := by
  unfold Parts.script parts
  cases draft.text <;> rfl

end FlowListing.Container

namespace FlowListing

open Container Encoding

/-- The walks over a draft that was written in the two orders are equal. -/
theorem Script.walk_parts {draft : Draft} (h : draft.HasProgram) :
    (draft.parts .big).script.walk = (draft.parts .little).script.walk := by
  calc (draft.parts .big).script.walk
      = (draft.parts .little).script.walkFrom 0 (draft.parts .big).script.text :=
        (draft.parts .little).script.walkFrom_with_text (draft.parts .big).script.text 0 (draft.parts .big).script.text
    _ = (draft.parts .little).script.walkFrom 0 (draft.parts .little).script.text := by
        rw [draft.text_script, draft.text_script, walkFrom_slots _ h.isProgram]
    _ = (draft.parts .little).script.walk := rfl

/-- Containers that are written in the two byte orders, with slots that make up instructions, are listed alike: on every sink the
runs are the same, with the same text, the same result and the same records, and so are the listings; or reading reports the same
fault. -/
theorem Script.writeTo_of_either_order (preamble : Preamble) (contents : List Content) (hfits : Fits contents)
    (hprogram : ∀ cells, Content.text cells ∈ contents → IsProgram cells) (decoder : Decoder) (header : String) (sink : Sink) :
    ((Script.read (encode .little preamble contents) decoder none).outcome.map fun script =>
        (script.writeTo header sink, script.listing header)) =
      (Script.read (encode .big preamble contents) decoder none).outcome.map fun script =>
        (script.writeTo header sink, script.listing header) := by
  rw [read_encode .little preamble hfits decoder, read_encode .big preamble hfits decoder]
  cases hdraft : contents.foldlM (Draft.add decoder) {} with
  | error fault => rfl
  | ok draft =>
    have hempty : Draft.HasProgram {} := by
      intro cells h
      cases h
    have hhas := hempty.foldlM hprogram hdraft
    have hwalk := walk_parts hhas
    have hlength : (draft.parts .big).script.text.length = (draft.parts .little).script.text.length := by
      rw [draft.text_script, draft.text_script, List.length_map, List.length_map]
    have hrun := (draft.parts .little).script.writeTo_with_text hwalk hlength header sink
    have hlisting := (draft.parts .little).script.listing_with_text hwalk header
    exact congrArg Except.ok (Prod.ext hrun.symm hlisting.symm)

/-- A procedure that pushes a number and a string, among sections one of which has a type that is not known. -/
def pushContents : List Content :=
  [.procedures 4 [⟨[0x6D], 0, 0⟩], .strings [0x68, 0x69, 0],
    .text [.instruction 7 0, .instruction 0 (-1), .word 0x01020304, .instruction 34 0, .instruction 9 0, .instruction 1 0],
    .other 9 2 1 [1, 2] (by decide) rfl]

/-- The last instruction has no word, so the listing is stopped there, at the same slot in both orders. -/
theorem Script.writeTo_of_either_order_push :
    Fits pushContents ∧ (∀ cells, Content.text cells ∈ pushContents → IsProgram cells) ∧
      ((Script.read (encode .little {} pushContents) "ascii" none).outcome.map fun script => script.walk.reached) = .ok 5 ∧
      ((Script.read (encode .little {} pushContents) "ascii" none).outcome.map fun script =>
          (script.writeTo "push" { medium := .memory }, script.listing "push")) =
        (Script.read (encode .big {} pushContents) "ascii" none).outcome.map fun script =>
          (script.writeTo "push" { medium := .memory }, script.listing "push") := by
  have hfits : Fits pushContents := ⟨by decide, by decide, by decide, by decide, by decide, by decide⟩
  have hprogram : ∀ cells, Content.text cells ∈ pushContents → IsProgram cells := by
    intro cells h
    obtain rfl : cells = _ := by simpa [pushContents] using h
    have hcut : IsProgram [.instruction 1 0] := .cut 0 (.inr rfl)
    have hend : IsProgram [.instruction 34 0, .instruction 9 0, .instruction 1 0] :=
      .ordinary 0 (by decide) (.ordinary 0 (by decide) hcut)
    exact .ordinary 0 (by decide) (.extended (-1) 0x01020304 (.inl rfl) hend)
  refine ⟨hfits, hprogram, ?_, writeTo_of_either_order {} pushContents hfits hprogram "ascii" "push" _⟩
  rw [read_encode .little {} hfits]
  rfl

end FlowListing
