import Mathlib
import FlowListing.Proofs.Layout
import FlowListing.Proofs.Views

/-!
# Building a container and reading it back

An image holds what a container is built from: labels with room for names of a fixed size, slots, message data, strings, and any
sections of other types. `Image.build` lays them out, and reading the bytes gives exactly the script that the image stands for
(`Script.read_build`), in both byte orders, where the order is detected and not told.

What a slot is read as is said without the reader: an instruction has its opcode and its short, a word is a payload, and the other view
of the same four bytes follows from the halves of a word (`Cell.expected`).
-/

namespace FlowListing.Container

open Encoding

/-! ## Slots -/

/-- What a slot that was written in an order is read as. -/
def Cell.expected (order : ByteOrder) : Cell → Slot
  | .instruction opcode short => ⟨opcode.toNat, short.toInt, order.join opcode.toNat short.toUInt16.toNat⟩
  | .word value => ⟨order.firstHalf value.toNat, signedHalf (order.secondHalf value.toNat), value.toNat⟩

/-- The slot of a cell is the one that is expected. -/
theorem Cell.slot_eq_expected (order : ByteOrder) (cell : Cell) : cell.slot order = cell.expected order := by
  have hjoin := order.value_eq_join (cell.length_encode order)
  cases cell with
  | instruction opcode short =>
    have hopcode := Cell.opcode_slot order opcode short
    have hshort := Cell.short_slot order opcode short
    have hpayload : order.value ((Cell.instruction opcode short).encode order) =
        order.join opcode.toNat short.toUInt16.toNat := by
      have hfirst := order.length_bytes 2 opcode.toNat
      have hsecond := order.length_bytes 2 short.toUInt16.toNat
      rw [encode, order.value_append hfirst hsecond, order.value_bytes opcode.toNat_lt,
        order.value_bytes short.toUInt16.toNat_lt]
    rw [slot, slotOfBytes] at hopcode hshort ⊢
    simp only at hopcode hshort
    rw [hopcode, hshort, hpayload, expected]
  | word value =>
    have hvalue : order.value ((Cell.word value).encode order) = value.toNat := order.value_bytes value.toNat_lt
    have hfirst := order.field_two_lt ((Cell.word value).encode order) 0
    have hsecond := order.field_two_lt ((Cell.word value).encode order) 2
    rw [hvalue] at hjoin
    rw [slot, slotOfBytes, expected, hvalue, hjoin, order.firstHalf_join hfirst hsecond, order.secondHalf_join hfirst hsecond]

/-! ## Names -/

/-- A label is what an entry says: its name is the text of the bytes, and its offset is that of the entry. -/
def LabelEntry.Names (decoder : Decoder) (entry : LabelEntry) (label : Label) : Prop :=
  decodeText decoder entry.name = .ok label.name ∧ label.offset = entry.offset.toNat

/-- A name without a zero byte is what its field holds before the first one, also when it fills the field. -/
theorem LabelEntry.takeWhile_field {nameSize : Nat} {entry : LabelEntry} (hzero : 0 ∉ entry.name)
    (hsize : entry.name.length ≤ nameSize) : (entry.field nameSize).takeWhile (· ≠ 0) = entry.name := by
  have hfield : entry.field nameSize = entry.name ++ List.replicate (nameSize - entry.name.length) 0 := by
    rw [field, List.take_append, List.take_of_length_le hsize, List.take_replicate]
    congr 2
    omega
  have hname : ∀ b ∈ entry.name, decide (b ≠ 0) = true := by
    intro b hb
    exact decide_eq_true fun hb0 => hzero (hb0 ▸ hb)
  rw [hfield, List.takeWhile_append_of_pos hname, List.takeWhile_replicate]
  simp

/-- Labels whose names decode are read in order, each with its name and its offset. -/
theorem decodeLabels_eq_ok {decoder : Decoder} {nameSize : Nat} {entries : List LabelEntry} {labels : List Label}
    (hroom : 1 ≤ nameSize) (hnames : ∀ entry ∈ entries, 0 ∉ entry.name ∧ entry.name.length ≤ nameSize)
    (h : List.Forall₂ (LabelEntry.Names decoder) entries labels) : decodeLabels decoder nameSize entries = .ok labels := by
  rw [decodeLabels, if_neg (by omega)]
  induction h with
  | nil => rfl
  | @cons entry label entries labels hlabel _ ih =>
    obtain ⟨hzero, hsize⟩ := hnames entry List.mem_cons_self
    obtain ⟨hname, hoffset⟩ := hlabel
    have hentry : entry.decode decoder nameSize = .ok label := by
      rw [LabelEntry.decode, LabelEntry.takeWhile_field hzero hsize, readText, hname]
      change Except.ok (⟨label.name, entry.offset.toNat⟩ : Label) = .ok label
      rw [← hoffset]
    have hrest := ih fun other hother => hnames other (List.mem_cons_of_mem _ hother)
    rw [List.mapM_cons, hentry, hrest]
    rfl

/-! ## Images -/

/-- A section of a type that is not known, as it is written. -/
structure Extra where
  kind : Nat
  elementSize : Nat
  count : Nat
  bytes : List UInt8
  unknown : 4 < kind
  whole : bytes.length = elementSize * count

/-- The section as a part of a container. -/
def Extra.content (extra : Extra) : Content :=
  .other extra.kind extra.elementSize extra.count extra.bytes extra.unknown extra.whole

/-- What a container is built from. All labels have room for names of one size. -/
structure Image where
  preamble : Preamble := {}
  nameSize : Nat := 24
  procedures : List LabelEntry := []
  jumps : List LabelEntry := []
  text : List Cell := []
  message : List UInt8 := []
  strings : List UInt8 := []
  extras : List Extra := []

namespace Image

/-- The sections of an image: the five that are known, and then the others. -/
def contents (image : Image) : List Content :=
  [.procedures image.nameSize image.procedures, .jumps image.nameSize image.jumps, .text image.text, .message image.message,
    .strings image.strings] ++ image.extras.map Extra.content

/-- The container of an image: header, table and bodies, one after another. -/
def build (order : ByteOrder) (image : Image) : List UInt8 :=
  encode order image.preamble image.contents

/-- The image can be built: the names fit in their fields and hold no zero byte, there are at most 255 sections, and every number
that is written fits in its field. -/
structure Fits (image : Image) : Prop where
  room : 1 ≤ image.nameSize
  names : ∀ entry ∈ image.procedures ++ image.jumps, 0 ∉ entry.name ∧ entry.name.length ≤ image.nameSize
  most : 5 + image.extras.length ≤ 255
  labelSize : image.nameSize + 8 < 2 ^ 32
  extras : ∀ extra ∈ image.extras, extra.kind < 2 ^ 32 ∧ extra.elementSize < 2 ^ 32 ∧ extra.count < 2 ^ 32
  total : (image.build .little).length < 2 ^ 32

/-- A number that counts elements of at least one byte fits where their size does. -/
theorem count_lt_of_mem {contents : List Content} {content : Content} (h : content ∈ contents) (hsize : 1 ≤ content.elementSize)
    (htotal : bodyAddress contents + bodySize contents < 2 ^ 32) : content.count < 2 ^ 32 := by
  have hbody : content.elementSize * content.count ≤ bodySize contents :=
    List.le_sum_of_mem (List.mem_map_of_mem (f := fun content => content.elementSize * content.count) h)
  have hcount : content.count ≤ content.elementSize * content.count := Nat.le_mul_of_pos_left _ hsize
  omega

/-- The contents of an image that fits fit a container. A section is one of the five that are known, whose sizes are fixed, or one of the
others. -/
theorem Fits.contents {image : Image} (h : image.Fits) : Container.Fits image.contents := by
  have htotal : bodyAddress image.contents + bodySize image.contents < 2 ^ 32 := by
    rw [← length_encode .little image.preamble image.contents]
    exact h.total
  have hlabel := h.labelSize
  have hlength : image.contents.length = 5 + image.extras.length := by
    simp [Image.contents]
    omega
  have hcontent : ∀ content ∈ image.contents, content.kind < 2 ^ 32 ∧ content.elementSize < 2 ^ 32 ∧
      (1 ≤ content.elementSize ∨ content.count < 2 ^ 32) := by
    intro content hmem
    rcases List.mem_append.mp hmem with hknown | hother
    · simp only [List.mem_cons, List.not_mem_nil, or_false] at hknown
      rcases hknown with rfl | rfl | rfl | rfl | rfl <;> simp only [Content.kind, Content.elementSize] <;> omega
    · obtain ⟨extra, hextra, rfl⟩ := List.mem_map.mp hother
      obtain ⟨hkind, hsize, hcount⟩ := h.extras extra hextra
      exact ⟨hkind, hsize, .inr hcount⟩
  refine ⟨by omega, by rw [hlength]; exact h.most, fun content hmem => (hcontent content hmem).1,
    fun content hmem => (hcontent content hmem).2.1, ?_, htotal⟩
  intro content hmem
  rcases (hcontent content hmem).2.2 with hsize | hcount
  · exact count_lt_of_mem hmem hsize htotal
  · exact hcount

end Image

/-- Sections of types that are not known change nothing. -/
theorem foldlM_add_extras (decoder : Decoder) (draft : Draft) (extras : List Extra) :
    (extras.map Extra.content).foldlM (Draft.add decoder) draft = .ok draft := by
  induction extras with
  | nil => rfl
  | cons extra rest ih =>
    have hadd : draft.add decoder extra.content = .ok draft := rfl
    rw [List.map_cons, List.foldlM_cons, hadd]
    exact ih

end FlowListing.Container

namespace FlowListing

open Container Encoding

/-- Reading a container that was built from an image gives exactly the script of the image: its slots in order, its labels in order
with the names that their bytes decode to, its strings, and its message data. The byte order is detected. -/
theorem Script.read_build (order : ByteOrder) {image : Image} (hfits : image.Fits) (decoder : Decoder)
    {procedures jumps : List Label} {strings : StringTable}
    (hprocedures : List.Forall₂ (LabelEntry.Names decoder) image.procedures procedures)
    (hjumps : List.Forall₂ (LabelEntry.Names decoder) image.jumps jumps)
    (hstrings : readStrings decoder image.strings = .ok strings) :
    (Script.read (image.build order) decoder none).outcome = .ok
      { text := image.text.map (Cell.expected order), jumps := jumps, procedures := procedures, strings := strings,
        message := image.message } := by
  have hnames := hfits.names
  rw [List.forall_mem_append] at hnames
  have hlabels := decodeLabels_eq_ok hfits.room hnames.1 hprocedures
  have htargets := decodeLabels_eq_ok hfits.room hnames.2 hjumps
  have hdraft : image.contents.foldlM (Draft.add decoder) {} = .ok
      { procedures := some procedures, jumps := some jumps, text := some image.text, message := some image.message,
        strings := some strings } := by
    have hknown : [Content.procedures image.nameSize image.procedures, .jumps image.nameSize image.jumps, .text image.text,
        .message image.message, .strings image.strings].foldlM (Draft.add decoder) {} = .ok
          { procedures := some procedures, jumps := some jumps, text := some image.text, message := some image.message,
            strings := some strings } := by
      simp [Draft.add, Draft.has, Draft.take, hlabels, htargets, hstrings, Except.map, bind, Except.bind, pure, Except.pure]
    rw [Image.contents, List.foldlM_append, hknown]
    exact foldlM_add_extras decoder _ image.extras
  have hslots : image.text.map (Cell.slot order) = image.text.map (Cell.expected order) :=
    List.map_congr_left fun cell _ => cell.slot_eq_expected order
  rw [Image.build, read_encode order image.preamble hfits.contents decoder, hdraft]
  simp only [Except.map, Draft.parts, Parts.script, Option.map_some, Option.getD_some, hslots]

/-- A procedure whose name fills its field, a jump label with an accent, a number, and a section of a type that is not known. -/
def accentImage : Image where
  nameSize := 2
  procedures := [⟨[0x61, 0x62], 0, 0⟩]
  jumps := [⟨[0xE9], 4294967295, 7⟩]
  text := [.instruction 7 0, .instruction 0 (-1), .word 0x01020304, .instruction 9 (-32768)]
  message := [0xFF]
  strings := [0x68, 0, 0]
  extras := [⟨5, 1, 3, [1, 2, 3], by decide, rfl⟩]

/-- Built with the most significant bytes first, the halves of the number are an opcode and a short in the order in which they are
read. -/
theorem Script.read_build_accent :
    accentImage.Fits ∧ (Script.read (accentImage.build .big) "latin-1" none).outcome = .ok
      { text := [⟨7, 0, 0x70000⟩, ⟨0, -1, 0xFFFF⟩, ⟨0x0102, 0x0304, 0x01020304⟩, ⟨9, -32768, 0x98000⟩]
        jumps := [⟨"é", 4294967295⟩], procedures := [⟨"ab", 0⟩], strings := [(0, "h"), (2, "")], message := [0xFF] } := by
  have htotal : (accentImage.build .little).length < 2 ^ 32 := by
    rw [Image.build, length_encode]
    decide
  have hfits : accentImage.Fits := ⟨by decide, by decide, by decide, by decide, by decide, htotal⟩
  refine ⟨hfits, ?_⟩
  have hprocedures : List.Forall₂ (LabelEntry.Names "latin-1") accentImage.procedures [⟨"ab", 0⟩] :=
    .cons ⟨rfl, rfl⟩ .nil
  have hjumps : List.Forall₂ (LabelEntry.Names "latin-1") accentImage.jumps [⟨"é", 4294967295⟩] := .cons ⟨rfl, rfl⟩ .nil
  have htext : accentImage.text.map (Cell.expected .big) =
      [⟨7, 0, 0x70000⟩, ⟨0, -1, 0xFFFF⟩, ⟨0x0102, 0x0304, 0x01020304⟩, ⟨9, -32768, 0x98000⟩] := by decide
  rw [read_build .big hfits "latin-1" hprocedures hjumps rfl, htext]
  rfl

end FlowListing
