import Mathlib
import FlowListing.Proofs.Acceptance

/-!
# Writing a container

A container is written as a header, a table, and the bodies of its sections one after another (`encode`). Reading it back gives what
was written: `Script.read_encode`. The names and strings are decoded in the order of the sections, and the first fault is the
outcome; all of this is the same in both byte orders (`Draft.add`), and only the slots of the text section are read in the order in
which they were written (`Cell.slot`).

That a place in the data holds certain bytes (`HasAt`) is split along with the bytes, so no address is computed twice.
-/

namespace FlowListing.Container

open Encoding

/-! ## Numbers -/

/-- The bytes of a number in a width, the least significant first. -/
def littleBytes : (width n : Nat) → List UInt8
  | 0, _ => []
  | width + 1, n => UInt8.ofNat n :: littleBytes width (n / 256)

/-- The bytes of a number in a width and an order. -/
def ByteOrder.bytes : ByteOrder → (width n : Nat) → List UInt8
  | .little, width, n => littleBytes width n
  | .big, width, n => (littleBytes width n).reverse

@[simp] theorem length_littleBytes (width n : Nat) : (littleBytes width n).length = width := by
  induction width generalizing n with
  | zero => rfl
  | succ width ih => rw [littleBytes, List.length_cons, ih]

@[simp] theorem ByteOrder.length_bytes (order : ByteOrder) (width n : Nat) : (order.bytes width n).length = width := by
  cases order <;> simp [bytes]

/-- The bytes of a number give back what fits into them. -/
theorem littleValue_littleBytes (width n : Nat) : littleValue (littleBytes width n) = n % 256 ^ width := by
  induction width generalizing n with
  | zero => rw [littleBytes, littleValue, Nat.pow_zero, Nat.mod_one]
  | succ width ih =>
    have hlow : (UInt8.ofNat n).toNat = n % 256 := UInt8.toNat_ofNat'
    rw [littleBytes, littleValue, ih, hlow, Nat.pow_succ', Nat.mod_mul]

/-- A number is the value of its bytes in every order, if it fits in them. -/
theorem ByteOrder.value_bytes (order : ByteOrder) {width n : Nat} (h : n < 256 ^ width) :
    order.value (order.bytes width n) = n := by
  have hlittle : littleValue (littleBytes width n) = n := by
    rw [littleValue_littleBytes, Nat.mod_eq_of_lt h]
  cases order with
  | little => exact hlittle
  | big => rw [value, bytes, List.reverse_reverse, hlittle]

/-! ## Bytes at an address -/

/-- The data has these bytes at an address. -/
def HasAt (data : List UInt8) (address : Nat) (bytes : List UInt8) : Prop :=
  bytes <+: data.drop address

namespace HasAt

variable {data first second bytes : List UInt8} {address : Nat}

/-- What has two parts has the first. -/
theorem left (h : HasAt data address (first ++ second)) : HasAt data address first :=
  (List.prefix_append first second).trans h

/-- What has two parts has the second behind the first. -/
theorem right (h : HasAt data address (first ++ second)) : HasAt data (address + first.length) second := by
  obtain ⟨rest, hrest⟩ := h
  refine ⟨rest, ?_⟩
  rw [← List.drop_drop, ← hrest, List.append_assoc, List.drop_left]

/-- Bytes that stand at an address are the slice from there. -/
theorem slice_eq (h : HasAt data address bytes) : slice data address bytes.length = bytes :=
  (List.prefix_iff_eq_take.mp h).symm

/-- Bytes that stand at an address lie inside the data. -/
theorem inside (h : HasAt data address bytes) (hsome : 0 < bytes.length) : address + bytes.length ≤ data.length := by
  have hle := h.length_le
  rw [List.length_drop] at hle
  omega

/-- A number that was written at an address is read there. -/
theorem field_eq {order : ByteOrder} {width n : Nat} (h : HasAt data address (order.bytes width n)) (hn : n < 256 ^ width) :
    order.field data address width = n := by
  have hslice := h.slice_eq
  rw [ByteOrder.length_bytes] at hslice
  rw [ByteOrder.field, hslice, order.value_bytes hn]

end HasAt

/-- Elements that take as many bytes each take that many times their number. -/
theorem length_flatMap_of_length {β : Type} {encode : β → List UInt8} {size : Nat} (hsize : ∀ x, (encode x).length = size)
    (elements : List β) : (elements.flatMap encode).length = size * elements.length := by
  induction elements with
  | nil => rfl
  | cons x rest ih => rw [List.flatMap_cons, List.length_append, hsize, ih, List.length_cons, Nat.mul_succ, Nat.add_comm]

/-- Elements that were written one after another, each in as many bytes as the others, are read one after another. -/
theorem readEach_of_hasAt {α β : Type} {data : List UInt8} {read : Int → Except ReadFault α} {size : Nat}
    {encode : β → List UInt8} {decode : β → Except ReadFault α} (hsize : ∀ x, (encode x).length = size)
    (hread : ∀ x (address : Nat), HasAt data address (encode x) → read address = decode x) (elements : List β) {address : Nat}
    (h : HasAt data address (elements.flatMap encode)) :
    readEach read size elements.length address = elements.mapM decode := by
  induction elements generalizing address with
  | nil => rfl
  | cons x rest ih =>
    rw [List.flatMap_cons] at h
    have hrest := h.right
    rw [hsize] at hrest
    rw [List.length_cons, readEach, hread x address h.left, List.mapM_cons, ← ih hrest, Int.natCast_add]

/-! ## Elements -/

/-- A slot as it is written: an instruction, or one word. -/
inductive Cell where
  | instruction (opcode : UInt16) (short : Int16)
  | word (value : UInt32)
  deriving DecidableEq, Repr

/-- The bytes of a slot. -/
def Cell.encode (order : ByteOrder) : Cell → List UInt8
  | .instruction opcode short => order.bytes 2 opcode.toNat ++ order.bytes 2 short.toUInt16.toNat
  | .word value => order.bytes 4 value.toNat

/-- The slot that is read from the bytes of a slot. -/
def Cell.slot (order : ByteOrder) (cell : Cell) : Slot :=
  slotOfBytes order (cell.encode order)

@[simp] theorem Cell.length_encode (order : ByteOrder) (cell : Cell) : (cell.encode order).length = slotSize := by
  cases cell <;> simp [encode, slotSize]

/-- All data stand at the start. -/
theorem HasAt.self (data : List UInt8) : HasAt data 0 data :=
  List.prefix_rfl

/-- The bits of a short, taken as a signed number, are the short. -/
theorem signedHalf_toUInt16 (short : Int16) : signedHalf short.toUInt16.toNat = short.toInt := by
  have hsigned : short.toInt = short.toBitVec.toInt := rfl
  have hbits : short.toUInt16.toNat = short.toBitVec.toNat := rfl
  unfold signedHalf
  rw [hsigned, hbits, BitVec.toInt_eq_toNat_bmod]

/-- An instruction is read with its opcode, in every order. -/
@[simp] theorem Cell.opcode_slot (order : ByteOrder) (opcode : UInt16) (short : Int16) :
    ((Cell.instruction opcode short).slot order).opcode = opcode.toNat := by
  have h := (HasAt.self ((Cell.instruction opcode short).encode order)).left
  exact congrArg Int.ofNat (h.field_eq opcode.toNat_lt)

/-- An instruction is read with its short, in every order. -/
@[simp] theorem Cell.short_slot (order : ByteOrder) (opcode : UInt16) (short : Int16) :
    ((Cell.instruction opcode short).slot order).short = short.toInt := by
  have h := (HasAt.self ((Cell.instruction opcode short).encode order)).right
  rw [ByteOrder.length_bytes] at h
  have hfield := h.field_eq short.toUInt16.toNat_lt
  rw [Nat.zero_add] at hfield
  rw [slot, slotOfBytes, hfield, signedHalf_toUInt16]

/-- A word is read as a payload, in every order. -/
@[simp] theorem Cell.payload_slot (order : ByteOrder) (value : UInt32) :
    ((Cell.word value).slot order).payload = value.toNat :=
  congrArg Int.ofNat (order.value_bytes value.toNat_lt)

/-- Slots that stand at an address are read as the cells they were written from. -/
theorem readSlots_of_hasAt (order : ByteOrder) {data : List UInt8} {address : Nat} {cells : List Cell}
    (h : HasAt data address (cells.flatMap (Cell.encode order))) :
    readSlots order data ⟨(4 : Nat), cells.length, address⟩ = .ok (cells.map (Cell.slot order)) := by
  have hread : ∀ (cell : Cell) (address : Nat), HasAt data address (cell.encode order) →
      readSlot order data.toArray address = .ok (cell.slot order) := by
    intro cell address hcell
    have hinside := hcell.inside (by rw [Cell.length_encode]; decide)
    have hslice := hcell.slice_eq
    rw [Cell.length_encode] at hinside hslice
    rw [readSlot_of_inside order hinside, hslice, Cell.slot]
  have hslots := readEach_of_hasAt (Cell.length_encode order) hread cells h
  exact hslots.trans List.mapM_pure

/-- A label as it is written: the bytes of its name, its offset, and the word that is not used. -/
structure LabelEntry where
  name : List UInt8
  offset : UInt32
  unused : UInt32 := 0
  deriving DecidableEq, Repr

namespace LabelEntry

/-- The name in a field of a fixed width, filled up with zero bytes. -/
def field (nameSize : Nat) (entry : LabelEntry) : List UInt8 :=
  (entry.name ++ List.replicate nameSize 0).take nameSize

/-- The bytes of a label. -/
def encode (order : ByteOrder) (nameSize : Nat) (entry : LabelEntry) : List UInt8 :=
  entry.field nameSize ++ (order.bytes 4 entry.offset.toNat ++ order.bytes 4 entry.unused.toNat)

/-- The label that is read from the bytes of a label, if its name decodes. -/
def decode (decoder : Decoder) (nameSize : Nat) (entry : LabelEntry) : Except ReadFault Label :=
  (readText decoder (.labelName decoder.name) ((entry.field nameSize).takeWhile (· ≠ 0))).map fun text =>
    ⟨text, entry.offset.toNat⟩

@[simp] theorem length_field (nameSize : Nat) (entry : LabelEntry) : (entry.field nameSize).length = nameSize := by
  simp [field]

/-- A container ends where its body ends. -/
@[simp] theorem length_encode (order : ByteOrder) (nameSize : Nat) (entry : LabelEntry) :
    (entry.encode order nameSize).length = nameSize + 8 := by
  simp [encode]

end LabelEntry

/-- The labels that are read from the bytes of labels. A field without room for a name is refused. -/
def decodeLabels (decoder : Decoder) (nameSize : Nat) (entries : List LabelEntry) : Except ReadFault (List Label) :=
  if nameSize = 0 then .error (.format (.labelSize 8)) else entries.mapM (LabelEntry.decode decoder nameSize)

/-- Labels that stand at an address are read as the entries they were written from. -/
theorem readLabels_of_hasAt (order : ByteOrder) (decoder : Decoder) {data : List UInt8} {address nameSize : Nat}
    {entries : List LabelEntry} (h : HasAt data address (entries.flatMap (LabelEntry.encode order nameSize))) :
    readLabels order decoder data ⟨(nameSize + 8 : Nat), entries.length, address⟩ = decodeLabels decoder nameSize entries := by
  have hread : ∀ (entry : LabelEntry) (address : Nat), HasAt data address (entry.encode order nameSize) →
      readLabel order decoder nameSize data.toArray address = entry.decode decoder nameSize := by
    intro entry address hentry
    have hinside := hentry.inside (by rw [LabelEntry.length_encode]; omega)
    have hname := hentry.left.slice_eq
    have hoffset := hentry.right.left.field_eq entry.offset.toNat_lt
    rw [LabelEntry.length_encode] at hinside
    rw [LabelEntry.length_field] at hname hoffset
    rw [readLabel_of_inside order decoder hinside, hname, hoffset, LabelEntry.decode]
  have hlabels := readEach_of_hasAt (LabelEntry.length_encode order nameSize) hread entries h
  have hsize : ((nameSize + 8 : Nat) : Int) - labelTail = nameSize := by
    rw [labelTail]
    omega
  unfold readLabels decodeLabels
  by_cases hzero : nameSize = 0
  · rw [if_pos hzero, hzero]
    rfl
  · have hlarge : ¬((nameSize + 8 : Nat) : Int) ≤ labelTail := by
      rw [labelTail]
      omega
    simp only [if_neg hzero, if_neg hlarge, hsize]
    exact hlabels

/-- Bytes that stand at an address are read as they are. -/
theorem readBytes_of_hasAt {data bytes : List UInt8} {address : Nat} (h : HasAt data address bytes) (kind : Nat) :
    readBytes data ⟨kind, 1, bytes.length, address⟩ = .ok bytes := by
  have hslice : slice data address (1 * bytes.length) = bytes := by rw [Nat.one_mul, h.slice_eq]
  exact congrArg Except.ok hslice

/-! ## Sections -/

/-- A section as it is written. A section of a type that is not known has some bytes, of which the table says how many elements they
are. -/
inductive Content where
  | procedures (nameSize : Nat) (entries : List LabelEntry)
  | jumps (nameSize : Nat) (entries : List LabelEntry)
  | text (cells : List Cell)
  | message (bytes : List UInt8)
  | strings (bytes : List UInt8)
  | other (kind elementSize count : Nat) (bytes : List UInt8) (hkind : 4 < kind) (hsize : bytes.length = elementSize * count)

namespace Content

/-- The type of a section. -/
def kind : Content → Nat
  | .procedures .. => 0
  | .jumps .. => 1
  | .text _ => 2
  | .message _ => 3
  | .strings _ => 4
  | .other kind .. => kind

/-- The size of an element of a section. -/
def elementSize : Content → Nat
  | .procedures nameSize _ | .jumps nameSize _ => nameSize + 8
  | .text _ => 4
  | .message _ | .strings _ => 1
  | .other _ elementSize .. => elementSize

/-- How many elements a section has. -/
def count : Content → Nat
  | .procedures _ entries | .jumps _ entries => entries.length
  | .text cells => cells.length
  | .message bytes | .strings bytes => bytes.length
  | .other _ _ count .. => count

/-- The bytes of a section. -/
def encode (order : ByteOrder) : Content → List UInt8
  | .procedures nameSize entries | .jumps nameSize entries => entries.flatMap (LabelEntry.encode order nameSize)
  | .text cells => cells.flatMap (Cell.encode order)
  | .message bytes | .strings bytes | .other _ _ _ bytes .. => bytes

/-- The entry of a section in the table. -/
def entry (content : Content) (address : Nat) : Section :=
  ⟨content.kind, content.elementSize, content.count, address⟩

/-- A section has as many bytes as its entry says, in every order. -/
theorem length_encode (order : ByteOrder) (content : Content) :
    (content.encode order).length = content.elementSize * content.count := by
  cases content with
  | procedures nameSize entries | jumps nameSize entries =>
    exact length_flatMap_of_length (LabelEntry.length_encode order nameSize) entries
  | text cells => exact length_flatMap_of_length (Cell.length_encode order) cells
  | message bytes | strings bytes => exact (Nat.one_mul _).symm
  | other kind elementSize count bytes hkind hsize => exact hsize

end Content

/-! ## What the sections give -/

/-- What sections give, with the text section still as it is written. -/
structure Draft where
  procedures : Option (List Label) := none
  jumps : Option (List Label) := none
  text : Option (List Cell) := none
  message : Option (List UInt8) := none
  strings : Option StringTable := none

/-- The parts of a script that was written in an order. -/
def Draft.parts (order : ByteOrder) (draft : Draft) : Parts where
  procedures := draft.procedures
  jumps := draft.jumps
  text := draft.text.map (List.map (Cell.slot order))
  message := draft.message
  strings := draft.strings

/-- A section of the same known type has come before. -/
def Draft.has (draft : Draft) : Content → Bool
  | .procedures .. => draft.procedures.isSome
  | .jumps .. => draft.jumps.isSome
  | .text _ => draft.text.isSome
  | .message _ => draft.message.isSome
  | .strings _ => draft.strings.isSome
  | .other .. => false

/-- The draft with what one more section gives. -/
def Draft.take (decoder : Decoder) (draft : Draft) : Content → Except ReadFault Draft
  | .procedures nameSize entries =>
    (decodeLabels decoder nameSize entries).map fun labels => { draft with procedures := some labels }
  | .jumps nameSize entries =>
    (decodeLabels decoder nameSize entries).map fun labels => { draft with jumps := some labels }
  | .text cells => .ok { draft with text := some cells }
  | .message bytes => .ok { draft with message := some bytes }
  | .strings bytes => (readStrings decoder bytes).map fun strings => { draft with strings := some strings }
  | .other .. => .ok draft

/-- The draft with one more section, whose type has to be new. -/
def Draft.add (decoder : Decoder) (draft : Draft) (content : Content) : Except ReadFault Draft :=
  if draft.has content then .error (.format (.duplicateSection content.kind)) else draft.take decoder content

/-- The parts of a draft have the types that the draft has. -/
theorem Draft.has_parts (order : ByteOrder) (draft : Draft) (content : Content) :
    (draft.parts order).has content.kind = draft.has content := by
  cases content with
  | procedures | jumps | message | strings => rfl
  | text => exact Option.isSome_map
  | other kind elementSize count bytes hkind hsize =>
    obtain ⟨later, rfl⟩ : ∃ later, kind = later + 5 := ⟨kind - 5, by omega⟩
    rfl

/-- A section that was written is read back into the draft. -/
theorem readSection_of_hasAt {order : ByteOrder} (decoder : Decoder) {data : List UInt8} {address : Nat} {content : Content}
    (h : HasAt data address (content.encode order)) (draft : Draft) :
    (readSection order decoder data (draft.parts order) (content.entry address)).map (Option.getD · (draft.parts order)) =
      (draft.add decoder content).map (Draft.parts order) := by
  by_cases hhas : draft.has content = true
  · have hparts : (draft.parts order).has (content.entry address).kind = true := (draft.has_parts order content).trans hhas
    rw [readSection, Draft.add, if_pos hparts, if_pos hhas]
    rfl
  · have hparts : ¬(draft.parts order).has (content.entry address).kind = true := by rwa [← draft.has_parts order] at hhas
    rw [readSection, Draft.add, if_neg hparts, if_neg hhas]
    cases content with
    | procedures nameSize entries =>
      have hlabels : readLabels order decoder data ((Content.procedures nameSize entries).entry address).extent =
        decodeLabels decoder nameSize entries := readLabels_of_hasAt order decoder h
      change ((readLabels order decoder data _).map _).map _ = _
      rw [hlabels, Draft.take]
      cases decodeLabels decoder nameSize entries <;> rfl
    | jumps nameSize entries =>
      have hlabels : readLabels order decoder data ((Content.jumps nameSize entries).entry address).extent =
        decodeLabels decoder nameSize entries := readLabels_of_hasAt order decoder h
      change ((readLabels order decoder data _).map _).map _ = _
      rw [hlabels, Draft.take]
      cases decodeLabels decoder nameSize entries <;> rfl
    | text cells =>
      have hslots : readSlots order data ((Content.text cells).entry address).extent = .ok (cells.map (Cell.slot order)) :=
        readSlots_of_hasAt order h
      change ((readSlots order data _).map _).map _ = _
      rw [hslots]
      rfl
    | message bytes =>
      have hbytes : readBytes data ((Content.message bytes).entry address) = .ok bytes := readBytes_of_hasAt h _ 
      change ((readBytes data _).map _).map _ = _
      rw [hbytes]
      rfl
    | strings bytes =>
      have hbytes : readBytes data ((Content.strings bytes).entry address) = .ok bytes := readBytes_of_hasAt h _
      change ((readBytes data _ >>= readStrings decoder).map _).map _ = _
      rw [hbytes, Draft.take]
      change ((readStrings decoder bytes).map _).map _ = _
      cases readStrings decoder bytes <;> rfl
    | other kind elementSize count bytes hkind hsize =>
      obtain ⟨later, rfl⟩ : ∃ later, kind = later + 5 := ⟨kind - 5, by omega⟩
      rfl

/-! ## Containers -/

/-- The parts of a header that tell nothing about the sections. -/
structure Preamble where
  fileType : UInt8 := 0
  userId : UInt16 := 0
  localInts : UInt16 := 0
  localReals : UInt16 := 0

/-- The entries of sections whose bodies follow one another from an address on. -/
def entriesFrom (address : Nat) : List Content → List Section
  | [] => []
  | content :: rest => content.entry address :: entriesFrom (address + content.elementSize * content.count) rest

/-- The size of the bodies of sections. -/
def bodySize (contents : List Content) : Nat :=
  (contents.map fun content => content.elementSize * content.count).sum

/-- Where the first body stands, after the header and the table. -/
def bodyAddress (contents : List Content) : Nat :=
  32 + 16 * contents.length

/-- The bytes of a header. -/
def Preamble.encode (order : ByteOrder) (preamble : Preamble) (contents : List Content) : List UInt8 :=
  order.bytes 1 preamble.fileType.toNat ++ (order.bytes 1 0 ++ (order.bytes 2 preamble.userId.toNat ++
    (order.bytes 4 (bodyAddress contents + bodySize contents) ++ (magic ++ (order.bytes 4 0 ++
    (order.bytes 4 contents.length ++ (order.bytes 2 preamble.localInts.toNat ++ (order.bytes 2 preamble.localReals.toNat ++
    order.bytes 8 0))))))))

/-- The bytes of an entry of the table. -/
def Section.encode (order : ByteOrder) (s : Section) : List UInt8 :=
  order.bytes 4 s.kind ++ (order.bytes 4 s.elementSize ++ (order.bytes 4 s.count ++ order.bytes 4 s.address))

/-- The bytes of a container. -/
def encode (order : ByteOrder) (preamble : Preamble) (contents : List Content) : List UInt8 :=
  preamble.encode order contents ++ ((entriesFrom (bodyAddress contents) contents).flatMap (Section.encode order) ++
    contents.flatMap (Content.encode order))

/-- Sections that a container can have: there are between 1 and 255 of them, and all the numbers of the table fit in 32 bits. -/
structure Fits (contents : List Content) : Prop where
  some : 1 ≤ contents.length
  most : contents.length ≤ 255
  kinds : ∀ content ∈ contents, content.kind < 2 ^ 32
  sizes : ∀ content ∈ contents, content.elementSize < 2 ^ 32
  counts : ∀ content ∈ contents, content.count < 2 ^ 32
  total : bodyAddress contents + bodySize contents < 2 ^ 32

@[simp] theorem Preamble.length_encode (order : ByteOrder) (preamble : Preamble) (contents : List Content) :
    (preamble.encode order contents).length = 32 := by
  simp [encode, magic]

@[simp] theorem Section.length_encode (order : ByteOrder) (s : Section) : (s.encode order).length = 16 := by
  simp [encode]

@[simp] theorem length_entriesFrom (address : Nat) (contents : List Content) :
    (entriesFrom address contents).length = contents.length := by
  induction contents generalizing address with
  | nil => rfl
  | cons content rest ih => rw [entriesFrom, List.length_cons, ih, List.length_cons]

/-- The contents of all sections take up the size of the body. -/
theorem length_flatMap_encode (order : ByteOrder) (contents : List Content) :
    (contents.flatMap (Content.encode order)).length = bodySize contents := by
  simp [bodySize, List.length_flatMap, Content.length_encode]

/-- A container ends where its body ends. -/
theorem length_encode (order : ByteOrder) (preamble : Preamble) (contents : List Content) :
    (encode order preamble contents).length = bodyAddress contents + bodySize contents := by
  rw [encode, List.length_append, List.length_append, Preamble.length_encode,
    length_flatMap_of_length (Section.length_encode order), length_entriesFrom, length_flatMap_encode, bodyAddress, Nat.add_assoc]

/-- The sections of a container lie one after another, up to the end of the last body. -/
theorem mem_entriesFrom {address : Nat} {contents : List Content} {s : Section} (h : s ∈ entriesFrom address contents) :
    (∃ content ∈ contents, s = content.entry s.address) ∧ s.address + s.size ≤ address + bodySize contents := by
  induction contents generalizing address with
  | nil => cases h
  | cons content rest ih =>
    have hsize : bodySize (content :: rest) = content.elementSize * content.count + bodySize rest := by
      simp [bodySize]
    rw [entriesFrom, List.mem_cons] at h
    rcases h with rfl | h
    · refine ⟨⟨content, List.mem_cons_self, rfl⟩, ?_⟩
      rw [hsize]
      change address + content.elementSize * content.count ≤ _
      omega
    · obtain ⟨⟨other, hother, heq⟩, hle⟩ := ih h
      exact ⟨⟨other, List.mem_cons_of_mem _ hother, heq⟩, by omega⟩

/-- An entry that was written is read back. -/
theorem sectionAt_of_hasAt {order : ByteOrder} {data : List UInt8} {i : Nat} {s : Section}
    (h : HasAt data (32 + 16 * i) (s.encode order)) (hkind : s.kind < 2 ^ 32) (hsize : s.elementSize < 2 ^ 32)
    (hcount : s.count < 2 ^ 32) (haddress : s.address < 2 ^ 32) : sectionAt order data i = s := by
  have hsizes := h.right
  have hcounts := hsizes.right
  have haddresses := hcounts.right
  simp only [ByteOrder.length_bytes, Nat.add_assoc (32 + 16 * i), Nat.reduceAdd] at hsizes hcounts haddresses
  rw [sectionAt, h.left.field_eq hkind, hsizes.left.field_eq hsize, hcounts.left.field_eq hcount, haddresses.field_eq haddress]

/-- Entries that were written one after another are read back. -/
theorem map_sectionAt_of_hasAt {order : ByteOrder} {data : List UInt8} {first : Nat} {sections : List Section}
    (h : HasAt data (32 + 16 * first) (sections.flatMap (Section.encode order)))
    (hsmall : ∀ s ∈ sections, s.kind < 2 ^ 32 ∧ s.elementSize < 2 ^ 32 ∧ s.count < 2 ^ 32 ∧ s.address < 2 ^ 32) :
    (List.range' first sections.length).map (sectionAt order data) = sections := by
  induction sections generalizing first with
  | nil => rfl
  | cons s rest ih =>
    rw [List.forall_mem_cons] at hsmall
    obtain ⟨⟨hkind, hsize, hcount, haddress⟩, hrest⟩ := hsmall
    rw [List.flatMap_cons] at h
    have hnext := h.right
    rw [Section.length_encode, Nat.add_assoc, ← Nat.mul_succ] at hnext
    rw [List.length_cons, List.range'_succ, List.map_cons, sectionAt_of_hasAt h.left hkind hsize hcount haddress, ih hnext hrest]

/-- Sections that were written one after another are read back into a draft. -/
theorem readSections_of_hasAt {order : ByteOrder} (decoder : Decoder) {data : List UInt8} {address : Nat}
    {contents : List Content} (h : HasAt data address (contents.flatMap (Content.encode order))) (draft : Draft) :
    (readSections order decoder data (draft.parts order) (entriesFrom address contents)).outcome =
      (contents.foldlM (Draft.add decoder) draft).map (Draft.parts order) := by
  induction contents generalizing address draft with
  | nil => rfl
  | cons content rest ih =>
    rw [List.flatMap_cons] at h
    have hrest := h.right
    rw [Content.length_encode] at hrest
    rw [entriesFrom, readSections_cons_outcome, readSection_of_hasAt decoder h.left, List.foldlM_cons]
    cases draft.add decoder content with
    | error fault => rfl
    | ok more => exact ih hrest more

/-! ## The byte order of a container that was written -/

/-- A section count that fits in one byte is plausible in one order only. -/
theorem littleValue_reverse_littleBytes {n : Nat} (h : n ≤ 255) : littleValue (littleBytes 4 n).reverse = 2 ^ 24 * n := by
  have hhigh : n / 256 = 0 := Nat.div_eq_of_lt (by omega)
  have hlow : n % 256 = n := Nat.mod_eq_of_lt (by omega)
  simp [littleBytes, littleValue, hhigh, hlow]
  omega

section Encode

variable (order : ByteOrder) (preamble : Preamble) {contents : List Content}

/-- The fields of the header that are checked stand where they are read. -/
theorem hasAt_header (contents : List Content) :
    HasAt (encode order preamble contents) 1 (order.bytes 1 0) ∧ HasAt (encode order preamble contents) 8 magic ∧
      HasAt (encode order preamble contents) 16 (order.bytes 4 contents.length) := by
  have hflag := (HasAt.self (encode order preamble contents)).left.right
  have hmagic := hflag.right.right.right
  have hcount := hmagic.right.right
  simp only [ByteOrder.length_bytes] at hflag hmagic hcount
  exact ⟨hflag.left, hmagic.left, hcount.left⟩

/-- A container that was written in an order is read in that order. Read the other way round, the count moves to the highest byte, so it is
too large unless it is zero. -/
theorem readIn_encode (hfits : Fits contents) : ReadIn (encode order preamble contents) none order := by
  obtain ⟨-, -, hcount⟩ := hasAt_header order preamble contents
  have hfield := hcount.field_eq (Nat.lt_of_le_of_lt hfits.most (by decide))
  cases order with
  | little => exact .little (hfield ▸ hfits.most)
  | big =>
    refine .big ?_ (hfield ▸ hfits.most)
    have hslice := hcount.slice_eq
    rw [ByteOrder.length_bytes] at hslice
    rw [ByteOrder.field, hslice]
    change 255 < littleValue (littleBytes 4 contents.length).reverse
    rw [littleValue_reverse_littleBytes hfits.most]
    have := hfits.some
    omega

/-- The header of a container that was written has its order and its section count. -/
theorem readHeader_encode (hfits : Fits contents) :
    ∃ header, readHeader none (encode order preamble contents) = .ok header ∧ header.order = order ∧
      header.sectionCount = order.field (encode order preamble contents) 16 4 := by
  have hlong : 32 ≤ (encode order preamble contents).length := by
    rw [length_encode, bodyAddress]
    omega
  have horder := readIn_encode order preamble hfits
  obtain ⟨hflag, hmagic, -⟩ := hasAt_header order preamble contents
  have hzero := (order.field_one_eq_zero hlong).mp (hflag.field_eq (by decide))
  obtain ⟨header, hheader⟩ := (judges_readHeader (encode order preamble contents) none).ok_iff.mpr
    ⟨hlong, hmagic.slice_eq, ⟨order, horder⟩, hzero⟩
  obtain ⟨hread, hsections⟩ := readHeader_eq_ok hheader
  obtain rfl := horder.unique hread
  exact ⟨header, hheader, rfl, hsections⟩

/-- The table of a container that was written is read back. -/
theorem readTable_encode (hfits : Fits contents) :
    readTable order (order.field (encode order preamble contents) 16 4) (encode order preamble contents) =
      .ok (entriesFrom (bodyAddress contents) contents) := by
  obtain ⟨-, -, hcount⟩ := hasAt_header order preamble contents
  have hfield := hcount.field_eq (Nat.lt_of_le_of_lt hfits.most (by decide))
  have htable := (HasAt.self (encode order preamble contents)).right.left
  rw [Preamble.length_encode] at htable
  have hsmall : ∀ s ∈ entriesFrom (bodyAddress contents) contents,
      s.kind < 2 ^ 32 ∧ s.elementSize < 2 ^ 32 ∧ s.count < 2 ^ 32 ∧ s.address < 2 ^ 32 := by
    intro s hs
    obtain ⟨⟨content, hcontent, heq⟩, hle⟩ := mem_entriesFrom hs
    have haddress : s.address < 2 ^ 32 := by
      have := hfits.total
      omega
    rw [heq]
    exact ⟨hfits.kinds content hcontent, hfits.sizes content hcontent, hfits.counts content hcontent, haddress⟩
  refine readTable_eq_ok_iff.mpr ⟨?_, ?_, ?_⟩
  · rw [hfield, length_encode, bodyAddress]
    omega
  · rw [tableOf, hfield, List.range_eq_range', ← length_entriesFrom (bodyAddress contents)]
    exact (map_sectionAt_of_hasAt htable hsmall).symm
  · intro s hs
    rw [length_encode]
    exact (mem_entriesFrom hs).2

end Encode

end FlowListing.Container

namespace FlowListing

open Container Encoding

/-- Reading a container that was written gives what its sections give, one after another. The byte order shows only in how the slots
of the text section are read. -/
theorem Script.read_encode (order : ByteOrder) (preamble : Preamble) {contents : List Content} (hfits : Fits contents)
    (decoder : Decoder) :
    (Script.read (encode order preamble contents) decoder none).outcome =
      (contents.foldlM (Draft.add decoder) {}).map fun draft => (draft.parts order).script := by
  obtain ⟨header, hheader, rfl, hcount⟩ := readHeader_encode order preamble hfits
  have hbodies := (HasAt.self (encode header.order preamble contents)).right.right
  rw [Preamble.length_encode, length_flatMap_of_length (Section.length_encode header.order), length_entriesFrom,
    Nat.zero_add] at hbodies
  have hsections : (readSections header.order decoder (encode header.order preamble contents) {}
      (entriesFrom (bodyAddress contents) contents)).outcome = _ := readSections_of_hasAt decoder hbodies {}
  simp only [read, hheader, hcount, readTable_encode header.order preamble hfits, hsections]
  cases contents.foldlM (Draft.add decoder) {} <;> rfl

end FlowListing
