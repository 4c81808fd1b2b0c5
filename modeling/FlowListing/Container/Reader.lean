import FlowListing.Container.Header
import FlowListing.Script

/-!
# Reading a container

A label has a name in a field of fixed width, ended early by a zero byte, then its offset and a word that is not used. A slot is
four bytes: an opcode and a short, or one word. A string runs from its offset to the next zero byte or the end of the section,
and its offset is its id. Elements are read one after another. The end of the section is not checked then, only that the data does not
end inside a number.

Sections are read in the order of the table. A section of a known type may occur once; sections of other types are passed over
with a warning. What no section gave is empty.
-/

namespace FlowListing.Container

open Encoding

/-! ## The contents of sections -/

/-- The bytes of a label after its name. -/
def labelTail : Nat := 8

/-- The size of a slot. -/
def slotSize : Nat := 4

/-- The next `count` elements, of which the first is at `start` and each of the others `size` after the one before. -/
def readEach {α : Type} (read : Int → Except ReadFault α) (size : Int) :
    (count : Nat) → (start : Int) → Except ReadFault (List α)
  | 0, _ => .ok []
  | count + 1, start => do
    let element ← read start
    let elements ← readEach read size count (start + size)
    return element :: elements

/-- The elements in an extent. -/
def Extent.read {α : Type} (extent : Extent) (read : Int → Except ReadFault α) : Except ReadFault (List α) :=
  readEach read extent.elementSize extent.count.toNat extent.address

/-- The label at a position, whose name has `nameSize` bytes. -/
def readLabel (order : ByteOrder) (decoder : Decoder) (nameSize : Int) (data : Array UInt8) (start : Int) :
    Except ReadFault Label := do
  let name := (cut data start (start + nameSize)).takeWhile (· ≠ 0)
  let tail := cut data (start + nameSize) (start + nameSize + labelTail)
  if tail.length < labelTail then throw (.shortField labelTail)
  let text ← readText decoder (.labelName decoder.name) name
  return ⟨text, order.field tail 0 4⟩

/-- The labels in an extent. -/
def readLabels (order : ByteOrder) (decoder : Decoder) (data : List UInt8) (extent : Extent) :
    Except ReadFault (List Label) :=
  if extent.elementSize ≤ labelTail then .error (.format (.labelSize extent.elementSize))
  else extent.read (readLabel order decoder (extent.elementSize - labelTail) data.toArray)

/-- The slot whose four bytes are given. -/
def slotOfBytes (order : ByteOrder) (bytes : List UInt8) : Slot :=
  ⟨order.field bytes 0 2, signedHalf (order.field bytes 2 2), order.value bytes⟩

/-- The slot at a position. -/
def readSlot (order : ByteOrder) (data : Array UInt8) (start : Int) : Except ReadFault Slot :=
  let bytes := cut data start (start + slotSize)
  if bytes.length < slotSize then .error (.shortField slotSize)
  else .ok (slotOfBytes order bytes)

/-- The slots in an extent. -/
def readSlots (order : ByteOrder) (data : List UInt8) (extent : Extent) : Except ReadFault (List Slot) :=
  if extent.elementSize ≠ slotSize then .error (.format (.slotSize extent.elementSize))
  else extent.read (readSlot order data.toArray)

/-- The pieces of a string section with their offsets. `piece` holds, in reverse, the bytes read since the offset `start`. A zero
byte ends a piece; the end of the section ends one too, unless it comes right after a zero byte. -/
def splitStrings : (start : Nat) → (piece : List UInt8) → List UInt8 → List (Nat × List UInt8)
  | _, [], [] => []
  | start, b :: piece, [] => [(start, (b :: piece).reverse)]
  | start, piece, b :: rest =>
    if b = 0 then (start, piece.reverse) :: splitStrings (start + piece.length + 1) [] rest
    else splitStrings start (b :: piece) rest

/-- The strings of pieces with their offsets. -/
def decodeStrings (decoder : Decoder) : List (Nat × List UInt8) → Except ReadFault StringTable
  | [] => .ok []
  | (offset, bytes) :: rest => do
    let text ← readText decoder (.stringAt offset decoder.name) bytes
    let strings ← decodeStrings decoder rest
    return ((offset : Int), text) :: strings

/-- The strings of a string section. -/
def readStrings (decoder : Decoder) (raw : List UInt8) : Except ReadFault StringTable :=
  decodeStrings decoder (splitStrings 0 [] raw)

/-- The bytes of a section whose elements are single bytes. -/
def readBytes (data : List UInt8) (s : Section) : Except ReadFault (List UInt8) :=
  if s.elementSize ≠ 1 then .error (.format (.byteSize s.elementSize s.kind))
  else .ok (slice data s.address s.size)

/-! ## Sections in order -/

/-- What the sections read so far have given. -/
structure Parts where
  procedures : Option (List Label) := none
  jumps : Option (List Label) := none
  text : Option (List Slot) := none
  message : Option (List UInt8) := none
  strings : Option StringTable := none
  deriving DecidableEq, Repr

/-- The script that the parts make. -/
def Parts.script (parts : Parts) : Script where
  text := parts.text.getD []
  jumps := parts.jumps.getD []
  procedures := parts.procedures.getD []
  strings := parts.strings.getD []
  message := parts.message.getD []

/-- A section of this type has been read. -/
def Parts.has (parts : Parts) (kind : Nat) : Bool :=
  match kind with
  | 0 => parts.procedures.isSome
  | 1 => parts.jumps.isSome
  | 2 => parts.text.isSome
  | 3 => parts.message.isSome
  | 4 => parts.strings.isSome
  | _ => false

/-- The parts with one more section; nothing when its type is not known. -/
def readSection (order : ByteOrder) (decoder : Decoder) (data : List UInt8) (parts : Parts) (s : Section) :
    Except ReadFault (Option Parts) :=
  if parts.has s.kind then .error (.format (.duplicateSection s.kind))
  else
    match s.kind with
    | 0 => (readLabels order decoder data s.extent).map fun labels => some { parts with procedures := some labels }
    | 1 => (readLabels order decoder data s.extent).map fun labels => some { parts with jumps := some labels }
    | 2 => (readSlots order data s.extent).map fun slots => some { parts with text := some slots }
    | 3 => (readBytes data s).map fun bytes => some { parts with message := some bytes }
    | 4 => (readBytes data s >>= readStrings decoder).map fun strings => some { parts with strings := some strings }
    | _ => .ok none

/-- The record of a section that was read. -/
def parsedRecord (s : Section) : Record :=
  ⟨.debug, .reading, s!"Parsed section type {s.kind}: {s.count} elements at {Text.hexAddress s.address}"⟩

/-- The record of a section that was passed over. -/
def skippedRecord (s : Section) : Record :=
  ⟨.warning, .reading, s!"Skipping unknown section type {s.kind} at {Text.hexAddress s.address}"⟩

/-- The record of a header. -/
def headerRecord (header : Header) : Record :=
  ⟨.debug, .reading,
    s!"Header: {header.sectionCount} sections, {header.order.name}-endian, size {header.fileSize}"⟩

/-- The outcome of reading, and the records that it left. -/
structure Reading (α : Type) where
  logs : List Record
  outcome : Except ReadFault α

/-- The parts with all the sections, read in order. -/
def readSections (order : ByteOrder) (decoder : Decoder) (data : List UInt8) : Parts → List Section → Reading Parts
  | parts, [] => ⟨[], .ok parts⟩
  | parts, s :: rest =>
    match readSection order decoder data parts s with
    | .error fault => ⟨[], .error fault⟩
    | .ok (some more) =>
      let reading := readSections order decoder data more rest
      ⟨parsedRecord s :: reading.logs, reading.outcome⟩
    | .ok none =>
      let reading := readSections order decoder data parts rest
      ⟨skippedRecord s :: reading.logs, reading.outcome⟩

end FlowListing.Container

namespace FlowListing

open Container Encoding

/-- The script in a container, whose names and strings are read by a decoder, in a byte order that is forced or detected. -/
def Script.read (data : List UInt8) (decoder : Decoder) (forced : Option ByteOrder) : Reading Script :=
  match readHeader forced data with
  | .error fault => ⟨[], .error fault⟩
  | .ok header =>
    match readTable header.order header.sectionCount data with
    | .error fault => ⟨[headerRecord header], .error (.format fault)⟩
    | .ok sections =>
      let reading := readSections header.order decoder data {} sections
      ⟨headerRecord header :: reading.logs, reading.outcome.map Parts.script⟩

end FlowListing
