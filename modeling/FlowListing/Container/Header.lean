import FlowListing.Container.Word
import FlowListing.Encoding.Name
import FlowListing.Fault

/-!
# The header and the section table of a container

The header has 32 bytes: the file type, the compression flag, the user id (two bytes) and the file size (four) up to offset
8; the magic number at 8; the section count at 16; the counts of local integers and of local numbers at 20 and 22; the rest
is not used. The byte order is not stated: it is the one in which the section count is plausible.

The table follows the header. Each entry has 16 bytes: the type of the section, the size of an element, the number of elements
and the address of the first one. A section may not run past the end of the data.
-/

namespace FlowListing.Container

open Encoding

/-! ## Why a container cannot be read -/

/-- A way in which bytes are no container. -/
inductive FormatFault where
  | tooSmall (length : Nat)
  | badMagic (bytes : List UInt8)
  /-- The section count is implausible in both byte orders. -/
  | unknownOrder (bytes : List UInt8)
  | compressed
  | tableTruncated (needed : Int) (length : Nat)
  | sectionOverrun (position kind address size length : Nat)
  | labelSize (size : Int)
  | slotSize (size : Int)
  | byteSize (size kind : Nat)
  | duplicateSection (kind : Nat)
  | labelName (encoding : String) (fault : DecodeFault)
  | stringAt (offset : Nat) (encoding : String) (fault : DecodeFault)
  deriving DecidableEq, Repr

/-- The text of a format fault. -/
def FormatFault.message : FormatFault → String
  | .tooSmall length => s!"File too small: {length} bytes"
  | .badMagic bytes => s!"Invalid magic number: {Text.quoteBytes bytes}"
  | .unknownOrder bytes => s!"Cannot determine byte order: section count bytes {Text.hexBytesLower bytes}"
  | .compressed => "Compressed FlowScript binaries are not supported"
  | .tableTruncated needed length => s!"Section table truncated: needs {needed} bytes, have {length}"
  | .sectionOverrun position kind address size length =>
    s!"Section {position} (type {kind}) runs past end of data: {Text.hexAddress address}+{size} > {length}"
  | .labelSize size => s!"Invalid label element size {size}"
  | .slotSize size => s!"Invalid instruction size {size}"
  | .byteSize size kind => s!"Invalid element size {size} for byte section type {kind}"
  | .duplicateSection kind => s!"Duplicate section type {kind}"
  | .labelName encoding fault => s!"Cannot decode label name as {encoding}: {fault.message}"
  | .stringAt offset encoding fault => s!"Cannot decode string at offset {offset} as {encoding}: {fault.message}"

/-- Why reading stopped: the bytes are no container, a field was cut short, or the codec reads no text. -/
inductive ReadFault where
  | format (fault : FormatFault)
  | shortField (needed : Nat)
  | codec (fault : CodecFault)
  deriving DecidableEq, Repr

/-- The text of a fault. -/
def ReadFault.message : ReadFault → String
  | .format fault => fault.message
  | .shortField needed => s!"unpack requires a buffer of {needed} bytes"
  | .codec fault => fault.message

/-- The fault in reading that comes of a fault in decoding; `undecodable` says what bytes are that are no text. Only these are a fault of
the container. -/
def ReadFault.ofText (undecodable : DecodeFault → FormatFault) : TextFault → ReadFault
  | .bytes fault => .format (undecodable fault)
  | .codec fault => .codec fault

/-- The text of bytes that are part of a container; `undecodable` says what they are when they do not decode. -/
def readText (decoder : Decoder) (undecodable : DecodeFault → FormatFault) (bytes : List UInt8) :
    Except ReadFault String :=
  (decodeText decoder bytes).mapError (.ofText undecodable)

/-! ## The header -/

/-- The size of the header. -/
def headerSize : Nat := 32

/-- The magic number, `FLW0`. -/
def magic : List UInt8 := [0x46, 0x4C, 0x57, 0x30]

/-- No container has more sections than this. -/
def mostSections : Nat := 255

/-- What a header says. -/
structure Header where
  fileType : Nat
  userId : Nat
  fileSize : Nat
  sectionCount : Nat
  localInts : Nat
  localReals : Nat
  order : ByteOrder
  deriving DecidableEq, Repr

/-- The byte order in which the section count is plausible; the little one if it is plausible in both. -/
def detectOrder (data : List UInt8) : Except ReadFault ByteOrder :=
  let count := slice data 16 4
  if count.length < 4 then .error (.shortField 4)
  else if ByteOrder.little.value count ≤ mostSections then .ok .little
  else if ByteOrder.big.value count ≤ mostSections then .ok .big
  else .error (.format (.unknownOrder count))

/-- The byte order of a container: the one that is forced, or else the one that is detected. -/
def chooseOrder (forced : Option ByteOrder) (data : List UInt8) : Except ReadFault ByteOrder :=
  match forced with
  | some order => .ok order
  | none => detectOrder data

/-- The header of a container. -/
def readHeader (forced : Option ByteOrder) (data : List UInt8) : Except ReadFault Header := do
  if data.length < headerSize then throw (.format (.tooSmall data.length))
  if slice data 8 4 ≠ magic then throw (.format (.badMagic (slice data 8 4)))
  let order ← chooseOrder forced data
  if order.field data 1 1 ≠ 0 then throw (.format .compressed)
  return {
    fileType := order.field data 0 1
    userId := order.field data 2 2
    fileSize := order.field data 4 4
    sectionCount := order.field data 16 4
    localInts := order.field data 20 2
    localReals := order.field data 22 2
    order := order }

/-! ## The section table -/

/-- The size of an entry of the section table. -/
def entrySize : Nat := 16

/-- An entry of the section table. -/
structure Section where
  kind : Nat
  elementSize : Nat
  count : Nat
  address : Nat
  deriving DecidableEq, Repr

/-- The size of a section in bytes. -/
def Section.size (s : Section) : Nat :=
  s.elementSize * s.count

/-- Where elements lie: the size of one, their number, and the address of the first, from which they follow one another. All three
may be below zero: such an address counts from the end of the data, and so few elements are none. -/
structure Extent where
  elementSize : Int
  count : Int
  address : Int
  deriving DecidableEq, Repr

/-- Where the elements of a section lie. -/
def Section.extent (s : Section) : Extent :=
  ⟨s.elementSize, s.count, s.address⟩

/-- The entry whose 16 bytes the data starts with. -/
def readEntry (order : ByteOrder) (data : List UInt8) : Section :=
  ⟨order.field data 0 4, order.field data 4 4, order.field data 8 4, order.field data 12 4⟩

/-- The next `count` entries of the table, the first of which stands at `position`. The table is what is left of it in `rest`;
`length` is the length of the whole container. -/
def readEntries (order : ByteOrder) (length : Nat) :
    (count position : Nat) → (rest : List UInt8) → Except FormatFault (List Section)
  | 0, _, _ => .ok []
  | count + 1, position, rest =>
    let s := readEntry order rest
    if length < s.address + s.size then .error (.sectionOverrun position s.kind s.address s.size length)
    else (readEntries order length count (position + 1) (rest.drop entrySize)).map (s :: ·)

/-- Where a section table with this many entries ends. -/
def tableEnd (count : Int) : Int :=
  headerSize + entrySize * count

/-- The section table of a container, which is said to have `count` entries. A count below zero makes an empty table, whose end comes
before that of the header. -/
def readTable (order : ByteOrder) (count : Int) (data : List UInt8) : Except FormatFault (List Section) :=
  if data.length < tableEnd count then .error (.tableTruncated (tableEnd count) data.length)
  else readEntries order data.length count.toNat 0 (data.drop headerSize)

end FlowListing.Container
