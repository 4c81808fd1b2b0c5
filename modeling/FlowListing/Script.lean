import FlowListing.Number

/-!
# Scripts

A script is what a container holds: the slots of the text section, two tables of labels, a table of strings and a block of
message data.

A slot is read as an instruction (an opcode and a signed short) or, after an instruction whose operand fills the next slot, as one word
of 32 bits, the payload. A slot that was built by hand may hold any integers; a payload that is no word shows only when it is read.

Labels are indexed by the slot they point to, jump labels before procedure labels (`Script.labelIndex`).
-/

namespace FlowListing

open Number

/-! ## Slots -/

/-- Why a payload cannot be read or made. -/
inductive PayloadFault where
  /-- The payload is negative, or too large for any machine word. -/
  | outOfRange
  /-- The payload is a machine word of more than 32 bits. -/
  | tooWide
  /-- The number is finite and rounds past the largest single-precision number. -/
  | realTooLarge
  deriving DecidableEq, Repr

/-- The text of a payload fault. -/
def PayloadFault.message : PayloadFault → String
  | .outOfRange => "argument out of range"
  | .tooWide => "'I' format requires 0 <= number <= 4294967295"
  | .realTooLarge => "float too large to pack with f format"

/-- One slot: an opcode, a short, and the whole slot as a word. -/
structure Slot where
  opcode : Int
  short : Int := 0
  payload : Int := 0
  deriving DecidableEq, Repr

namespace Slot

/-- The payload as a word. -/
def word (slot : Slot) : Except PayloadFault Nat :=
  if slot.payload < 0 ∨ 0x10000000000000000 ≤ slot.payload then .error .outOfRange
  else if 0x100000000 ≤ slot.payload then .error .tooWide
  else .ok slot.payload.toNat

/-- The payload as a signed word. -/
def signed (slot : Slot) : Except PayloadFault Int :=
  slot.word.map fun w => Int.bmod w 0x100000000

/-- The payload as a single-precision number. -/
def real (slot : Slot) : Except PayloadFault Datum :=
  slot.word.map binary32.decode

/-- The slot that carries the low 32 bits of an integer. -/
def ofInt (n : Int) : Slot :=
  ⟨0, 0, n % 0x100000000⟩

/-- The slot that carries a number in single precision. -/
def ofReal (x : Datum) : Except PayloadFault Slot :=
  match binary32.encode x with
  | some bits => .ok ⟨0, 0, bits⟩
  | none => .error .realTooLarge

end Slot

/-! ## Labels, strings and scripts -/

/-- A name for a slot. -/
structure Label where
  name : String
  offset : Int
  deriving DecidableEq, Repr

/-- Strings by their ids. -/
abbrev StringTable := List (Int × String)

namespace StringTable

/-- The string with an id. -/
def find? (table : StringTable) (id : Int) : Option String :=
  List.lookup id table

/-- The table with one more string, which takes the place of one that has the same id. -/
def insert (table : StringTable) (id : Int) (text : String) : StringTable :=
  match table with
  | [] => [(id, text)]
  | (other, old) :: rest => if other = id then (id, text) :: rest else (other, old) :: insert rest id text

/-- The table of a list of strings, of which the last with an id counts. -/
def ofList (entries : List (Int × String)) : StringTable :=
  entries.foldl (fun table (id, text) => insert table id text) []

end StringTable

/-- Labels grouped by their offsets, in increasing order of the offsets. -/
abbrev LabelIndex := List (Int × List Label)

namespace LabelIndex

/-- The index with one more label, which comes last among those with its offset. -/
def insert (index : LabelIndex) (label : Label) : LabelIndex :=
  match index with
  | [] => [(label.offset, [label])]
  | (offset, labels) :: rest =>
    if label.offset < offset then (label.offset, [label]) :: (offset, labels) :: rest
    else if label.offset = offset then (offset, labels ++ [label]) :: rest
    else (offset, labels) :: insert rest label

/-- The index of a list of labels. -/
def ofLabels (labels : List Label) : LabelIndex :=
  labels.foldl insert []

/-- The labels with an offset. -/
def labelsAt (index : LabelIndex) (offset : Int) : List Label :=
  (List.lookup offset index).getD []

end LabelIndex

/-- Why there is no slot at an index. -/
inductive IndexFault where
  /-- The index is beyond either end. -/
  | outOfRange
  /-- The index is no signed 64-bit number. -/
  | tooWide
  deriving DecidableEq, Repr

/-- The text of an index fault. -/
def IndexFault.message : IndexFault → String
  | .outOfRange => "tuple index out of range"
  | .tooWide => "cannot fit 'int' into an index-sized integer"

/-- A script. -/
structure Script where
  text : List Slot := []
  jumps : List Label := []
  procedures : List Label := []
  strings : StringTable := []
  message : List UInt8 := []
  deriving DecidableEq, Repr

namespace Script

/-- The labels of a script by their offsets, jump labels before procedure labels. -/
def labelIndex (script : Script) : LabelIndex :=
  LabelIndex.ofLabels (script.jumps ++ script.procedures)

/-- The slot at an index; a negative index counts from the end. -/
def slotAt? (script : Script) (index : Int) : Option Slot :=
  let position := if index < 0 then index + script.text.length else index
  if position < 0 then none else script.text[position.toNat]?

/-- The slot at an index, which has to fit a signed 64-bit word. -/
def slotAt (script : Script) (index : Int) : Except IndexFault Slot :=
  if index < -0x8000000000000000 ∨ 0x8000000000000000 ≤ index then .error .tooWide
  else
    match script.slotAt? index with
    | some slot => .ok slot
    | none => .error .outOfRange

end Script

end FlowListing
