import FlowListing.Encoding.Jis
import FlowListing.Text.Shown

/-!
# Text codecs

A codec reads bytes as text, character by character (`Codec.next`). Reading stops at the first bytes that are no character;
the fault names them by their position. None of the codecs here takes a zero byte as part of a longer character.
-/

namespace FlowListing.Encoding

/-- Four text codecs. -/
inductive Codec where
  | shiftJis
  | utf8
  | ascii
  | latin1
  deriving DecidableEq, Repr

/-- The name of a codec in messages. -/
def Codec.name : Codec → String
  | .shiftJis => "shift_jis"
  | .utf8 => "utf-8"
  | .ascii => "ascii"
  | .latin1 => "latin-1"

/-- Why bytes are no character. -/
inductive Reason where
  | notAscii
  | invalidStart
  | unexpectedEnd
  | invalidContinuation
  | incompletePair
  | illegalSequence
  deriving DecidableEq, Repr

/-- The text of a reason. -/
def Reason.message : Reason → String
  | .notAscii => "ordinal not in range(128)"
  | .invalidStart => "invalid start byte"
  | .unexpectedEnd => "unexpected end of data"
  | .invalidContinuation => "invalid continuation byte"
  | .incompletePair => "incomplete multibyte sequence"
  | .illegalSequence => "illegal multibyte sequence"

/-- The first bytes that a codec could not read: where they start, how many they are, the first of them, and why they are no text. -/
structure DecodeFault where
  codec : String
  position : Nat
  length : Nat
  first : UInt8
  reason : String
  deriving DecidableEq, Repr

/-- The text of a fault. -/
def DecodeFault.message (fault : DecodeFault) : String :=
  let place :=
    if fault.length = 1 then
      s!"byte 0x{String.ofList (Text.hexLower 2 fault.first.toNat)} in position {fault.position}"
    else s!"bytes in position {fault.position}-{fault.position + fault.length - 1}"
  s!"'{fault.codec}' codec can't decode {place}: {fault.reason}"

/-- The bytes at the head of the input are no character: how many they are, and why. -/
abbrev Refusal := Nat × Reason

/-- The continuation bytes of a UTF-8 character: `count` of them are wanted, the next in the range from `low` to `high`. The
start byte and what was read so far make `value` and take `taken` bytes. -/
def utf8Tail : (count low high value taken : Nat) → List UInt8 → Except Refusal Nat
  | 0, _, _, value, _, _ => .ok value
  | _ + 1, _, _, _, taken, [] => .error (taken, .unexpectedEnd)
  | count + 1, low, high, value, taken, b :: rest =>
    if low ≤ b.toNat ∧ b.toNat ≤ high then utf8Tail count 0x80 0xBF (value * 64 + b.toNat % 64) (taken + 1) rest
    else .error (taken, .invalidContinuation)

/-- The UTF-8 character that starts with a byte, and how many more bytes it takes. Overlong forms, surrogates and code points
past the last one are ruled out by the range of the second byte. -/
def nextUtf8 (b : UInt8) (rest : List UInt8) : Except Refusal (Char × Nat) :=
  let n := b.toNat
  let tail (count low high : Nat) (value : Nat) : Except Refusal (Char × Nat) :=
    (utf8Tail count low high value 1 rest).map fun code => (Char.ofNat code, count)
  if n < 0x80 then .ok (Char.ofNat n, 0)
  else if n < 0xC2 then .error (1, .invalidStart)
  else if n < 0xE0 then tail 1 0x80 0xBF (n - 0xC0)
  else if n < 0xF0 then
    tail 2 (if n = 0xE0 then 0xA0 else 0x80) (if n = 0xED then 0x9F else 0xBF) (n - 0xE0)
  else if n < 0xF5 then
    tail 3 (if n = 0xF0 then 0x90 else 0x80) (if n = 0xF4 then 0x8F else 0xBF) (n - 0xF0)
  else .error (1, .invalidStart)

/-- The character of a pair of bytes. Two rows of the character set share a lead byte. -/
def shiftJisPair? (lead trail : Nat) : Option Char :=
  if trail < 0x40 ∨ trail = 0x7F ∨ 0xFC < trail then none
  else
    let l := if lead ≤ 0x9F then lead - 0x81 else lead - 0xC1
    let t := if trail < 0x7F then trail - 0x40 else trail - 0x41
    jisChar? (2 * l + t / 94 + 1) (t % 94 + 1)

/-- A byte that starts a pair. -/
def isShiftJisLead (n : Nat) : Bool :=
  (0x81 ≤ n && n ≤ 0x9F) || (0xE0 ≤ n && n ≤ 0xEA)

/-- The Shift_JIS character that starts with a byte, and how many more bytes it takes. -/
def nextShiftJis (b : UInt8) (rest : List UInt8) : Except Refusal (Char × Nat) :=
  let n := b.toNat
  if n < 0x80 then .ok (Char.ofNat n, 0)
  else if 0xA1 ≤ n ∧ n ≤ 0xDF then .ok (Char.ofNat (0xFEC0 + n), 0)
  else if isShiftJisLead n then
    match rest with
    | [] => .error (1, .incompletePair)
    | trail :: _ =>
      match shiftJisPair? n trail.toNat with
      | some c => .ok (c, 1)
      | none => .error (1, .illegalSequence)
  else .error (1, .illegalSequence)

/-- The character that starts with a byte, given the bytes after it, and how many of those it takes. -/
def Codec.next (codec : Codec) (b : UInt8) (rest : List UInt8) : Except Refusal (Char × Nat) :=
  match codec with
  | .shiftJis => nextShiftJis b rest
  | .utf8 => nextUtf8 b rest
  | .ascii => if b.toNat < 0x80 then .ok (Char.ofNat b.toNat, 0) else .error (1, .notAscii)
  | .latin1 => .ok (Char.ofNat b.toNat, 0)

/-- The characters of the bytes from a position on, of which the first `skip` belong to a character that has been read. -/
def Codec.decodeFrom (codec : Codec) : (position skip : Nat) → List UInt8 → Except DecodeFault (List Char)
  | _, _, [] => .ok []
  | position, skip + 1, _ :: rest => codec.decodeFrom (position + 1) skip rest
  | position, 0, b :: rest =>
    match codec.next b rest with
    | .error (length, reason) => .error ⟨codec.name, position, length, b, reason.message⟩
    | .ok (c, more) => (codec.decodeFrom (position + 1) more rest).map (c :: ·)

/-- The text of bytes. -/
def Codec.decode (codec : Codec) (bytes : List UInt8) : Except DecodeFault String :=
  (codec.decodeFrom 0 0 bytes).map String.ofList

end FlowListing.Encoding
