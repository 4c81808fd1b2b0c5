/-!
# Words in a container

A container writes all its numbers in one byte order. A field is read from the bytes that are there; whether they are
enough is for the reader of the field to check. Positions may be given from either end of the data (`cut`); from the start on, that
is the same as a slice (`cut_eq_slice`).
-/

namespace FlowListing.Container

/-- The order of the bytes of a number. -/
inductive ByteOrder where
  /-- The least significant byte comes first. -/
  | little
  /-- The most significant byte comes first. -/
  | big
  deriving DecidableEq, Repr

/-- The name of a byte order. -/
def ByteOrder.name : ByteOrder → String
  | .little => "little"
  | .big => "big"

/-- The number whose bytes are given, the least significant first. -/
def littleValue : List UInt8 → Nat
  | [] => 0
  | b :: rest => b.toNat + 256 * littleValue rest

/-- The number whose bytes are given in an order. -/
def ByteOrder.value : ByteOrder → List UInt8 → Nat
  | .little, bytes => littleValue bytes
  | .big, bytes => littleValue bytes.reverse

/-- The bytes from an offset on, at most `count` of them. -/
def slice (data : List UInt8) (offset count : Nat) : List UInt8 :=
  (data.drop offset).take count

/-- The offset of a position in data of some length: a position below zero counts from the end, and one outside the data is moved to
the nearer end. -/
def offsetOf (length : Nat) (position : Int) : Nat :=
  min (if position < 0 then position + length else position).toNat length

/-- The bytes between two positions. -/
def cut (data : Array UInt8) (start stop : Int) : List UInt8 :=
  (data.extract (offsetOf data.size start) (offsetOf data.size stop)).toList

/-- The number in a field of a container. -/
def ByteOrder.field (order : ByteOrder) (data : List UInt8) (offset count : Nat) : Nat :=
  order.value (slice data offset count)

/-- A position from the start counts up to the end of the data. -/
theorem offsetOf_natCast (length position : Nat) : offsetOf length position = min position length := by
  unfold offsetOf
  omega

/-- Between positions that count from the start, a cut is a slice. -/
theorem cut_eq_slice (data : List UInt8) (start count : Nat) :
    cut data.toArray start (start + count : Nat) = slice data start count := by
  simp only [cut, slice, offsetOf_natCast, List.size_toArray, List.extract_toArray, List.extract_eq_take_drop]
  rcases Nat.le_total start data.length with h | h
  · rw [Nat.min_eq_left h, List.take_eq_take_iff, List.length_drop]
    omega
  · rw [Nat.min_eq_right h, List.drop_length, List.drop_eq_nil_of_le h]
    simp

/-- A half-word as a signed number. -/
def signedHalf (n : Nat) : Int :=
  Int.bmod n 0x10000

end FlowListing.Container
