import Mathlib
import FlowListing.Proofs.Rearrangement

/-!
# Detecting the byte order

The byte order of a container is not stated, but told from its section count, which has to be at most 255. A count other than zero is
so in one order only, because its bytes the other way round make a number of at least 2 ^ 24. A count of zero is so in both, and then
the order does not matter: there are no sections, and nothing else that is checked has more than one byte to put in order. So detecting
the order gives what forcing a plausible one gives (`Script.read_detected`).
-/

namespace FlowListing.Container

open Encoding

variable {data : List UInt8} {order : ByteOrder}

/-- An order that was detected makes the section count plausible. -/
theorem ReadIn.count_le (h : ReadIn data none order) : order.field data 16 4 ≤ 255 := by
  cases h with
  | little hle => exact hle
  | big _ hle => exact hle

/-- A section count that is plausible in both orders is zero. -/
theorem count_eq_zero (hlong : 32 ≤ data.length) (h : ∀ order : ByteOrder, order.field data 16 4 ≤ 255) (order : ByteOrder) :
    order.field data 16 4 = 0 := by
  have hlength : (slice data 16 4).length = 4 := length_slice_of_le (by omega)
  obtain ⟨a, b, c, d, hcount⟩ := List.length_eq_four.mp hlength
  have hlittle := h .little
  have hbig := h .big
  simp only [ByteOrder.field, hcount, ByteOrder.value, List.reverse_cons, List.reverse_nil, List.nil_append, List.cons_append,
    littleValue] at hlittle hbig
  have hzero : a.toNat = 0 ∧ b.toNat = 0 ∧ c.toNat = 0 ∧ d.toNat = 0 := by omega
  cases order <;> simp [ByteOrder.field, hcount, ByteOrder.value, littleValue, hzero]

/-- A container without sections is read as an empty script. -/
theorem readBody_of_count_eq_zero (decoder : Decoder) (hlong : 32 ≤ data.length) (hzero : order.field data 16 4 = 0) :
    readBody order decoder data = .ok {} := by
  have htable : tableOf order data = [] := by
    rw [tableOf, hzero]
    rfl
  refine readBody_eq_ok_iff.mpr ⟨?_, ?_, {}, ?_, rfl⟩
  · omega
  · simp [htable]
  · rw [htable]
    rfl

/-- The order that is detected gives the same sections as any order in which the section count is plausible. -/
theorem exists_readIn_of_count_le (decoder : Decoder) (hlong : 32 ≤ data.length) (h : order.field data 16 4 ≤ 255) :
    ∃ detected, ReadIn data none detected ∧ readBody detected decoder data = readBody order decoder data := by
  cases order with
  | little => exact ⟨.little, .little h, rfl⟩
  | big =>
    by_cases hlittle : ByteOrder.little.field data 16 4 ≤ 255
    · have hboth : ∀ order : ByteOrder, order.field data 16 4 ≤ 255 := by
        rintro (_ | _)
        · exact hlittle
        · exact h
      refine ⟨.little, .little hlittle, ?_⟩
      rw [readBody_of_count_eq_zero decoder hlong (count_eq_zero hlong hboth .little),
        readBody_of_count_eq_zero decoder hlong (count_eq_zero hlong hboth .big)]
    · exact ⟨.big, .big (Nat.lt_of_not_le hlittle) h, rfl⟩

end FlowListing.Container

namespace FlowListing

open Container Encoding

/-- Detecting the byte order gives what forcing an order gives in which the section count is at most 255, be it a script or a fault. The
count is so in both orders only when it is zero; where it is so in neither, detection reports a fault of the format. -/
theorem Script.read_detected (data : List UInt8) (decoder : Decoder) (hlong : 32 ≤ data.length) :
    (∀ order : ByteOrder, order.field data 16 4 ≤ 255 →
        (Script.read data decoder none).outcome = (Script.read data decoder (some order)).outcome) ∧
      ((∀ order : ByteOrder, order.field data 16 4 ≤ 255) → ∀ order : ByteOrder, order.field data 16 4 = 0) ∧
      ((∀ order : ByteOrder, 255 < order.field data 16 4) →
        ∃ fault, (Script.read data decoder none).outcome = .error (.format fault)) := by
  refine ⟨?_, count_eq_zero hlong, ?_⟩
  · intro order hsmall
    obtain ⟨detected, hdetected, hbody⟩ := exists_readIn_of_count_le decoder hlong hsmall
    have hchosen := (chooseOrder_eq_ok_iff hlong).mpr hdetected
    have hforced : chooseOrder (some order) data = .ok order := rfl
    rw [read_outcome, read_outcome, hchosen, hforced]
    change (if _ then _ else if _ then _ else if _ then _ else readBody detected decoder data) = _
    rw [hbody]
    rfl
  · intro hlarge
    rcases (judges_readHeader data none).cases with ⟨⟨-, -, ⟨order, horder⟩, -⟩, -⟩ | ⟨_, hfalse, -⟩ | ⟨-, -, fault, herror⟩
    · exact absurd horder.count_le (Nat.not_le.mpr (hlarge order))
    · exact hfalse.elim
    · exact ⟨fault, by rw [read, herror]⟩

/-- A count of zero is detected as little and may be forced to be big; a count of one in the big order is detected as such, and its
table is missing; the last count is plausible in neither order. -/
theorem Script.read_detected_count :
    ((Script.read (bareHeader [0, 0, 0, 0]) "ascii" (some .big)).outcome = .ok {} ∧
      ByteOrder.big.field (bareHeader [0, 0, 0, 0]) 16 4 = 0) ∧
      (Script.read (bareHeader [0, 0, 0, 1]) "ascii" none).outcome = .error (.format (.tableTruncated 48 32)) ∧
      ∃ fault, (Script.read (bareHeader [1, 0, 0, 1]) "ascii" none).outcome = .error (.format fault) := by
  have hzero := read_detected (bareHeader [0, 0, 0, 0]) "ascii" (by decide)
  have hone := read_detected (bareHeader [0, 0, 0, 1]) "ascii" (by decide)
  have hneither := read_detected (bareHeader [1, 0, 0, 1]) "ascii" (by decide)
  refine ⟨⟨?_, ?_⟩, ?_, ?_⟩
  · rw [← hzero.1 .big (by decide)]
    rfl
  · refine hzero.2.1 ?_ .big
    rintro (_ | _) <;> decide
  · rw [hone.1 .big (by decide)]
    rfl
  · refine hneither.2.2 ?_
    rintro (_ | _) <;> decide

end FlowListing
