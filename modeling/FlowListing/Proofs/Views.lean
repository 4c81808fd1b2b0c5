import Mathlib
import FlowListing.Proofs.Acceptance
import FlowListing.Proofs.Walk

/-!
# The views of a slot

The four bytes of a slot are read as two halves, an opcode and a short, and as one word, the payload. The word is made of the halves
(`ByteOrder.value_eq_join`), and it has 32 bits: so the payloads of a script that was read are words (`Script.wordPayloads_of_read`).
-/

namespace FlowListing.Container

open Encoding

/-! ## The halves of a word -/

/-- Bytes count less than the power of 256 at their length. -/
theorem littleValue_lt (bytes : List UInt8) : littleValue bytes < 256 ^ bytes.length := by
  induction bytes with
  | nil => simp [littleValue]
  | cons b rest ih =>
    have hb : b.toNat < 256 := b.toNat_lt
    rw [littleValue, List.length_cons, Nat.pow_succ]
    omega

/-- Bytes count less than the power of 256 at their length, in either order. -/
theorem ByteOrder.value_lt (order : ByteOrder) (bytes : List UInt8) : order.value bytes < 256 ^ bytes.length := by
  cases order with
  | little => exact littleValue_lt bytes
  | big =>
    have h := littleValue_lt bytes.reverse
    rwa [List.length_reverse] at h

/-- Bytes and more bytes count the first, and the second times a power of 256. -/
theorem littleValue_append (first second : List UInt8) :
    littleValue (first ++ second) = littleValue first + 256 ^ first.length * littleValue second := by
  induction first with
  | nil => simp [littleValue]
  | cons b rest ih =>
    rw [List.cons_append, littleValue, littleValue, ih, List.length_cons, Nat.pow_succ]
    ring

/-- The word whose halves are given in the order in which they are written. -/
def ByteOrder.join : ByteOrder → (first second : Nat) → Nat
  | .little, first, second => first + 0x10000 * second
  | .big, first, second => 0x10000 * first + second

/-- The half of a word that is written first. -/
def ByteOrder.firstHalf : ByteOrder → Nat → Nat
  | .little, word => word % 0x10000
  | .big, word => word / 0x10000

/-- The half of a word that is written second. -/
def ByteOrder.secondHalf : ByteOrder → Nat → Nat
  | .little, word => word / 0x10000
  | .big, word => word % 0x10000

/-- The first half of two joined halves is the first. -/
theorem ByteOrder.firstHalf_join (order : ByteOrder) {first second : Nat} (hfirst : first < 0x10000) (hsecond : second < 0x10000) :
    order.firstHalf (order.join first second) = first := by
  cases order <;> simp only [firstHalf, join] <;> omega

/-- The second half of two joined halves is the second. -/
theorem ByteOrder.secondHalf_join (order : ByteOrder) {first second : Nat} (hfirst : first < 0x10000) (hsecond : second < 0x10000) :
    order.secondHalf (order.join first second) = second := by
  cases order <;> simp only [secondHalf, join] <;> omega

/-- Two halves that are written one after another are read as the word that they make. -/
theorem ByteOrder.value_append (order : ByteOrder) {first second : List UInt8} (hfirst : first.length = 2)
    (hsecond : second.length = 2) : order.value (first ++ second) = order.join (order.value first) (order.value second) := by
  cases order with
  | little =>
    rw [value, littleValue_append, hfirst]
    rfl
  | big =>
    rw [value, List.reverse_append, littleValue_append, List.length_reverse, hsecond, Nat.add_comm]
    rfl

/-- The four bytes of a slot, read as a word, are the halves that are read as an opcode and a short. -/
theorem ByteOrder.value_eq_join (order : ByteOrder) {bytes : List UInt8} (h : bytes.length = 4) :
    order.value bytes = order.join (order.field bytes 0 2) (order.field bytes 2 2) := by
  have hsplit : slice bytes 0 2 ++ slice bytes 2 2 = bytes := by
    have hall : (bytes.drop 2).take 2 = bytes.drop 2 := List.take_of_length_le (by rw [List.length_drop, h])
    rw [slice, slice, List.drop_zero, hall, List.take_append_drop]
  have hfirst : (slice bytes 0 2).length = 2 := length_slice_of_le (by omega)
  have hsecond : (slice bytes 2 2).length = 2 := length_slice_of_le (by omega)
  rw [field, field, ← order.value_append hfirst hsecond, hsplit]

/-- A field of two bytes is half a word. -/
theorem ByteOrder.field_two_lt (order : ByteOrder) (bytes : List UInt8) (offset : Nat) : order.field bytes offset 2 < 0x10000 := by
  have hlength : (slice bytes offset 2).length ≤ 2 := by
    rw [slice, List.length_take]
    omega
  calc order.field bytes offset 2
      < 256 ^ (slice bytes offset 2).length := order.value_lt _
    _ ≤ 256 ^ 2 := Nat.pow_le_pow_right (by decide) hlength

/-! ## Slots that were read -/

/-- An element that was read was read at some position. -/
theorem mem_readEach {α : Type} {read : Int → Except ReadFault α} {size start : Int} {count : Nat} {elements : List α}
    (h : readEach read size count start = .ok elements) : ∀ element ∈ elements, ∃ position, read position = .ok element := by
  induction count generalizing start elements with
  | zero =>
    cases h
    intro element helement
    cases helement
  | succ count ih =>
    obtain ⟨first, hfirst, h⟩ := exists_of_bind_eq_ok h
    obtain ⟨rest, hrest, h⟩ := exists_of_bind_eq_ok h
    cases h
    intro element helement
    rcases List.mem_cons.mp helement with rfl | helement
    · exact ⟨start, hfirst⟩
    · exact ih hrest element helement

/-- A cut is never longer than its ends are apart, from whichever end of the data they count. -/
theorem length_cut_le (data : Array UInt8) (start : Int) (count : Nat) : (cut data start (start + count)).length ≤ count := by
  rw [cut, Array.length_toList, Array.size_extract]
  unfold offsetOf
  split <;> split <;> omega

/-- A slot that is read is what four bytes say. -/
theorem exists_bytes_of_mem_readSlots {order : ByteOrder} {data : List UInt8} {extent : Extent} {slots : List Slot}
    (h : readSlots order data extent = .ok slots) :
    ∀ slot ∈ slots, ∃ bytes : List UInt8, bytes.length = 4 ∧ slot = slotOfBytes order bytes := by
  rw [readSlots] at h
  split at h
  · cases h
  intro slot hslot
  obtain ⟨position, hread⟩ := mem_readEach h slot hslot
  rw [readSlot] at hread
  split at hread
  · cases hread
  · rename_i hlong
    have hshort := length_cut_le data.toArray position slotSize
    refine ⟨cut data.toArray position (position + slotSize), ?_, (Except.ok.inj hread).symm⟩
    exact Nat.le_antisymm hshort (Nat.le_of_not_lt hlong)

/-- The text section that was read so far holds words. -/
def Parts.HasWords (parts : Parts) : Prop :=
  ∀ slots, parts.text = some slots → ∀ slot ∈ slots, 0 ≤ slot.payload ∧ slot.payload < 0x100000000

section Words

variable {order : ByteOrder} {decoder : Decoder} {data : List UInt8} {parts : Parts}

/-- A section that is read leaves all payloads words. -/
theorem Parts.HasWords.readSection {s : Section} {result : Option Parts} (hparts : parts.HasWords)
    (h : readSection order decoder data parts s = .ok result) : (result.getD parts).HasWords := by
  rw [Container.readSection] at h
  split at h
  · cases h
  split at h
  · obtain ⟨labels, -, rfl⟩ := exists_of_map_eq_ok h
    exact hparts
  · obtain ⟨labels, -, rfl⟩ := exists_of_map_eq_ok h
    exact hparts
  · obtain ⟨slots, hslots, rfl⟩ := exists_of_map_eq_ok h
    rintro _ ⟨rfl⟩ slot hslot
    obtain ⟨bytes, hlength, rfl⟩ := exists_bytes_of_mem_readSlots hslots slot hslot
    have hvalue := order.value_lt bytes
    rw [hlength] at hvalue
    exact ⟨Int.natCast_nonneg _, Int.ofNat_lt.mpr hvalue⟩
  · obtain ⟨bytes, -, rfl⟩ := exists_of_map_eq_ok h
    exact hparts
  · obtain ⟨strings, -, rfl⟩ := exists_of_map_eq_ok h
    exact hparts
  · cases h
    exact hparts

/-- Sections that are read leave all payloads words. -/
theorem Parts.HasWords.readSections {sections : List Section} {final : Parts} (hparts : parts.HasWords)
    (h : (readSections order decoder data parts sections).outcome = .ok final) : final.HasWords := by
  induction sections generalizing parts with
  | nil =>
    cases h
    exact hparts
  | cons s rest ih =>
    rw [readSections_cons_outcome] at h
    obtain ⟨more, hmore, hrest⟩ := exists_of_bind_eq_ok h
    obtain ⟨result, hresult, rfl⟩ := exists_of_map_eq_ok hmore
    exact ih (hparts.readSection hresult) hrest

end Words

end FlowListing.Container

namespace FlowListing

open Container Encoding

/-- The payloads of a script that was read are words. -/
theorem Script.wordPayloads_of_read {data : List UInt8} {decoder : Decoder} {forced : Option ByteOrder} {script : Script}
    (h : (Script.read data decoder forced).outcome = .ok script) : script.WordPayloads := by
  rw [Script.read] at h
  split at h
  · cases h
  · split at h
    · cases h
    · obtain ⟨parts, hparts, rfl⟩ := exists_of_map_eq_ok h
      have hempty : Parts.HasWords {} := by
        intro slots hslots
        cases hslots
      have hwords := hempty.readSections hparts
      intro slot hslot
      cases htext : parts.text with
      | none =>
        rw [Parts.script, htext] at hslot
        cases hslot
      | some slots =>
        rw [Parts.script, htext] at hslot
        exact hwords slots htext slot hslot

end FlowListing
