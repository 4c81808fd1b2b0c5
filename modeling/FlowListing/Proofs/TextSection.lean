import Mathlib
import FlowListing.Proofs.Layout
import FlowListing.Proofs.Views

/-!
# The text section

A text section that lies inside the data is read whole: whatever its bytes are, they are words written one after another
(`exists_words`), and reading gives one slot for each. A slot shows its four bytes as two halves, as a word without a sign and as a
word with one. Each of these views tells the others (`Slot.ViewsAgree`, `Slot.signed_of_word`), so that the payloads, written again,
are the bytes that were read (`readSlots_lossless`).
-/

namespace FlowListing

open Container

/-! ## Words with a sign -/

/-- The numbers with a sign that 32 bits hold. -/
def IsSignedWord (n : ℤ) : Prop :=
  -0x80000000 ≤ n ∧ n < 0x80000000

instance (n : ℤ) : Decidable (IsSignedWord n) :=
  inferInstanceAs (Decidable (_ ∧ _))

/-- The only signed word that a number leaves, up to a multiple of 2³², is its balanced remainder. -/
theorem isSignedWord_modEq_iff (n payload : ℤ) :
    IsSignedWord n ∧ n ≡ payload [ZMOD 0x100000000] ↔ n = payload.bmod 0x100000000 := by
  unfold IsSignedWord Int.ModEq
  rw [Int.bmod_def]
  split <;> omega

/-- A payload that is a word is read with a sign, as the one signed word that has the same bits, and gives the payload back. -/
theorem Slot.signed_of_word {slot : Slot} (h : 0 ≤ slot.payload ∧ slot.payload < 0x100000000) :
    ∃ n, slot.signed = .ok n ∧ (∀ m, IsSignedWord m ∧ m ≡ slot.payload [ZMOD 0x100000000] ↔ m = n) ∧
      (Slot.ofInt n).payload = slot.payload := by
  have hword : (slot.payload.toNat : ℤ) = slot.payload := Int.toNat_of_nonneg h.1
  refine ⟨slot.payload.bmod 0x100000000, ?_, fun m => isSignedWord_modEq_iff m slot.payload, ?_⟩
  · rw [Slot.signed, Slot.word_of_range h, ← hword]
    rfl
  · -- the balanced remainder and the payload have the same low bits
    have hbits : slot.payload.bmod 0x100000000 % 0x100000000 = slot.payload % 0x100000000 := Int.bmod_emod
    exact hbits.trans (Int.emod_eq_of_lt h.1 h.2)

/-! ## The views of a slot -/

/-- The opcode and the short of a slot are the halves of its payload, in the order in which they are written. -/
structure Slot.ViewsAgree (order : ByteOrder) (slot : Slot) : Prop where
  opcode : 0 ≤ slot.opcode ∧ slot.opcode < 0x10000
  short : -0x8000 ≤ slot.short ∧ slot.short < 0x8000
  payload : 0 ≤ slot.payload ∧ slot.payload < 0x100000000
  little : order = .little → slot.payload = slot.opcode + 0x10000 * (slot.short % 0x10000)
  big : order = .big → slot.payload = 0x10000 * slot.opcode + slot.short % 0x10000

namespace Container

/-- A half as a signed number has 16 bits, and they are those of the half. -/
theorem signedHalf_bounds {n : ℕ} (h : n < 0x10000) :
    (-0x8000 ≤ signedHalf n ∧ signedHalf n < 0x8000) ∧ signedHalf n % 0x10000 = n := by
  unfold signedHalf
  rw [Int.bmod_def]
  split <;> omega

/-- Four bytes that are read as a slot are read in views that agree. -/
theorem viewsAgree_slotOfBytes (order : ByteOrder) {bytes : List UInt8} (h : bytes.length = 4) :
    (slotOfBytes order bytes).ViewsAgree order := by
  have hfirst := order.field_two_lt bytes 0
  have hsecond := order.field_two_lt bytes 2
  have hvalue := order.value_lt bytes
  have hjoin := order.value_eq_join h
  obtain ⟨hshort, hbits⟩ := signedHalf_bounds hsecond
  rw [h] at hvalue
  refine ⟨⟨Int.natCast_nonneg _, ?_⟩, ?_, ⟨Int.natCast_nonneg _, ?_⟩, ?_, ?_⟩
  · simp only [slotOfBytes]
    exact_mod_cast hfirst
  · simpa only [slotOfBytes] using hshort
  · simp only [slotOfBytes]
    exact_mod_cast hvalue
  · rintro rfl
    simp only [slotOfBytes, hbits, hjoin, ByteOrder.join]
    push_cast
    rfl
  · rintro rfl
    simp only [slotOfBytes, hbits, hjoin, ByteOrder.join]
    push_cast
    rfl

/-! ## Bytes as words -/

/-- The bytes of the number that bytes stand for are the bytes. -/
theorem littleBytes_littleValue (bytes : List UInt8) : littleBytes bytes.length (littleValue bytes) = bytes := by
  induction bytes with
  | nil => rfl
  | cons b rest ih =>
    have hb : b.toNat < 256 := b.toNat_lt
    have hlow : UInt8.ofNat (b.toNat + 256 * littleValue rest) = b := by
      apply UInt8.toNat_inj.mp
      rw [UInt8.toNat_ofNat']
      omega
    have hhigh : (b.toNat + 256 * littleValue rest) / 256 = littleValue rest := by omega
    rw [littleValue, List.length_cons, littleBytes, hlow, hhigh, ih]

/-- Bytes are given back by their number. -/
theorem ByteOrder.bytes_value (order : ByteOrder) (bytes : List UInt8) :
    order.bytes bytes.length (order.value bytes) = bytes := by
  cases order with
  | little => exact littleBytes_littleValue bytes
  | big =>
    have hlittle := littleBytes_littleValue bytes.reverse
    rw [List.length_reverse] at hlittle
    rw [ByteOrder.value, ByteOrder.bytes, hlittle, List.reverse_reverse]

/-- Bytes whose number is a multiple of four are words, written one after another. -/
theorem exists_words (order : ByteOrder) {count : ℕ} {bytes : List UInt8} (h : bytes.length = 4 * count) :
    ∃ words : List UInt32, words.length = count ∧ words.flatMap (fun word => order.bytes 4 word.toNat) = bytes := by
  induction count generalizing bytes with
  | zero => exact ⟨[], rfl, (List.eq_nil_of_length_eq_zero h).symm⟩
  | succ count ih =>
    have hfirst : (bytes.take 4).length = 4 := by
      rw [List.length_take]
      omega
    have hrest : (bytes.drop 4).length = 4 * count := by
      rw [List.length_drop]
      omega
    obtain ⟨words, hlength, hwords⟩ := ih hrest
    have hlt : order.value (bytes.take 4) < 2 ^ 32 := by
      have hvalue := order.value_lt (bytes.take 4)
      rwa [hfirst] at hvalue
    have hback := order.bytes_value (bytes.take 4)
    rw [hfirst] at hback
    refine ⟨UInt32.ofNat (order.value (bytes.take 4)) :: words, by rw [List.length_cons, hlength], ?_⟩
    rw [List.flatMap_cons, hwords, UInt32.toNat_ofNat_of_lt' hlt, hback, List.take_append_drop]

/-- A text section that lies inside the data is read as one slot for each of its elements, and nothing of it is lost:

* the opcode, the short and the payload of a slot are within their 16, 16 and 32 bits, and the payload is made of the other two;
* the payloads, written as words in the same order, are the bytes of the section;
* the payload with a sign is the one signed word that it leaves up to a multiple of 2³², and the slot made of that has the payload. -/
theorem readSlots_lossless (order : ByteOrder) (data : List UInt8) (s : Section) (hsize : s.elementSize = 4)
    (hfits : s.address + 4 * s.count ≤ data.length) :
    ∃ slots, readSlots order data s.extent = .ok slots ∧ slots.length = s.count ∧
      (∀ slot ∈ slots, slot.ViewsAgree order) ∧
      slots.flatMap (fun slot => order.bytes 4 slot.payload.toNat) = slice data s.address (4 * s.count) ∧
      ∀ slot ∈ slots, ∃ n, slot.signed = .ok n ∧
        (∀ m, IsSignedWord m ∧ m ≡ slot.payload [ZMOD 0x100000000] ↔ m = n) ∧ (Slot.ofInt n).payload = slot.payload := by
  obtain ⟨words, hcount, hbytes⟩ := exists_words order (length_slice_of_le hfits)
  have hat : HasAt data s.address ((words.map Cell.word).flatMap (Cell.encode order)) := by
    rw [List.flatMap_map]
    exact hbytes ▸ List.take_prefix _ _
  have hread := readSlots_of_hasAt order hat
  rw [List.length_map, hcount] at hread
  have hextent : s.extent = ⟨(4 : ℕ), s.count, s.address⟩ := by rw [Section.extent, hsize]
  have hviews : ∀ slot ∈ (words.map Cell.word).map (Cell.slot order), slot.ViewsAgree order := by
    intro slot hslot
    obtain ⟨bytes, hlength, rfl⟩ := exists_bytes_of_mem_readSlots hread slot hslot
    exact viewsAgree_slotOfBytes order hlength
  refine ⟨(words.map Cell.word).map (Cell.slot order), hextent ▸ hread, by simp [hcount], hviews, ?_, ?_⟩
  · rw [← hbytes, List.flatMap_map, List.flatMap_map]
    simp
  · intro slot hslot
    exact Slot.signed_of_word (hviews slot hslot).payload

/-- Two slots at an odd address, whose shorts and payloads are at the ends of their ranges, in both orders. -/
theorem readSlots_lossless_ends :
    let data : List UInt8 := [7, 0xFF, 0xFF, 0, 0x80, 0x80, 0, 0xFF, 0xFF, 7]
    let s : Section := ⟨2, 4, 2, 1⟩
    (readSlots .little data s.extent = .ok [⟨0xFFFF, -0x8000, 0x8000FFFF⟩, ⟨0x80, -1, 0xFFFF0080⟩] ∧
      [0x8000FFFF, 0xFFFF0080].flatMap (ByteOrder.little.bytes 4) = slice data 1 8) ∧
    (readSlots .big data s.extent = .ok [⟨0xFFFF, 0x80, 0xFFFF0080⟩, ⟨0x8000, -1, 0x8000FFFF⟩] ∧
      [0xFFFF0080, 0x8000FFFF].flatMap (ByteOrder.big.bytes 4) = slice data 1 8) ∧
    (Slot.mk 0xFFFF 0x80 0xFFFF0080).signed = .ok (-0xFF80) := by
  intro data s
  obtain ⟨little, hlittle, -, -, hlittleBytes, -⟩ := readSlots_lossless .little data s rfl (by decide)
  obtain ⟨big, hbig, -, -, hbigBytes, hsigned⟩ := readSlots_lossless .big data s rfl (by decide)
  have hlittleSlots : readSlots .little data s.extent = .ok [⟨0xFFFF, -0x8000, 0x8000FFFF⟩, ⟨0x80, -1, 0xFFFF0080⟩] := by
    decide +kernel
  have hbigSlots : readSlots .big data s.extent = .ok [⟨0xFFFF, 0x80, 0xFFFF0080⟩, ⟨0x8000, -1, 0x8000FFFF⟩] := by
    decide +kernel
  cases Except.ok.inj (hlittle.symm.trans hlittleSlots)
  cases Except.ok.inj (hbig.symm.trans hbigSlots)
  obtain ⟨n, hn, honly, -⟩ := hsigned _ List.mem_cons_self
  refine ⟨⟨hlittle, hlittleBytes⟩, ⟨hbig, hbigBytes⟩, ?_⟩
  rw [hn, ← (honly (-0xFF80)).mp ⟨by decide, by decide⟩]

end Container

end FlowListing
