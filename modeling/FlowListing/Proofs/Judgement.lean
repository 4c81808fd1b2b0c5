import FlowListing.Container.Reader
import FlowListing.Proofs.Elements

/-!
# What the parts of the reader judge

Each part of the reader *judges* two conditions (`Judges`): one under which it succeeds, and one under which it meets a given fault of the
codec. In all other cases it reports a fault of the format. The two conditions of a whole are put together from those of its parts, by
`Judges.bind` and `judges_unless`.

A section is read when it is well-formed, for a decoder; the codec fails in a way of its own on it (`Section.Raises`) when it does so on one
of its names or strings and those in front are in order. No field is ever cut short: that a section lies inside the data is checked with the
table, and is what makes its elements whole (`Section.element_inside`).
-/

namespace FlowListing.Container

open Encoding

/-! ## The format of a section -/

/-- The name of the label with a number in a section: the bytes of its field before the first zero byte. -/
def Section.nameBytes (s : Section) (data : List UInt8) (i : Nat) : List UInt8 :=
  (slice data (s.address + i * s.elementSize) (s.elementSize - 8)).takeWhile (· ≠ 0)

/-- The elements of a section have the size that its type asks for. -/
def Section.Sized (s : Section) : Prop :=
  match s.kind with
  | 0 | 1 => 8 < s.elementSize
  | 2 => s.elementSize = 4
  | 3 | 4 => s.elementSize = 1
  | _ => True

/-- A section has a name under its number, or a string under its offset. -/
def Section.TextAt (data : List UInt8) (s : Section) (key : Nat) (bytes : List UInt8) : Prop :=
  match s.kind with
  | 0 | 1 => key < s.count ∧ bytes = s.nameBytes data key
  | 4 =>
    let raw := slice data s.address s.size
    StringStart raw key ∧ bytes = stringBytes raw key
  | _ => False

/-- The elements of a section have the size that its type asks for, and its names or strings decode. -/
structure Section.WellFormed (decoder : Decoder) (data : List UInt8) (s : Section) : Prop where
  sized : s.Sized
  decodes : ∀ key bytes, s.TextAt data key bytes → Decodes decoder bytes

/-- The elements of a section have the size that its type asks for, and on the first of its names or strings that does not decode the codec
fails in a way of its own. -/
structure Section.Raises (decoder : Decoder) (data : List UInt8) (fault : CodecFault) (s : Section) : Prop where
  sized : s.Sized
  raised : ∃ key bytes, s.TextAt data key bytes ∧ decodeText decoder bytes = .error (.codec fault) ∧
    ∀ earlier < key, ∀ bytes, s.TextAt data earlier bytes → Decodes decoder bytes

/-- No known type occurs twice. -/
def OnceEach (sections : List Section) : Prop :=
  ((sections.map Section.kind).filter (· ≤ 4)).Nodup

/-! ## Judging conditions -/

/-- A part of the reader succeeds where the first condition holds, and meets a fault of the codec where the second holds of it. In all other
cases it reports a fault of the format, since it never meets a field that is cut short. -/
structure Judges {α : Type} (result : Except ReadFault α) (good : Prop) (raises : CodecFault → Prop) : Prop where
  ok_iff : (∃ a, result = .ok a) ↔ good
  codec_iff : ∀ fault, result = .error (.codec fault) ↔ raises fault
  whole : ∀ needed, result ≠ .error (.shortField needed)

section Judges

variable {α β : Type} {result : Except ReadFault α} {good good' : Prop} {raises raises' : CodecFault → Prop}

/-- What always succeeds meets no fault. -/
theorem judges_ok (a : α) : Judges (.ok a) True fun _ => False where
  ok_iff := iff_of_true ⟨a, rfl⟩ trivial
  codec_iff := by simp
  whole := by simp

/-- A refusal is a fault of the format. -/
theorem judges_refusal (fault : FormatFault) : Judges (.error (.format fault) : Except ReadFault α) False fun _ => False where
  ok_iff := by simp
  codec_iff := by simp
  whole := by simp

/-- What is judged can be put in other words. -/
theorem Judges.of_iff (h : Judges result good raises) (hgood : good ↔ good') (hraises : ∀ fault, raises fault ↔ raises' fault) :
    Judges result good' raises' where
  ok_iff := h.ok_iff.trans hgood
  codec_iff fault := (h.codec_iff fault).trans (hraises fault)
  whole := h.whole

/-- A part of the reader has one of three outcomes. -/
theorem Judges.cases (h : Judges result good raises) :
    (good ∧ ∃ a, result = .ok a) ∨ (∃ fault, raises fault ∧ result = .error (.codec fault)) ∨
      (¬good ∧ (∀ fault, ¬raises fault) ∧ ∃ fault, result = .error (.format fault)) := by
  cases hresult : result with
  | ok a => exact .inl ⟨h.ok_iff.mp ⟨a, hresult⟩, a, rfl⟩
  | error fault =>
    cases fault with
    | codec fault => exact .inr (.inl ⟨fault, (h.codec_iff fault).mp hresult, rfl⟩)
    | shortField needed => exact absurd hresult (h.whole needed)
    | format fault =>
      refine .inr (.inr ⟨?_, ?_, fault, rfl⟩)
      · rw [← h.ok_iff, hresult]
        simp
      · intro other
        rw [← h.codec_iff, hresult]
        simp

/-- What is made of a value changes no judgement. -/
theorem Judges.map (h : Judges result good raises) (f : α → β) : Judges (result.map f) good raises := by
  obtain ⟨hok, hcodec, hwhole⟩ := h
  cases result with
  | ok a => exact ⟨iff_of_true ⟨f a, rfl⟩ (hok.mp ⟨a, rfl⟩), fun fault => by simpa [Except.map] using hcodec fault, by simp [Except.map]⟩
  | error fault =>
    refine ⟨?_, fun other => ?_, ?_⟩
    · simpa [Except.map] using hok
    · simpa [Except.map] using hcodec other
    · simpa [Except.map] using hwhole

/-- What comes second is judged on the values that the first part has. -/
theorem Judges.bind {next : α → Except ReadFault β} (h : Judges result good raises)
    (hnext : ∀ a, result = .ok a → Judges (next a) good' raises') :
    Judges (result >>= next) (good ∧ good') fun fault => raises fault ∨ good ∧ raises' fault := by
  obtain ⟨hok, hcodec, hwhole⟩ := h
  cases result with
  | ok a =>
    have hgood : good := hok.mp ⟨a, rfl⟩
    have hraises : ∀ fault, ¬raises fault := by
      intro fault
      rw [← hcodec]
      simp
    exact (hnext a rfl).of_iff (by simp [hgood]) (by simp [hgood, hraises])
  | error fault =>
    have hgood : ¬good := by
      rw [← hok]
      simp
    have hsame : ∀ other, (.error fault : Except ReadFault α) = .error other ↔ (.error fault : Except ReadFault β) = .error other := by simp
    exact ⟨iff_of_false (by rintro ⟨b, hb⟩; cases hb) (by simp [hgood]),
      fun other => ((hsame _).symm.trans (hcodec other)).trans (by simp [hgood]),
      fun needed hshort => hwhole needed ((hsame _).mpr hshort)⟩

/-- A refusal with a fault of the format judges that its reason does not hold. -/
theorem judges_unless {refused : Prop} [Decidable refused] (fault : FormatFault) (h : ¬refused → Judges result good raises) :
    Judges (if refused then .error (.format fault) else result) (¬refused ∧ good) fun fault => ¬refused ∧ raises fault := by
  by_cases hr : refused
  · rw [if_pos hr]
    exact (judges_refusal fault).of_iff (by simp [hr]) (by simp [hr])
  · rw [if_neg hr]
    exact (h hr).of_iff (by simp [hr]) (by simp [hr])

end Judges

/-! ## Elements -/

/-- Reading text judges whether it decodes. -/
theorem judges_readText (decoder : Decoder) (undecodable : DecodeFault → FormatFault) (bytes : List UInt8) :
    Judges (readText decoder undecodable bytes) (Decodes decoder bytes) fun fault => decodeText decoder bytes = .error (.codec fault) where
  ok_iff := exists_congr fun _ => readText_eq_ok_iff
  codec_iff fault := by
    rw [readText_eq_error_iff]
    constructor
    · rintro ⟨_ | reason, hreason, heq⟩
      · cases heq
      · cases heq
        exact hreason
    · intro hfault
      exact ⟨_, hfault, rfl⟩
  whole needed := by
    rw [ne_eq, readText_eq_error_iff]
    rintro ⟨_ | reason, -, heq⟩ <;> cases heq

/-- Counted from the second element on, an element stands where it does counted from the first. -/
theorem next_position (start size : Int) (i : Nat) : start + size + i * size = start + ((i + 1 : Nat) : Int) * size := by
  rw [Int.natCast_add, Int.add_mul, Int.natCast_one, Int.one_mul]
  omega

/-- Elements are read one after another, up to the first that fails. -/
theorem judges_readEach {α : Type} {read : Int → Except ReadFault α} {size start : Int} {count : Nat} {p : Nat → Prop}
    {raises : Nat → CodecFault → Prop} (h : ∀ i < count, Judges (read (start + i * size)) (p i) (raises i)) :
    Judges (readEach read size count start) (∀ i < count, p i) fun fault => ∃ i < count, raises i fault ∧ ∀ j < i, p j := by
  induction count generalizing start p raises with
  | zero => exact (judges_ok []).of_iff (by simp) (by simp)
  | succ count ih =>
    have hfirst : Judges (read start) (p 0) (raises 0) := by simpa using h 0 (Nat.succ_pos count)
    have hrest : Judges (readEach read size count (start + size)) (∀ i < count, p (i + 1))
        fun fault => ∃ i < count, raises (i + 1) fault ∧ ∀ j < i, p (j + 1) := by
      refine ih fun i hi => ?_
      rw [next_position]
      exact h (i + 1) (Nat.succ_lt_succ hi)
    refine (hfirst.bind fun a _ => hrest.bind fun as _ => judges_ok (a :: as)).of_iff ?_ fun fault => ?_
    · rw [and_true, Nat.forall_lt_succ_left']
    · rw [Nat.exists_lt_succ_left]
      simp only [and_false, or_false, Nat.forall_lt_succ_left', Nat.not_lt_zero, false_implies, implies_true, and_true]
      exact or_congr_right ⟨fun ⟨hp, i, hi, hraises, hearlier⟩ => ⟨i, hi, hraises, hp, hearlier⟩,
        fun ⟨i, hi, hraises, hp, hearlier⟩ => ⟨hp, i, hi, hraises, hearlier⟩⟩

/-- An element of a section that lies inside the data lies inside it. -/
theorem Section.element_inside {s : Section} {length i : Nat} (hin : s.address + s.size ≤ length) (hi : i < s.count) :
    s.address + i * s.elementSize + s.elementSize ≤ length := by
  have hmul : (i + 1) * s.elementSize ≤ s.count * s.elementSize := Nat.mul_le_mul_right _ hi
  rw [Nat.add_mul, Nat.one_mul] at hmul
  rw [size, Nat.mul_comm] at hin
  omega

/-- An element has room for a name in front of the rest of a label. -/
theorem Section.not_le_labelTail {s : Section} : ¬s.extent.elementSize ≤ labelTail ↔ 8 < s.elementSize := by
  simp only [extent, labelTail]
  omega

/-- An element has the size of a slot. -/
theorem Section.eq_slotSize {s : Section} : ¬s.extent.elementSize ≠ slotSize ↔ s.elementSize = 4 := by
  simp only [extent, slotSize]
  omega

section Contents

variable {decoder : Decoder} {data : List UInt8} {s : Section} (order : ByteOrder)

/-- A label of a section that lies inside the data is its name and the word after the field of the name. -/
theorem readLabel_element (decoder : Decoder) (hin : s.address + s.size ≤ data.length) (hlarge : 8 < s.elementSize) {i : Nat}
    (hi : i < s.count) :
    readLabel order decoder (s.extent.elementSize - labelTail) data.toArray (s.extent.address + i * s.extent.elementSize) =
      (readText decoder (.labelName decoder.name) (s.nameBytes data i)).map fun text =>
        ⟨text, order.field data (s.address + i * s.elementSize + (s.elementSize - 8)) 4⟩ := by
  have hname : s.extent.elementSize - labelTail = ((s.elementSize - 8 : Nat) : Int) := by
    simp only [Section.extent, labelTail]
    omega
  have hstart : s.extent.address + i * s.extent.elementSize = ((s.address + i * s.elementSize : Nat) : Int) := by
    simp [Section.extent]
  have hinside := Section.element_inside hin hi
  rw [hname, hstart, readLabel_of_inside order decoder (by rw [labelTail]; omega), Section.nameBytes]

/-- A slot of a section that lies inside the data is what its four bytes say. -/
theorem readSlot_element (hin : s.address + s.size ≤ data.length) (hfour : s.elementSize = 4) {i : Nat} (hi : i < s.count) :
    readSlot order data.toArray (s.extent.address + i * s.extent.elementSize) =
      .ok (slotOfBytes order (slice data (s.address + i * 4) 4)) := by
  have hstart : s.extent.address + i * s.extent.elementSize = ((s.address + i * s.elementSize : Nat) : Int) := by
    simp [Section.extent]
  have hinside := Section.element_inside hin hi
  rw [hfour] at hinside hstart
  exact hstart ▸ readSlot_of_inside order hinside

/-- The labels of a section are read where their names have room and decode. -/
theorem judges_readLabels (hin : s.address + s.size ≤ data.length) :
    Judges (readLabels order decoder data s.extent) (8 < s.elementSize ∧ ∀ i < s.count, Decodes decoder (s.nameBytes data i))
      fun fault => 8 < s.elementSize ∧ ∃ i < s.count, decodeText decoder (s.nameBytes data i) = .error (.codec fault) ∧
        ∀ j < i, j < s.count → Decodes decoder (s.nameBytes data j) := by
  refine (judges_unless _ fun hbig => judges_readEach fun i hi => ?_).of_iff (and_congr_left' Section.not_le_labelTail)
    fun fault => and_congr Section.not_le_labelTail (exists_congr fun i => and_congr_right fun hi => and_congr_right' ?_)
  · rw [readLabel_element order decoder hin (Section.not_le_labelTail.mp hbig) hi]
    exact (judges_readText decoder _ _).map _
  · have hcount : i < s.count := hi
    exact forall₂_congr fun j hj => ⟨fun h _ => h, fun h => h (Nat.lt_trans hj hcount)⟩

/-- The slots of a section are read where they have their size. -/
theorem judges_readSlots (hin : s.address + s.size ≤ data.length) :
    Judges (readSlots order data s.extent) (s.elementSize = 4) fun _ => False := by
  have hslot : ¬s.extent.elementSize ≠ slotSize → ∀ i < s.count,
      Judges (readSlot order data.toArray (s.extent.address + i * s.extent.elementSize)) True fun _ => False := by
    intro hfour i hi
    rw [readSlot_element order hin (Section.eq_slotSize.mp hfour) hi]
    exact judges_ok _
  exact (judges_unless _ fun hfour => judges_readEach (hslot hfour)).of_iff (by simpa using Section.eq_slotSize) (by simp)

/-- The bytes of a section are read where its elements are bytes. -/
theorem judges_readBytes : Judges (readBytes data s) (s.elementSize = 1) fun _ => False :=
  (judges_unless _ fun _ => judges_ok _).of_iff (by simp) (by simp)

/-- The bytes that are read are those of the section. -/
theorem eq_slice_of_readBytes {bytes : List UInt8} (h : readBytes data s = .ok bytes) : bytes = slice data s.address s.size := by
  rw [readBytes] at h
  split at h
  · cases h
  · exact (Except.ok.inj h).symm

/-- The strings of a section are read where all of them decode. -/
theorem judges_readStrings (raw : List UInt8) :
    Judges (readStrings decoder raw) (∀ offset, StringStart raw offset → Decodes decoder (stringBytes raw offset)) fun fault =>
      ∃ offset, StringStart raw offset ∧ decodeText decoder (stringBytes raw offset) = .error (.codec fault) ∧
        ∀ earlier < offset, StringStart raw earlier → Decodes decoder (stringBytes raw earlier) where
  ok_iff := exists_readStrings_iff
  codec_iff fault := by
    rw [readStrings_eq_error_iff]
    simp only [(judges_readText decoder _ _).codec_iff]
  whole needed := by
    rw [ne_eq, readStrings_eq_error_iff]
    rintro ⟨offset, -, hshort, -⟩
    exact (judges_readText decoder _ _).whole needed hshort

/-- A section of strings is read where its elements are bytes and its strings decode. -/
theorem judges_stringSection :
    Judges (readBytes data s >>= readStrings decoder)
      (s.elementSize = 1 ∧ ∀ offset, StringStart (slice data s.address s.size) offset →
        Decodes decoder (stringBytes (slice data s.address s.size) offset)) fun fault =>
      s.elementSize = 1 ∧ ∃ offset, StringStart (slice data s.address s.size) offset ∧
        decodeText decoder (stringBytes (slice data s.address s.size) offset) = .error (.codec fault) ∧
        ∀ earlier < offset, StringStart (slice data s.address s.size) earlier →
          Decodes decoder (stringBytes (slice data s.address s.size) earlier) := by
  refine (judges_readBytes.bind fun raw hraw => ?_).of_iff Iff.rfl fun fault => Iff.of_eq (false_or _)
  rw [eq_slice_of_readBytes hraw]
  exact judges_readStrings _

end Contents

/-! ## Sections -/

section Sections

variable {decoder : Decoder} {data : List UInt8} {order : ByteOrder} {parts more : Parts} {s : Section} {rest : List Section}

/-- What judges the size of the elements of a section and its texts, one under each key, judges the section. -/
theorem Judges.section {α : Type} {result : Except ReadFault α} {key : Nat → Prop} {text : Nat → List UInt8}
    (htext : ∀ i bytes, s.TextAt data i bytes ↔ key i ∧ bytes = text i)
    (h : Judges result (s.Sized ∧ ∀ i, key i → Decodes decoder (text i)) fun fault => s.Sized ∧
      ∃ i, key i ∧ decodeText decoder (text i) = .error (.codec fault) ∧ ∀ j < i, key j → Decodes decoder (text j)) :
    Judges result (s.WellFormed decoder data) fun fault => s.Raises decoder data fault := by
  have hdecodes : ∀ i, (∀ bytes, s.TextAt data i bytes → Decodes decoder bytes) ↔ (key i → Decodes decoder (text i)) := by
    intro i
    simp only [htext]
    exact ⟨fun h hkey => h _ ⟨hkey, rfl⟩, by rintro h _ ⟨hkey, rfl⟩; exact h hkey⟩
  refine h.of_iff ⟨?_, ?_⟩ fun fault => ⟨?_, ?_⟩
  · rintro ⟨hsized, hall⟩
    exact ⟨hsized, fun i => (hdecodes i).mpr (hall i)⟩
  · rintro ⟨hsized, hall⟩
    exact ⟨hsized, fun i => (hdecodes i).mp (hall i)⟩
  · rintro ⟨hsized, i, hkey, hfault, hearlier⟩
    exact ⟨hsized, i, _, (htext i _).mpr ⟨hkey, rfl⟩, hfault, fun j hj => (hdecodes j).mpr (hearlier j hj)⟩
  · rintro ⟨hsized, i, bytes, hbytes, hfault, hearlier⟩
    obtain ⟨hkey, rfl⟩ := (htext i bytes).mp hbytes
    exact ⟨hsized, i, hkey, hfault, fun j hj => (hdecodes j).mp (hearlier j hj)⟩

/-- What judges the size of the elements of a section that has no texts judges the section. -/
theorem Judges.section_of_sized {α : Type} {result : Except ReadFault α} (htext : ∀ i bytes, ¬s.TextAt data i bytes)
    (h : Judges result s.Sized fun _ => False) : Judges result (s.WellFormed decoder data) fun fault => s.Raises decoder data fault := by
  refine h.of_iff ⟨fun hsized => ⟨hsized, fun i bytes hbytes => absurd hbytes (htext i bytes)⟩, Section.WellFormed.sized⟩ fun fault => ?_
  refine iff_of_false id ?_
  rintro ⟨-, i, bytes, hbytes, -⟩
  exact htext i bytes hbytes

/-- A section whose type is new is read when it is well-formed. The cases are the types: labels of procedures, labels of jumps, slots,
message data, strings, and types that are not known. -/
theorem judges_readSection (hin : s.address + s.size ≤ data.length) (hnew : ¬parts.has s.kind = true) :
    Judges (readSection order decoder data parts s) (s.WellFormed decoder data) fun fault => s.Raises decoder data fault := by
  rw [readSection, if_neg hnew]
  rcases s with ⟨_ | _ | _ | _ | _ | kind, elementSize, count, address⟩
  · exact .section (fun _ _ => Iff.rfl) ((judges_readLabels order hin).map _)
  · exact .section (fun _ _ => Iff.rfl) ((judges_readLabels order hin).map _)
  · exact .section_of_sized (fun _ _ => id) ((judges_readSlots order hin).map _)
  · exact .section_of_sized (fun _ _ => id) (judges_readBytes.map _)
  · exact .section (fun _ _ => Iff.rfl) (judges_stringSection.map _)
  · exact .section_of_sized (fun _ _ => id) (judges_ok none)

/-- A section that is read adds its own type, which is a known one; a section that is passed over has a type that is not known. Each known
type sets its own part, and only that. -/
theorem readSection_eq_ok {result : Option Parts} (h : readSection order decoder data parts s = .ok result) :
    (∃ more, result = some more ∧ s.kind ≤ 4 ∧ ∀ kind, more.has kind = true ↔ parts.has kind = true ∨ kind = s.kind) ∨
      (result = none ∧ 4 < s.kind) := by
  rw [readSection] at h
  split at h
  · cases h
  rcases s with ⟨_ | _ | _ | _ | _ | kind, elementSize, count, address⟩
  rotate_left 5
  · cases h
    exact .inr ⟨rfl, by simp⟩
  all_goals
    obtain ⟨part, -, rfl⟩ := exists_of_map_eq_ok h
    refine .inl ⟨_, rfl, by simp, fun kind => ?_⟩
    rcases kind with _ | _ | _ | _ | _ | _ <;> simp [Parts.has]

/-- The sections behind one are read with what it gave. -/
theorem readSections_cons_outcome (order : ByteOrder) (decoder : Decoder) (data : List UInt8) (parts : Parts) (s : Section)
    (rest : List Section) :
    (readSections order decoder data parts (s :: rest)).outcome =
      (readSection order decoder data parts s).map (Option.getD · parts) >>= fun more =>
        (readSections order decoder data more rest).outcome := by
  rw [readSections]
  rcases readSection order decoder data parts s with fault | (_ | more) <;> rfl

/-- Sections that are still to be read: no known type occurs twice among them, and none of their types has been read. -/
def Parts.Awaits (parts : Parts) (sections : List Section) : Prop :=
  OnceEach sections ∧ ∀ s ∈ sections, ¬parts.has s.kind = true

/-- A section that is read is one of those that are not awaited any more. -/
theorem Parts.awaits_cons_of_known (hkind : s.kind ≤ 4) (hnew : ¬parts.has s.kind = true)
    (hhas : ∀ kind, more.has kind = true ↔ parts.has kind = true ∨ kind = s.kind) :
    parts.Awaits (s :: rest) ↔ more.Awaits rest := by
  simp only [Awaits, OnceEach, hhas, List.map_cons, List.filter_cons, decide_eq_true hkind, if_true, List.nodup_cons,
    List.forall_mem_cons, List.mem_filter, List.mem_map, not_or]
  constructor
  · rintro ⟨⟨hfresh, hnodup⟩, -, hrest⟩
    refine ⟨hnodup, fun t ht => ⟨hrest t ht, fun heq => hfresh ⟨⟨t, ht, heq⟩, trivial⟩⟩⟩
  · rintro ⟨hnodup, hrest⟩
    refine ⟨⟨?_, hnodup⟩, hnew, fun t ht => (hrest t ht).1⟩
    rintro ⟨⟨t, ht, heq⟩, -⟩
    exact (hrest t ht).2 heq

/-- A section that is passed over changes nothing. -/
theorem Parts.awaits_cons_of_unknown (hkind : 4 < s.kind) (hnew : ¬parts.has s.kind = true) :
    parts.Awaits (s :: rest) ↔ parts.Awaits rest := by
  have hlarge : ¬s.kind ≤ 4 := Nat.not_le.mpr hkind
  simp [Awaits, OnceEach, hlarge, hnew]

/-- What is awaited behind a section is what was awaited with it. -/
theorem Parts.awaits_of_readSection {result : Option Parts} (hnew : ¬parts.has s.kind = true)
    (h : readSection order decoder data parts s = .ok result) (rest : List Section) :
    (result.getD parts).Awaits rest ↔ parts.Awaits (s :: rest) := by
  rcases readSection_eq_ok h with ⟨more, rfl, hkind, hhas⟩ | ⟨rfl, hkind⟩
  · exact (awaits_cons_of_known hkind hnew hhas).symm
  · exact (awaits_cons_of_unknown hkind hnew).symm

/-- Before the first section no type has been read. -/
theorem Parts.not_has_empty (kind : Nat) : ¬Parts.has {} kind = true := by
  rcases kind with _ | _ | _ | _ | _ | _ <;> simp [has]

/-- Before the first section, only the types of the sections themselves matter. -/
theorem Parts.awaits_empty_iff {sections : List Section} : Parts.Awaits {} sections ↔ OnceEach sections :=
  and_iff_left fun s _ => Parts.not_has_empty s.kind

/-- Reading the sections that are left comes to one on which the codec fails in a way of its own. -/
def Parts.Raises (parts : Parts) (decoder : Decoder) (data : List UInt8) (fault : CodecFault) (sections : List Section) : Prop :=
  ∃ before s after, sections = before ++ s :: after ∧ parts.Awaits (before ++ [s]) ∧ (∀ t ∈ before, t.WellFormed decoder data) ∧
    s.Raises decoder data fault

/-- The codec fails in the first section, or in one behind it when the first is well-formed. -/
theorem Parts.raises_cons_iff {fault : CodecFault} (hnew : ¬parts.has s.kind = true) :
    parts.Raises decoder data fault (s :: rest) ↔
      s.Raises decoder data fault ∨ s.WellFormed decoder data ∧ ∃ before t after, rest = before ++ t :: after ∧
        parts.Awaits (s :: (before ++ [t])) ∧ (∀ u ∈ before, u.WellFormed decoder data) ∧ t.Raises decoder data fault := by
  constructor
  · rintro ⟨_ | ⟨first, before⟩, t, after, hsplit, hawaits, hbefore, hraises⟩
    · obtain ⟨rfl, -⟩ := List.cons.inj hsplit
      exact .inl hraises
    · obtain ⟨rfl, hrest⟩ := List.cons.inj hsplit
      obtain ⟨hwell, hbefore⟩ := List.forall_mem_cons.mp hbefore
      exact .inr ⟨hwell, before, t, after, hrest, hawaits, hbefore, hraises⟩
  · rintro (hraises | ⟨hwell, before, t, after, rfl, hawaits, hbefore, hraises⟩)
    · refine ⟨[], s, rest, rfl, ⟨?_, by simpa using hnew⟩, by simp, hraises⟩
      exact List.Pairwise.filter _ (List.pairwise_singleton _ _)
    · exact ⟨s :: before, t, after, rfl, hawaits, List.forall_mem_cons.mpr ⟨hwell, hbefore⟩, hraises⟩

/-- Nothing is read behind a type that occurs again. -/
theorem Parts.not_raises_of_has {fault : CodecFault} (h : parts.has s.kind = true) :
    ¬parts.Raises decoder data fault (s :: rest) := by
  rintro ⟨before, t, after, hsplit, ⟨-, hnew⟩, -⟩
  have hmem : s ∈ before ++ [t] := by
    cases before with
    | nil =>
      obtain ⟨rfl, -⟩ := List.cons.inj hsplit
      exact List.mem_singleton_self s
    | cons first before =>
      obtain ⟨rfl, -⟩ := List.cons.inj hsplit
      exact List.mem_cons_self
  exact hnew s hmem h

/-- Sections that lie inside the data are all read when their types are new and they are well-formed. Along the table, `Awaits` moves a
type from the sections that are left to those that were read. -/
theorem judges_readSections {sections : List Section} (hin : ∀ s ∈ sections, s.address + s.size ≤ data.length) (parts : Parts) :
    Judges (readSections order decoder data parts sections).outcome
      (parts.Awaits sections ∧ ∀ s ∈ sections, s.WellFormed decoder data) fun fault => parts.Raises decoder data fault sections := by
  induction sections generalizing parts with
  | nil => exact (judges_ok parts).of_iff (by simp [Parts.Awaits, OnceEach]) (by simp [Parts.Raises])
  | cons s rest ih =>
    rw [List.forall_mem_cons] at hin
    by_cases hnew : parts.has s.kind = true
    · rw [readSections, readSection, if_pos hnew]
      refine (judges_refusal _).of_iff (iff_of_false id ?_) fun fault => iff_of_false id (Parts.not_raises_of_has hnew)
      rintro ⟨⟨-, hawaits⟩, -⟩
      exact hawaits s List.mem_cons_self hnew
    · have hnext : ∀ more, (readSection order decoder data parts s).map (Option.getD · parts) = .ok more →
          Judges (readSections order decoder data more rest).outcome
            (parts.Awaits (s :: rest) ∧ ∀ t ∈ rest, t.WellFormed decoder data) fun fault =>
              ∃ before t after, rest = before ++ t :: after ∧ parts.Awaits (s :: (before ++ [t])) ∧
                (∀ u ∈ before, u.WellFormed decoder data) ∧ t.Raises decoder data fault := by
        intro more hmore
        obtain ⟨result, hok, rfl⟩ := exists_of_map_eq_ok hmore
        simpa only [Parts.Raises, Parts.awaits_of_readSection hnew hok] using ih hin.2 (result.getD parts)
      rw [readSections_cons_outcome]
      refine (((judges_readSection hin.1 hnew).map _).bind hnext).of_iff ?_ fun fault => (Parts.raises_cons_iff hnew).symm
      rw [List.forall_mem_cons, and_left_comm]

end Sections

end FlowListing.Container
