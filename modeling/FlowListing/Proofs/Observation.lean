import FlowListing.Proofs.Acceptance

/-!
# What reading looks at

Much of a container is never looked at: most of the header, what follows the zero byte of a name in its field, the last word of a
label, gaps, and sections of types that are not known. `Observed` names the offsets that are looked at, and data that agree on them are
read alike, faults included (`Script.read_of_agreeOn_observed`).

Sections may overlap one another, the table and the header, so agreement is a matter of offsets and not of parts. Each part of the
reader has its own congruence lemma, with agreement on no more than that part looks at; none of them asks that reading succeeds.
-/

namespace FlowListing.Container

open Encoding

/-! ## Bytes on which data agree -/

/-- Two sequences of bytes agree at the offsets that satisfy a condition: they have the same byte there, or both have ended. -/
def AgreeOn (p : Nat → Prop) (data data' : List UInt8) : Prop :=
  ∀ i, p i → data[i]? = data'[i]?

section Agreement

variable {p q : Nat → Prop} {data data' : List UInt8}

/-- Data that agree at some positions agree at fewer. -/
theorem AgreeOn.mono (h : AgreeOn p data data') (hle : ∀ i, q i → p i) : AgreeOn q data data' := by
  intro i hi
  exact h i (hle i hi)

/-- The bytes of a slice are looked up in the data. -/
theorem getElem?_slice (data : List UInt8) (offset count i : Nat) :
    (slice data offset count)[i]? = if i < count then data[offset + i]? else none := by
  rw [slice, List.getElem?_take, List.getElem?_drop]

/-- Data that agree on a range have the same slice there. -/
theorem AgreeOn.slice_eq {offset count : Nat} (h : AgreeOn (fun i => offset ≤ i ∧ i < offset + count) data data') :
    slice data offset count = slice data' offset count := by
  refine List.ext_getElem? fun i => ?_
  rw [getElem?_slice, getElem?_slice]
  by_cases hi : i < count
  · rw [if_pos hi, if_pos hi, h (offset + i) ⟨Nat.le_add_right _ _, Nat.add_lt_add_left hi offset⟩]
  · rw [if_neg hi, if_neg hi]

/-- Data that agree on a field have the same number there. -/
theorem AgreeOn.field_eq (order : ByteOrder) {offset count : Nat}
    (h : AgreeOn (fun i => offset ≤ i ∧ i < offset + count) data data') :
    order.field data offset count = order.field data' offset count :=
  congrArg order.value h.slice_eq

/-- What comes before the first zero byte depends on the bytes up to that one. -/
theorem AgreeOn.takeWhile_eq (h : AgreeOn (fun i => ∀ k < i, data[k]? ≠ some 0) data data') :
    data.takeWhile (· ≠ 0) = data'.takeWhile (· ≠ 0) := by
  induction data generalizing data' with
  | nil =>
    have hnil : data' = [] := by simpa using (h 0 (by simp)).symm
    rw [hnil]
  | cons b rest ih =>
    obtain ⟨rest', rfl⟩ : ∃ rest', data' = b :: rest' := by
      have hfirst := h 0 (by simp)
      cases data' with
      | nil => simp at hfirst
      | cons b' rest' =>
        obtain rfl : b = b' := by simpa using hfirst
        exact ⟨rest', rfl⟩
    by_cases hb : b = 0
    · simp [hb]
    · have hrest : AgreeOn (fun i => ∀ k < i, rest[k]? ≠ some 0) rest rest' := by
        intro i hi
        refine h (i + 1) fun k hk => ?_
        cases k with
        | zero => simpa using hb
        | succ k => exact hi k (Nat.lt_of_succ_lt_succ hk)
      rw [List.takeWhile_cons, List.takeWhile_cons, ih hrest]

end Agreement

/-! ## The table -/

section Table

variable {data data' : List UInt8} {order : ByteOrder}

/-- The bytes of the entry with a number. -/
def entryAt (data : List UInt8) (i : Nat) : List UInt8 :=
  slice data (headerSize + entrySize * i) entrySize

/-- An entry of the table is what its own 16 bytes say. -/
theorem sectionAt_eq_readEntry (order : ByteOrder) (data : List UInt8) (i : Nat) :
    sectionAt order data i = readEntry order (entryAt data i) := by
  unfold sectionAt readEntry entryAt headerSize entrySize
  simp (disch := decide) only [order.field_slice, Nat.add_zero]

/-- Data that agree on the table have the same entries. -/
theorem AgreeOn.sectionAt_eq (order : ByteOrder) {count i : Nat} (h : AgreeOn (fun k => 32 ≤ k ∧ k < 32 + 16 * count) data data')
    (hi : i < count) : sectionAt order data i = sectionAt order data' i := by
  have hentry : entryAt data i = entryAt data' i := by
    refine AgreeOn.slice_eq (h.mono fun k hk => ?_)
    simp only [headerSize, entrySize] at hk
    omega
  rw [sectionAt_eq_readEntry, sectionAt_eq_readEntry, hentry]

/-- Entries that say the same are read alike, and run past the end of data of the same length alike. -/
theorem readEntries_congr {length count : Nat} (position first : Nat)
    (h : ∀ i, first ≤ i → i < first + count → sectionAt order data i = sectionAt order data' i) :
    readEntries order length count position (data.drop (headerSize + entrySize * first)) =
      readEntries order length count position (data'.drop (headerSize + entrySize * first)) := by
  induction count generalizing position first with
  | zero => rfl
  | succ count ih =>
    have hrest : ∀ i, first + 1 ≤ i → i < first + 1 + count → sectionAt order data i = sectionAt order data' i := by
      intro i hle hlt
      exact h i (by omega) (by omega)
    simp only [readEntries, readEntry_drop, drop_entry]
    rw [h first (Nat.le_refl _) (by omega), ih (position + 1) (first + 1) hrest]

/-- The table depends on its entries and on the length of the data. -/
theorem readTable_congr {count : Nat} (hlength : data.length = data'.length)
    (hentries : ∀ i < count, sectionAt order data i = sectionAt order data' i) :
    readTable order count data = readTable order count data' := by
  have h : readEntries order data.length count 0 (data.drop headerSize) =
      readEntries order data.length count 0 (data'.drop headerSize) :=
    readEntries_congr 0 0 fun i _ hi => hentries i (by omega)
  unfold readTable
  rw [Int.toNat_natCast, h, hlength]

end Table

/-! ## The contents of sections -/

/-- The offsets that are used of a label which starts at an offset and has a field of some size for its name: the name, with the zero
byte that ends it if there is one, and the word after the field. -/
def UsedInLabel (data : List UInt8) (start nameSize i : Nat) : Prop :=
  (start ≤ i ∧ i < start + nameSize ∧ ∀ k < i, start ≤ k → data[k]? ≠ some 0) ∨
    (start + nameSize ≤ i ∧ i < start + nameSize + 4)

instance (data : List UInt8) (start nameSize i : Nat) : Decidable (UsedInLabel data start nameSize i) :=
  inferInstanceAs (Decidable (_ ∨ _))

/-- The offsets that are used of a section: those of its labels, or all of a text, message or string section. Nothing is used of a
section of a type that is not known, nor of labels that have no room for a name. -/
def Section.Uses (s : Section) (data : List UInt8) (i : Nat) : Prop :=
  (s.kind ≤ 1 ∧ 8 < s.elementSize ∧
      ∃ j < s.count, UsedInLabel data (s.address + j * s.elementSize) (s.elementSize - 8) i) ∨
    (2 ≤ s.kind ∧ s.kind ≤ 4 ∧ s.address ≤ i ∧ i < s.address + s.elementSize * s.count)

instance (s : Section) (data : List UInt8) (i : Nat) : Decidable (s.Uses data i) :=
  inferInstanceAs (Decidable (_ ∨ _))

section Contents

variable {data data' : List UInt8} {s : Section} (order : ByteOrder) (decoder : Decoder)

/-- The name in a field depends on the bytes up to the first zero byte. -/
theorem takeWhile_slice_congr {start nameSize : Nat} (h : AgreeOn (UsedInLabel data start nameSize) data data') :
    (slice data start nameSize).takeWhile (· ≠ 0) = (slice data' start nameSize).takeWhile (· ≠ 0) := by
  refine AgreeOn.takeWhile_eq fun i hi => ?_
  rw [getElem?_slice, getElem?_slice]
  by_cases hlt : i < nameSize
  · rw [if_pos hlt, if_pos hlt]
    refine h (start + i) (.inl ⟨Nat.le_add_right _ _, Nat.add_lt_add_left hlt start, fun k hk hle => ?_⟩)
    have hbefore := hi (k - start) (by omega)
    rwa [getElem?_slice, if_pos (by omega), Nat.add_sub_cancel' hle] at hbefore
  · rw [if_neg hlt, if_neg hlt]

/-- Reading elements depends on what is read at each of them. -/
theorem readEach_congr {α : Type} {read read' : Int → Except ReadFault α} {size start : Int} {count : Nat}
    (h : ∀ i < count, read (start + i * size) = read' (start + i * size)) :
    readEach read size count start = readEach read' size count start := by
  induction count generalizing start with
  | zero => rfl
  | succ count ih =>
    have hfirst : read start = read' start := by simpa using h 0 (Nat.succ_pos count)
    have hrest : readEach read size count (start + size) = readEach read' size count (start + size) := by
      refine ih fun i hi => ?_
      rw [next_position]
      exact h (i + 1) (Nat.succ_lt_succ hi)
    rw [readEach, readEach, hfirst, hrest]

/-- Labels depend on the bytes that their section uses. -/
theorem readLabels_congr (hin : s.address + s.size ≤ data.length) (hin' : s.address + s.size ≤ data'.length)
    (hkind : s.kind ≤ 1) (h : AgreeOn (s.Uses data) data data') :
    readLabels order decoder data s.extent = readLabels order decoder data' s.extent := by
  unfold readLabels
  split
  · rfl
  · rename_i hbig
    have hlarge := Section.not_le_labelTail.mp hbig
    refine readEach_congr fun i hi => ?_
    have hlabel : AgreeOn (UsedInLabel data (s.address + i * s.elementSize) (s.elementSize - 8)) data data' :=
      h.mono fun k hk => .inl ⟨hkind, hlarge, i, by simpa [Section.extent] using hi, hk⟩
    have hword := AgreeOn.field_eq order (hlabel.mono fun k hk => .inr hk)
    rw [readLabel_element order decoder hin hlarge (by simpa [Section.extent] using hi),
      readLabel_element order decoder hin' hlarge (by simpa [Section.extent] using hi), Section.nameBytes, Section.nameBytes,
      takeWhile_slice_congr hlabel, hword]

/-- Slots depend on the bytes of their section. -/
theorem readSlots_congr (hin : s.address + s.size ≤ data.length) (hin' : s.address + s.size ≤ data'.length)
    (h : AgreeOn (fun i => s.address ≤ i ∧ i < s.address + s.size) data data') :
    readSlots order data s.extent = readSlots order data' s.extent := by
  unfold readSlots
  split
  · rfl
  · rename_i hsize
    have hfour := Section.eq_slotSize.mp hsize
    refine readEach_congr fun i hi => ?_
    have hcount : i < s.count := by simpa [Section.extent] using hi
    have hslot : AgreeOn (fun k => s.address + i * 4 ≤ k ∧ k < s.address + i * 4 + 4) data data' := by
      refine h.mono fun k hk => ?_
      have hinside := Section.element_inside (Nat.le_refl (s.address + s.size)) hcount
      rw [hfour] at hinside
      omega
    rw [readSlot_element order hin hfour hcount, readSlot_element order hin' hfour hcount, hslot.slice_eq]

/-- The bytes of a section depend on nothing else. -/
theorem readBytes_congr (h : AgreeOn (fun i => s.address ≤ i ∧ i < s.address + s.size) data data') :
    readBytes data s = readBytes data' s := by
  unfold readBytes
  rw [h.slice_eq]

/-- A section that lies inside data which agree on what it uses is read alike. -/
theorem readSection_congr (parts : Parts) (hin : s.address + s.size ≤ data.length) (hin' : s.address + s.size ≤ data'.length)
    (h : AgreeOn (s.Uses data) data data') :
    readSection order decoder data parts s = readSection order decoder data' parts s := by
  have hall : 2 ≤ s.kind → s.kind ≤ 4 → AgreeOn (fun i => s.address ≤ i ∧ i < s.address + s.size) data data' := by
    intro hlow hhigh
    exact h.mono fun i hi => .inr ⟨hlow, hhigh, hi⟩
  unfold readSection
  split
  · rfl
  split
  · rename_i hkind
    rw [readLabels_congr order decoder hin hin' (by omega) h]
  · rename_i hkind
    rw [readLabels_congr order decoder hin hin' (by omega) h]
  · rename_i hkind
    rw [readSlots_congr order hin hin' (hall (by omega) (by omega))]
  · rename_i hkind
    rw [readBytes_congr (hall (by omega) (by omega))]
  · rename_i hkind
    rw [readBytes_congr (hall (by omega) (by omega))]
  · rfl

/-- Sections depend on the bytes that they use. -/
theorem readSections_congr (parts : Parts) {sections : List Section}
    (hin : ∀ s ∈ sections, s.address + s.size ≤ data.length) (hin' : ∀ s ∈ sections, s.address + s.size ≤ data'.length)
    (h : ∀ s ∈ sections, AgreeOn (s.Uses data) data data') :
    readSections order decoder data parts sections = readSections order decoder data' parts sections := by
  induction sections generalizing parts with
  | nil => rfl
  | cons s rest ih =>
    rw [List.forall_mem_cons] at hin hin' h
    have hrest : ∀ parts, readSections order decoder data parts rest = readSections order decoder data' parts rest := by
      intro parts
      exact ih parts hin.2 hin'.2 h.2
    simp only [readSections, readSection_congr order decoder parts hin.1 hin'.1 h.1, hrest]

end Contents

/-! ## The whole container -/

/-- The script in the sections of a container. -/
def readBody (order : ByteOrder) (decoder : Decoder) (data : List UInt8) : Except ReadFault Script :=
  (readTable order (order.field data 16 4) data).mapError .format >>= fun sections =>
    (readSections order decoder data {} sections).outcome.map Parts.script

/-- The byte order depends on the section count. -/
theorem chooseOrder_congr {data data' : List UInt8} (forced : Option ByteOrder) (h : slice data 16 4 = slice data' 16 4) :
    chooseOrder forced data = chooseOrder forced data' := by
  unfold chooseOrder detectOrder
  rw [h]

/-- The order that is chosen is the one in which the container is read. -/
theorem chooseOrder_eq_ok_iff {data : List UInt8} {forced : Option ByteOrder} {order : ByteOrder} (hlong : 32 ≤ data.length) :
    chooseOrder forced data = .ok order ↔ ReadIn data forced order := by
  rcases chooseOrder_cases forced hlong with ⟨chosen, hok, hchosen⟩ | ⟨hnone, fault, herror⟩
  · rw [hok, Except.ok.injEq]
    constructor
    · rintro rfl
      exact hchosen
    · exact hchosen.unique
  · rw [herror]
    exact iff_of_false nofun (hnone order)

/-- The offsets at which a container is looked at: the compression flag, the magic number, the section count, the section table, and
what the sections use. A table that runs past the end has no sections. -/
inductive Observed (data : List UInt8) (forced : Option ByteOrder) : Nat → Prop where
  | flag : Observed data forced 1
  | magic {i : Nat} (hfirst : 8 ≤ i) (hlast : i < 12) : Observed data forced i
  | count {i : Nat} (hfirst : 16 ≤ i) (hlast : i < 20) : Observed data forced i
  | table {order : ByteOrder} {i : Nat} (horder : ReadIn data forced order) (hfirst : 32 ≤ i)
      (hlast : i < 32 + 16 * order.field data 16 4) : Observed data forced i
  | contents {order : ByteOrder} {s : Section} {i : Nat} (horder : ReadIn data forced order)
      (hfits : 32 + 16 * order.field data 16 4 ≤ data.length) (hs : s ∈ tableOf order data) (huse : s.Uses data i) :
      Observed data forced i

/-- The table and the contents of its sections are read alike from data that agree on them. -/
theorem readBody_congr {data data' : List UInt8} {order : ByteOrder} (decoder : Decoder) (hlength : data.length = data'.length)
    (hcount : order.field data 16 4 = order.field data' 16 4)
    (htable : AgreeOn (fun i => 32 ≤ i ∧ i < 32 + 16 * order.field data 16 4) data data')
    (huses : 32 + 16 * order.field data 16 4 ≤ data.length → ∀ s ∈ tableOf order data, AgreeOn (s.Uses data) data data') :
    readBody order decoder data = readBody order decoder data' := by
  unfold readBody
  rw [← hcount, ← readTable_congr hlength fun i hi => htable.sectionAt_eq order hi]
  refine bind_congr_of_ok fun sections hsections => ?_
  obtain ⟨hfits, rfl, hin⟩ := readTable_eq_ok_iff.mp (mapError_eq_ok_iff.mp hsections)
  rw [readSections_congr order decoder {} hin (hlength ▸ hin) (huses hfits)]

end FlowListing.Container

namespace FlowListing

open Container Encoding

/-- Reading goes from the header to the table and then to the sections. -/
theorem Script.read_outcome_eq_bind (data : List UInt8) (decoder : Decoder) (forced : Option ByteOrder) :
    (Script.read data decoder forced).outcome =
      readHeader forced data >>= fun header =>
        (readTable header.order header.sectionCount data).mapError .format >>= fun sections =>
          (readSections header.order decoder data {} sections).outcome.map Parts.script := by
  unfold read
  cases readHeader forced data with
  | error fault => rfl
  | ok header =>
    change _ = (readTable header.order header.sectionCount data).mapError ReadFault.format >>= _
    simp only
    cases readTable header.order header.sectionCount data <;> rfl

/-- The outcome of reading: the checks of the header in their order, and then the body. The flag is one byte, so it is zero in every order
or in none. -/
theorem Script.read_outcome (data : List UInt8) (decoder : Decoder) (forced : Option ByteOrder) :
    (Script.read data decoder forced).outcome =
      if data.length < 32 then .error (.format (.tooSmall data.length))
      else if slice data 8 4 ≠ magic then .error (.format (.badMagic (slice data 8 4)))
      else chooseOrder forced data >>= fun order =>
        if data[1]? ≠ some 0 then .error (.format .compressed) else readBody order decoder data := by
  rw [read_outcome_eq_bind]
  unfold readHeader headerSize
  by_cases hshort : data.length < 32
  · rw [if_pos hshort, if_pos hshort]
    rfl
  by_cases hmagic : slice data 8 4 ≠ magic
  · rw [if_neg hshort, if_neg hshort, if_pos hmagic, if_pos hmagic]
    rfl
  rw [if_neg hshort, if_neg hshort, if_neg hmagic, if_neg hmagic]
  cases chooseOrder forced data with
  | error fault => rfl
  | ok order =>
    have hflag : order.field data 1 1 ≠ 0 ↔ data[1]? ≠ some 0 := not_congr (order.field_one_eq_zero (Nat.le_of_not_lt hshort))
    by_cases hcompressed : data[1]? ≠ some 0
    · change (if order.field data 1 1 ≠ 0 then _ else _) >>= _ = if data[1]? ≠ some 0 then _ else _
      rw [if_pos (hflag.mpr hcompressed), if_pos hcompressed]
      rfl
    · change (if order.field data 1 1 ≠ 0 then _ else _) >>= _ = if data[1]? ≠ some 0 then _ else _
      rw [if_neg (mt hflag.mp hcompressed), if_neg hcompressed]
      rfl

/-- Data of one length that agree on the offsets at which a container is looked at are read alike: as the same script, or with the same
fault. -/
theorem Script.read_of_agreeOn_observed {data data' : List UInt8} (decoder : Decoder) (forced : Option ByteOrder)
    (hlength : data.length = data'.length) (hagree : AgreeOn (Observed data forced) data data') :
    (Script.read data decoder forced).outcome = (Script.read data' decoder forced).outcome := by
  have hflag := hagree 1 .flag
  have hmagic : slice data 8 4 = slice data' 8 4 := AgreeOn.slice_eq (hagree.mono fun i hi => .magic hi.1 hi.2)
  have hcount : slice data 16 4 = slice data' 16 4 := AgreeOn.slice_eq (hagree.mono fun i hi => .count hi.1 hi.2)
  rw [read_outcome, read_outcome, ← hlength, ← hmagic, ← hflag, ← chooseOrder_congr forced hcount]
  split
  · rfl
  rename_i hlong
  split
  · rfl
  refine bind_congr_of_ok fun order hchosen => ?_
  have horder := (chooseOrder_eq_ok_iff (Nat.le_of_not_lt hlong)).mp hchosen
  have hfield : order.field data 16 4 = order.field data' 16 4 := congrArg order.value hcount
  have htable : AgreeOn (fun i => 32 ≤ i ∧ i < 32 + 16 * order.field data 16 4) data data' :=
    hagree.mono fun i hi => .table horder hi.1 hi.2
  rw [readBody_congr decoder hlength hfield htable fun hfits s hs => hagree.mono fun i hi => .contents horder hfits hs hi]

/-- A container with a label and a section of a type that is not known, which has a certain byte wherever nothing is looked at. -/
def labelContainer (filler : UInt8) : List UInt8 :=
  [filler, 0] ++ List.replicate 6 filler ++ [0x46, 0x4C, 0x57, 0x30] ++ List.replicate 4 filler ++ [2, 0, 0, 0] ++
    List.replicate 12 filler ++ [0, 0, 0, 0, 12, 0, 0, 0, 1, 0, 0, 0, 64, 0, 0, 0] ++
    [9, 0, 0, 0, 2, 0, 0, 0, 1, 0, 0, 0, 76, 0, 0, 0] ++ [0x61, 0, filler, filler] ++ [5, 0, 0, 0] ++ List.replicate 8 filler

/-- The label and its offset are the same whatever the other bytes are. -/
theorem Script.read_of_agreeOn_observed_filler :
    (labelContainer 0).length = (labelContainer 255).length ∧
      AgreeOn (Observed (labelContainer 0) none) (labelContainer 0) (labelContainer 255) ∧
      (Script.read (labelContainer 255) "ascii" none).outcome = .ok { procedures := [⟨"a", 5⟩] } := by
  have hlook : ∀ i < 80, (i = 1 ∨ (8 ≤ i ∧ i < 12) ∨ (16 ≤ i ∧ i < 20) ∨ (32 ≤ i ∧ i < 64) ∨
      ∃ s ∈ tableOf .little (labelContainer 0), s.Uses (labelContainer 0) i) →
        (labelContainer 0)[i]? = (labelContainer 255)[i]? := by
    decide +kernel
  have hagree : AgreeOn (Observed (labelContainer 0) none) (labelContainer 0) (labelContainer 255) := by
    intro i hi
    have hlittle : ∀ order, ReadIn (labelContainer 0) none order → order = .little := by
      intro order horder
      exact horder.unique (.little (by decide))
    rcases Nat.lt_or_ge i 80 with hlt | hge
    · refine hlook i hlt ?_
      cases hi with
      | flag => exact .inl rfl
      | magic hfirst hlast => exact .inr (.inl ⟨hfirst, hlast⟩)
      | count hfirst hlast => exact .inr (.inr (.inl ⟨hfirst, hlast⟩))
      | table horder hfirst hlast =>
        obtain rfl := hlittle _ horder
        exact .inr (.inr (.inr (.inl ⟨hfirst, hlast⟩)))
      | contents horder hfits hs huse =>
        obtain rfl := hlittle _ horder
        exact .inr (.inr (.inr (.inr ⟨_, hs, huse⟩)))
    · rw [List.getElem?_eq_none hge, List.getElem?_eq_none hge]
  have hlength : (labelContainer 0).length = (labelContainer 255).length := rfl
  refine ⟨hlength, hagree, ?_⟩
  rw [← read_of_agreeOn_observed "ascii" none hlength hagree]
  rfl

end FlowListing
