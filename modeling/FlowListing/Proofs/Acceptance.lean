import FlowListing.Proofs.Judgement

/-!
# Which bytes are containers

`WellFormed` says which bytes are a container in a byte order, for a decoder, from the bytes alone. Reading succeeds on exactly these. On
all others a fault of the format is reported, or else the codec failed in a way of its own (`Raises`): the sections in front of the one
where it did are well-formed, and so are the names or strings in front of the one that it failed on (`Script.judges_read`). A codec that
only ever names bytes that it does not decode never fails in such a way, and then reading succeeds or reports a fault of the format
(`Script.read_ok_iff_wellFormed`).
-/

namespace FlowListing.Container

open Encoding

/-! ## The format -/

/-- The byte order of a container: the one that is forced, or else the one in which the section count is at most 255; the little one
if it is so in both. -/
inductive ReadIn (data : List UInt8) : Option ByteOrder → ByteOrder → Prop where
  | forced (order : ByteOrder) : ReadIn data (some order) order
  | little (h : ByteOrder.little.field data 16 4 ≤ 255) : ReadIn data none .little
  | big (hlittle : 255 < ByteOrder.little.field data 16 4) (h : ByteOrder.big.field data 16 4 ≤ 255) : ReadIn data none .big

/-- The entry of the section table with a number. -/
def sectionAt (order : ByteOrder) (data : List UInt8) (i : Nat) : Section where
  kind := order.field data (32 + 16 * i) 4
  elementSize := order.field data (32 + 16 * i + 4) 4
  count := order.field data (32 + 16 * i + 8) 4
  address := order.field data (32 + 16 * i + 12) 4

/-- The section table of a container. -/
def tableOf (order : ByteOrder) (data : List UInt8) : List Section :=
  (List.range (order.field data 16 4)).map (sectionAt order data)

/-- The bytes have the frame of a container in a byte order: a header, and a table of sections that lie inside the data. -/
structure Framed (order : ByteOrder) (data : List UInt8) : Prop where
  header : 32 ≤ data.length
  magic : slice data 8 4 = [0x46, 0x4C, 0x57, 0x30]
  uncompressed : data[1]? = some 0
  table : 32 + 16 * order.field data 16 4 ≤ data.length
  inside : ∀ s ∈ tableOf order data, s.address + s.elementSize * s.count ≤ data.length

/-- The bytes are a container in a byte order. -/
structure WellFormed (order : ByteOrder) (decoder : Decoder) (data : List UInt8) : Prop extends Framed order data where
  once : OnceEach (tableOf order data)
  sections : ∀ s ∈ tableOf order data, s.WellFormed decoder data

/-- Reading bytes in a byte order comes to a name or string on which the codec fails in a way of its own. What comes behind may be of any
kind. -/
structure Raises (order : ByteOrder) (decoder : Decoder) (data : List UInt8) (fault : CodecFault) : Prop
    extends Framed order data where
  reached : ∃ before s after, tableOf order data = before ++ s :: after ∧ OnceEach (before ++ [s]) ∧
    (∀ t ∈ before, t.WellFormed decoder data) ∧ s.Raises decoder data fault

/-- A codec that blames the bytes has no fault of its own. -/
theorem not_raises_of_blamesBytes {order : ByteOrder} {decoder : Decoder} {data : List UInt8} {fault : CodecFault}
    (h : decoder.BlamesBytes) : ¬Raises order decoder data fault := by
  rintro ⟨-, before, s, after, -, -, -, -, key, bytes, -, hfault, -⟩
  exact h bytes fault hfault

/-- Decoders that read the same bytes have the same containers. -/
theorem wellFormed_congr {order : ByteOrder} {decoder decoder' : Decoder} {data : List UInt8}
    (h : ∀ bytes, Decodes decoder bytes ↔ Decodes decoder' bytes) :
    WellFormed order decoder data ↔ WellFormed order decoder' data := by
  have hsection : ∀ s : Section, s.WellFormed decoder data ↔ s.WellFormed decoder' data := by
    intro s
    constructor
    · intro hs
      exact ⟨hs.sized, fun key bytes htext => (h bytes).mp (hs.decodes key bytes htext)⟩
    · intro hs
      exact ⟨hs.sized, fun key bytes htext => (h bytes).mpr (hs.decodes key bytes htext)⟩
  constructor
  · intro hwell
    exact ⟨hwell.toFramed, hwell.once, fun s hs => (hsection s).mp (hwell.sections s hs)⟩
  · intro hwell
    exact ⟨hwell.toFramed, hwell.once, fun s hs => (hsection s).mpr (hwell.sections s hs)⟩

/-! ## The table and the header -/

section Table

variable {data : List UInt8} {order : ByteOrder}

/-- The entries of the table stand one after another behind the header. -/
theorem readEntry_drop (order : ByteOrder) (data : List UInt8) (i : Nat) :
    readEntry order (data.drop (headerSize + entrySize * i)) = sectionAt order data i := by
  simp only [readEntry, sectionAt, ByteOrder.field, slice_drop, headerSize, entrySize, Nat.add_zero]

/-- Behind an entry the next one follows. -/
theorem drop_entry (data : List UInt8) (i : Nat) :
    (data.drop (headerSize + entrySize * i)).drop entrySize = data.drop (headerSize + entrySize * (i + 1)) := by
  rw [List.drop_drop, Nat.mul_succ, Nat.add_assoc]

/-- Entries from one on are read when their sections lie inside the data. -/
theorem readEntries_eq_ok_iff {length count : Nat} (position first : Nat) {sections : List Section} :
    readEntries order length count position (data.drop (headerSize + entrySize * first)) = .ok sections ↔
      sections = (List.range' first count).map (sectionAt order data) ∧ ∀ s ∈ sections, s.address + s.size ≤ length := by
  induction count generalizing position first sections with
  | zero =>
    constructor
    · intro h
      cases h
      simp
    · rintro ⟨rfl, -⟩
      rfl
  | succ count ih =>
    rw [readEntries, readEntry_drop, drop_entry, List.range'_succ, List.map_cons]
    constructor
    · intro h
      split at h
      · cases h
      · rename_i hin
        obtain ⟨later, hlater, rfl⟩ := exists_of_map_eq_ok h
        obtain ⟨rfl, hall⟩ := (ih _ _).mp hlater
        exact ⟨rfl, List.forall_mem_cons.mpr ⟨Nat.le_of_not_lt hin, hall⟩⟩
    · rintro ⟨rfl, hall⟩
      rw [List.forall_mem_cons] at hall
      rw [if_neg (Nat.not_lt.mpr hall.1), (ih _ _).mpr ⟨rfl, hall.2⟩]
      rfl

/-- The table is read when it fits in the data and all its sections do. -/
theorem readTable_eq_ok_iff {sections : List Section} :
    readTable order (order.field data 16 4) data = .ok sections ↔
      32 + 16 * order.field data 16 4 ≤ data.length ∧ sections = tableOf order data ∧
        ∀ s ∈ sections, s.address + s.size ≤ data.length := by
  have hfits : (data.length < tableEnd (order.field data 16 4)) ↔ data.length < 32 + 16 * order.field data 16 4 := by
    simp only [tableEnd, headerSize, entrySize]
    omega
  rw [readTable, Int.toNat_natCast]
  by_cases hshort : data.length < 32 + 16 * order.field data 16 4
  · rw [if_pos (hfits.mpr hshort)]
    constructor
    · intro h
      cases h
    · rintro ⟨hlong, -⟩
      omega
  · have hentries : readEntries order data.length (order.field data 16 4) 0 (data.drop headerSize) = .ok sections ↔ _ :=
      readEntries_eq_ok_iff 0 0
    rw [if_neg fun h => hshort (hfits.mp h), hentries, tableOf, List.range_eq_range']
    simp [Nat.le_of_not_lt hshort]

/-- One byte has the same value in both orders. -/
theorem ByteOrder.field_one_eq_zero (order : ByteOrder) (hlong : 32 ≤ data.length) :
    order.field data 1 1 = 0 ↔ data[1]? = some 0 := by
  obtain ⟨a, b, rest, rfl⟩ : ∃ a b rest, data = a :: b :: rest := by
    match data, hlong with
    | a :: b :: rest, _ => exact ⟨a, b, rest, rfl⟩
  have hvalue : order.field (a :: b :: rest) 1 1 = b.toNat := by
    cases order <;> simp [field, slice, value, littleValue]
  rw [hvalue]
  simp [← UInt8.toNat_inj]

/-- There is only one byte order in which a container is read. -/
theorem ReadIn.unique {forced : Option ByteOrder} {order order' : ByteOrder} (h : ReadIn data forced order)
    (h' : ReadIn data forced order') : order = order' := by
  cases h with
  | forced => cases h' with
    | forced => rfl
  | little hl => cases h' with
    | little => rfl
    | big hl' => omega
  | big hl => cases h' with
    | little hl' => omega
    | big => rfl

/-- The order that is chosen is the one in which a container is read, if there is one. -/
theorem chooseOrder_cases (forced : Option ByteOrder) (hlong : 32 ≤ data.length) :
    (∃ order, chooseOrder forced data = .ok order ∧ ReadIn data forced order) ∨
      ((∀ order, ¬ReadIn data forced order) ∧ ∃ fault, chooseOrder forced data = .error (.format fault)) := by
  cases forced with
  | some order => exact .inl ⟨order, rfl, .forced order⟩
  | none =>
    have hcount : ¬(slice data 16 4).length < 4 := by
      rw [length_slice_of_le (by omega)]
      decide
    simp only [chooseOrder, detectOrder, if_neg hcount]
    by_cases hlittle : ByteOrder.little.field data 16 4 ≤ 255
    · exact .inl ⟨.little, if_pos hlittle, .little hlittle⟩
    · rw [if_neg (show ¬ByteOrder.little.value (slice data 16 4) ≤ mostSections from hlittle)]
      by_cases hbig : ByteOrder.big.field data 16 4 ≤ 255
      · exact .inl ⟨.big, if_pos hbig, .big (Nat.lt_of_not_le hlittle) hbig⟩
      · refine .inr ⟨?_, .unknownOrder (slice data 16 4), if_neg hbig⟩
        rintro order (- | h | ⟨-, h⟩)
        · exact hlittle h
        · exact hbig h

/-- A byte order is chosen where there is one in which the container is read. -/
theorem judges_chooseOrder (forced : Option ByteOrder) (hlong : 32 ≤ data.length) :
    Judges (chooseOrder forced data) (∃ order, ReadIn data forced order) fun _ => False := by
  rcases chooseOrder_cases forced hlong with ⟨order, hok, horder⟩ | ⟨hnone, fault, herror⟩
  · rw [hok]
    exact (judges_ok order).of_iff (iff_of_true trivial ⟨order, horder⟩) (by simp)
  · rw [herror]
    exact (judges_refusal fault).of_iff (by simpa using hnone) (by simp)

/-- The header is read where its checks pass. The flag is one byte, so that its condition does not depend on the order that was chosen
before it. -/
theorem judges_readHeader (data : List UInt8) (forced : Option ByteOrder) :
    Judges (readHeader forced data)
      (32 ≤ data.length ∧ slice data 8 4 = magic ∧ (∃ order, ReadIn data forced order) ∧ data[1]? = some 0) fun _ => False := by
  have hheader : ¬data.length < headerSize ↔ 32 ≤ data.length := Nat.not_lt
  have hflag : 32 ≤ data.length → ∀ (order : ByteOrder) (header : Header),
      Judges (if order.field data 1 1 ≠ 0 then .error (.format .compressed) else .ok header) (data[1]? = some 0) fun _ => False := by
    intro hlong order header
    refine (judges_unless .compressed fun _ => judges_ok header).of_iff ?_ (by simp)
    rw [← order.field_one_eq_zero hlong]
    simp
  refine (judges_unless (.tooSmall data.length) fun hlong => judges_unless (.badMagic (slice data 8 4)) fun _ =>
    (judges_chooseOrder forced (hheader.mp hlong)).bind fun order _ => hflag (hheader.mp hlong) order _).of_iff ?_ ?_
  · simp [hheader]
  · simp

/-- The header has the order in which the container is read, and the section count in that order. -/
theorem readHeader_eq_ok {forced : Option ByteOrder} {header : Header} (h : readHeader forced data = .ok header) :
    ReadIn data forced header.order ∧ header.sectionCount = header.order.field data 16 4 := by
  simp only [readHeader] at h
  split at h
  · cases h
  · rename_i hlong
    split at h
    · cases h
    · rcases chooseOrder_cases forced (Nat.not_lt.mp hlong) with ⟨order, hok, horder⟩ | ⟨-, fault, herror⟩
      · rw [hok] at h
        change (if _ then _ else _) = _ at h
        split at h
        · cases h
        · cases h
          exact ⟨horder, rfl⟩
      · rw [herror] at h
        cases h

end Table

end FlowListing.Container

namespace FlowListing

open Container Encoding

/-- Reading judges whether the bytes are a container in the order in which they are read, and whether the codec fails in a way of its
own. -/
theorem Script.judges_read (data : List UInt8) (decoder : Decoder) (forced : Option ByteOrder) :
    Judges (Script.read data decoder forced).outcome (∃ order, ReadIn data forced order ∧ WellFormed order decoder data) fun fault =>
      ∃ order, ReadIn data forced order ∧ Raises order decoder data fault := by
  rcases (judges_readHeader data forced).cases with ⟨⟨hlong, hmagic, -, hflag⟩, header, hheader⟩ | ⟨_, hfalse, -⟩ | ⟨hill, -, fault, herror⟩
  · obtain ⟨horder, hcount⟩ := readHeader_eq_ok hheader
    simp only [read, hheader, hcount]
    cases htable : readTable header.order (header.order.field data 16 4) data with
    | error fault =>
      have hframe : ∀ order, ReadIn data forced order → ¬Framed order data := by
        intro order horder' hframed
        obtain rfl := horder.unique horder'
        rw [readTable_eq_ok_iff.mpr ⟨hframed.table, rfl, hframed.inside⟩] at htable
        cases htable
      refine (judges_refusal fault).of_iff (iff_of_false id ?_) fun _ => iff_of_false id ?_
      · rintro ⟨order, horder', hwell⟩
        exact hframe order horder' hwell.toFramed
      · rintro ⟨order, horder', hraises⟩
        exact hframe order horder' hraises.toFramed
    | ok sections =>
      obtain ⟨hfits, rfl, hin⟩ := readTable_eq_ok_iff.mp htable
      have hframed : Framed header.order data := ⟨hlong, hmagic, hflag, hfits, hin⟩
      refine ((judges_readSections hin {}).map Parts.script).of_iff ⟨?_, ?_⟩ fun fault => ⟨?_, ?_⟩
      · rintro ⟨⟨honce, -⟩, hsections⟩
        exact ⟨header.order, horder, hframed, honce, hsections⟩
      · rintro ⟨order, horder', hwell⟩
        obtain rfl := horder.unique horder'
        exact ⟨Parts.awaits_empty_iff.mpr hwell.once, hwell.sections⟩
      · rintro ⟨before, s, after, hsplit, hawaits, hreached⟩
        exact ⟨header.order, horder, hframed, before, s, after, hsplit, Parts.awaits_empty_iff.mp hawaits, hreached⟩
      · rintro ⟨order, horder', -, before, s, after, hsplit, honce, hreached⟩
        obtain rfl := horder.unique horder'
        exact ⟨before, s, after, hsplit, Parts.awaits_empty_iff.mpr honce, hreached⟩
  · exact hfalse.elim
  · rw [read, herror]
    refine (judges_refusal fault).of_iff (iff_of_false id ?_) fun _ => iff_of_false id ?_
    · rintro ⟨order, horder, hwell⟩
      exact hill ⟨hwell.header, hwell.magic, ⟨order, horder⟩, hwell.uncompressed⟩
    · rintro ⟨order, horder, hraises⟩
      exact hill ⟨hraises.header, hraises.magic, ⟨order, horder⟩, hraises.uncompressed⟩

/-- Reading succeeds on exactly the bytes that are a container in the order in which they are read, and reports a fault of the format
on all others. -/
theorem Script.read_ok_iff_wellFormed (data : List UInt8) (encoding : String) (forced : Option ByteOrder) (codec : Codec)
    (hcodec : codecNamed encoding = .ok codec) :
    ((∃ script, (Script.read data encoding forced).outcome = .ok script) ↔
        ∃ order, ReadIn data forced order ∧ WellFormed order codec data) ∧
      ((¬∃ order, ReadIn data forced order ∧ WellFormed order codec data) →
        ∃ fault, (Script.read data encoding forced).outcome = .error (.format fault)) := by
  have hblames := (Decoder.follows_named hcodec).blamesBytes
  have hsame : ∀ order, WellFormed order encoding data ↔ WellFormed order codec data :=
    fun order => wellFormed_congr (Decoder.follows_named hcodec).decodes_iff
  have hjudges : Judges (Script.read data encoding forced).outcome (∃ order, ReadIn data forced order ∧ WellFormed order codec data)
      fun _ => False := by
    refine (judges_read data encoding forced).of_iff ?_ ?_
    · simp only [hsame]
    · simp [not_raises_of_blamesBytes hblames]
  refine ⟨hjudges.ok_iff, fun hill => ?_⟩
  rcases hjudges.cases with ⟨hwell, -⟩ | ⟨fault, hfalse, -⟩ | ⟨-, -, herror⟩
  · exact absurd hwell hill
  · exact hfalse.elim
  · exact herror

/-- A header with a section count and nothing else. -/
def bareHeader (count : List UInt8) : List UInt8 :=
  List.replicate 8 0 ++ magic ++ List.replicate 4 0 ++ count ++ List.replicate 12 0

/-- A container with one section, which has the string of the single byte `E9`. -/
def accentContainer : List UInt8 :=
  bareHeader [1, 0, 0, 0] ++ [4, 0, 0, 0, 1, 0, 0, 0, 2, 0, 0, 0, 48, 0, 0, 0] ++ [0xE9, 0]

/-- The byte is a character in one encoding and none in the other. -/
theorem Script.read_ok_iff_wellFormed_accent :
    (codecNamed "latin-1" = .ok .latin1 ∧
        ∃ order, ReadIn accentContainer none order ∧ WellFormed order Codec.latin1 accentContainer) ∧
      codecNamed "utf-8" = .ok .utf8 ∧ ∃ fault, (Script.read accentContainer "utf-8" none).outcome = .error (.format fault) := by
  have hlatin : codecNamed "latin-1" = .ok .latin1 := rfl
  have hutf : codecNamed "utf-8" = .ok .utf8 := rfl
  refine ⟨⟨hlatin, ?_⟩, hutf, ?_⟩
  · exact (read_ok_iff_wellFormed accentContainer "latin-1" none .latin1 hlatin).1.mp ⟨_, rfl⟩
  · have h := read_ok_iff_wellFormed accentContainer "utf-8" none .utf8 hutf
    refine h.2 fun hwell => ?_
    obtain ⟨script, hok⟩ := h.1.mpr hwell
    cases hok

end FlowListing
