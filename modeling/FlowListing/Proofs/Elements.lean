import FlowListing.Container.Reader

/-!
# Elements of a section

Text is read by a decoder, of which nothing is assumed: it may fail on bytes, or in a way of its own. A codec that has no way of its own
to fail blames the bytes (`Decoder.BlamesBytes`), as the codecs of this library do (`Decoder.Follows.blamesBytes`).

An element that lies inside the data is read from its own bytes alone, so it is never cut short: `readLabel_of_inside` and
`readSlot_of_inside` say what is read. The strings of a section are described by where they start (`StringStart`): at its first byte
and after each zero byte that is not its last. `mem_splitStrings` says that the section is split into exactly these,
`pairwise_keys_of_readStrings` that they are listed in order, and `decodeStrings_eq_error_iff` that the first of them which does not
decode decides how reading fails.
-/

namespace FlowListing.Encoding

/-! ## Decoders -/

/-- A decoder reads these bytes as text. -/
def Decodes (decoder : Decoder) (bytes : List UInt8) : Prop :=
  ∃ text, decodeText decoder bytes = .ok text

/-- The codec has no way of its own to fail: a decoder that fails names bytes that are no text. -/
def Decoder.BlamesBytes (decoder : Decoder) : Prop :=
  ∀ bytes fault, decodeText decoder bytes ≠ .error (.codec fault)

/-- The decoder reads what a codec of this library reads, and fails where it fails. -/
def Decoder.Follows (decoder : Decoder) (codec : Codec) : Prop :=
  ∀ bytes, decodeText decoder bytes = (codec.decode bytes).mapError .bytes

/-- Every decoder reads no bytes as no text. -/
theorem decodes_nil (decoder : Decoder) : Decodes decoder [] :=
  ⟨"", rfl⟩

/-- A codec is followed by its own decoder. -/
theorem Codec.follows_decoder (codec : Codec) : codec.decoder.Follows codec := by
  rintro (_ | ⟨b, rest⟩) <;> rfl

/-- The codec that goes by a name is followed by the decoder of the name. -/
theorem Decoder.follows_named {encoding : String} {codec : Codec} (h : codecNamed encoding = .ok codec) :
    (Decoder.named encoding).Follows codec := by
  rintro (_ | ⟨b, rest⟩)
  · rfl
  · simp only [decodeText, List.isEmpty_cons, Bool.false_eq_true, if_false, named, h]
    rfl

section Follows

variable {decoder : Decoder} {codec : Codec} {bytes : List UInt8}

/-- A decoder that follows a codec of this library blames the bytes. -/
theorem Decoder.Follows.blamesBytes (h : decoder.Follows codec) : decoder.BlamesBytes := by
  intro bytes fault hfault
  rw [h bytes] at hfault
  obtain ⟨reason, -, hreason⟩ := mapError_eq_error_iff.mp hfault
  cases hreason

/-- A decoder that follows a codec has its texts. -/
theorem Decoder.Follows.decodeText_eq_ok_iff (h : decoder.Follows codec) {text : String} :
    decodeText decoder bytes = .ok text ↔ codec.decode bytes = .ok text := by
  rw [h bytes]
  exact mapError_eq_ok_iff

/-- Decoders that follow one codec read the same bytes. -/
theorem Decoder.Follows.decodes_iff (h : decoder.Follows codec) (bytes : List UInt8) :
    Decodes decoder bytes ↔ Decodes codec bytes := by
  simp only [Decodes, h.decodeText_eq_ok_iff, codec.follows_decoder.decodeText_eq_ok_iff]

end Follows

end FlowListing.Encoding

namespace FlowListing.Container

open Encoding

/-! ## Slices and fields -/

/-- A slice that lies inside the data has its full length. -/
theorem length_slice_of_le {data : List UInt8} {offset count : Nat} (h : offset + count ≤ data.length) :
    (slice data offset count).length = count := by
  rw [slice, List.length_take, List.length_drop]
  omega

/-- A slice of what is left is a slice of the data further on. -/
theorem slice_drop (data : List UInt8) (start offset count : Nat) :
    slice (data.drop start) offset count = slice data (start + offset) count := by
  rw [slice, slice, List.drop_drop]

/-- A slice of a slice that has it whole is a slice of the data. -/
theorem slice_slice (data : List UInt8) {start width offset count : Nat} (h : offset + count ≤ width) :
    slice (slice data start width) offset count = slice data (start + offset) count := by
  rw [slice, slice, slice, List.drop_take, List.take_take, List.drop_drop]
  congr 1
  omega

/-- A field of a slice that has it whole is a field of the data. -/
theorem ByteOrder.field_slice (order : ByteOrder) (data : List UInt8) {start width offset count : Nat}
    (h : offset + count ≤ width) :
    order.field (slice data start width) offset count = order.field data (start + offset) count := by
  rw [field, field, slice_slice data h]

/-! ## Labels and slots -/

/-- A label that lies inside the data is its name, up to the first zero byte, and the word after the name. -/
theorem readLabel_of_inside (order : ByteOrder) (decoder : Decoder) {data : List UInt8} {start nameSize : Nat}
    (h : start + nameSize + labelTail ≤ data.length) :
    readLabel order decoder nameSize data.toArray start =
      (readText decoder (.labelName decoder.name) ((slice data start nameSize).takeWhile (· ≠ 0))).map fun text =>
        ⟨text, order.field data (start + nameSize) 4⟩ := by
  have hname : cut data.toArray start (start + nameSize : Int) = slice data start nameSize := cut_eq_slice data start nameSize
  have htail : cut data.toArray (start + nameSize : Int) (start + nameSize + labelTail : Int) =
      slice data (start + nameSize) labelTail := cut_eq_slice data (start + nameSize) labelTail
  have hfield : order.field (slice data (start + nameSize) labelTail) 0 4 = order.field data (start + nameSize) 4 :=
    order.field_slice data (by decide)
  have hlong : ¬labelTail < labelTail := Nat.lt_irrefl _
  simp only [readLabel, hname, htail, length_slice_of_le h, hfield, if_neg hlong]
  cases readText decoder (.labelName decoder.name) ((slice data start nameSize).takeWhile (· ≠ 0)) <;> rfl

/-- A slot that lies inside the data is what its four bytes say. -/
theorem readSlot_of_inside (order : ByteOrder) {data : List UInt8} {start : Nat} (h : start + slotSize ≤ data.length) :
    readSlot order data.toArray start = .ok (slotOfBytes order (slice data start slotSize)) := by
  have hbytes : cut data.toArray start (start + slotSize : Int) = slice data start slotSize := cut_eq_slice data start slotSize
  have hlong : ¬slotSize < slotSize := Nat.lt_irrefl _
  simp only [readSlot, hbytes, length_slice_of_le h, if_neg hlong]

/-! ## Strings -/

/-- A string starts at this offset of a string section: it is the first byte, or comes after a zero byte. -/
def StringStart (raw : List UInt8) (offset : Nat) : Prop :=
  offset < raw.length ∧ (offset = 0 ∨ raw[offset - 1]? = some 0)

instance (raw : List UInt8) (offset : Nat) : Decidable (StringStart raw offset) :=
  inferInstanceAs (Decidable (_ ∧ _))

/-- The bytes of a string section from an offset to the next zero byte, or to the end. -/
def stringBytes (raw : List UInt8) (offset : Nat) : List UInt8 :=
  (raw.drop offset).takeWhile (· ≠ 0)

/-- No string starts inside a piece without a zero byte. -/
theorem not_stringStart_inside {raw piece rest : List UInt8} {start offset : Nat} (hraw : raw.drop start = piece ++ rest)
    (hpiece : 0 ∉ piece) (hstart : start < offset) (hoffset : offset ≤ start + piece.length) : ¬StringStart raw offset := by
  rintro ⟨-, hzero | hzero⟩
  · omega
  · have hbefore : raw[offset - 1]? = piece[offset - 1 - start]? := by
      have hsum : start + (offset - 1 - start) = offset - 1 := by omega
      rw [← hsum, ← List.getElem?_drop, hraw, List.getElem?_append_left (by omega)]
      congr 1
      omega
    exact hpiece (List.mem_of_getElem? (hbefore ▸ hzero))

/-- What comes behind a piece is the first of the bytes that are left. -/
theorem getElem?_behind {raw piece rest : List UInt8} {start : Nat} (hraw : raw.drop start = piece ++ rest) :
    raw[start + piece.length]? = rest.head? := by
  rw [← List.getElem?_drop, hraw, List.getElem?_append_right (Nat.le_refl _), Nat.sub_self, List.head?_eq_getElem?]

/-- A piece without a zero byte, after which a zero byte comes or the section ends, is a string. -/
theorem stringBytes_of_drop {raw piece rest : List UInt8} {start : Nat} (hraw : raw.drop start = piece ++ rest)
    (hpiece : 0 ∉ piece) (hrest : rest.head?.getD 0 = 0) : stringBytes raw start = piece := by
  have hall : ∀ b ∈ piece, decide (b ≠ 0) = true := by
    intro b hb
    exact decide_eq_true fun hzero => hpiece (hzero ▸ hb)
  rw [stringBytes, hraw, List.takeWhile_append_of_pos hall]
  cases rest with
  | nil => simp
  | cons b rest =>
    have hb : b = 0 := hrest
    simp [hb]

/-- What is split off from an offset on is the strings that start there or later. Along the way the piece that was read so far stands
at `start`, has no zero byte, and is followed by what is left. -/
theorem mem_splitStrings_from {raw piece rest : List UInt8} {start : Nat} (hraw : raw.drop start = piece.reverse ++ rest)
    (hpiece : 0 ∉ piece.reverse) (hstart : start = 0 ∨ raw[start - 1]? = some 0) (offset : Nat) (bytes : List UInt8) :
    (offset, bytes) ∈ splitStrings start piece rest ↔
      start ≤ offset ∧ StringStart raw offset ∧ bytes = stringBytes raw offset := by
  have hlen := congrArg List.length hraw
  simp only [List.length_drop, List.length_append, List.length_reverse] at hlen
  fun_induction splitStrings start piece rest with
  | case1 start =>
    simp only [List.not_mem_nil, false_iff]
    rintro ⟨hle, ⟨hlt, -⟩, -⟩
    simp only [List.length_nil] at hlen
    omega
  | case2 start b piece =>
    have hbytes : stringBytes raw start = (b :: piece).reverse := stringBytes_of_drop hraw hpiece rfl
    simp only [List.length_cons, List.length_nil] at hlen
    simp only [List.mem_singleton, Prod.mk.injEq]
    constructor
    · rintro ⟨rfl, rfl⟩
      exact ⟨Nat.le_refl _, ⟨by omega, hstart⟩, hbytes.symm⟩
    · rintro ⟨hle, hoffset, rfl⟩
      rcases Nat.eq_or_lt_of_le hle with rfl | hlt
      · exact ⟨rfl, hbytes⟩
      · refine absurd hoffset (not_stringStart_inside hraw hpiece hlt ?_)
        have := hoffset.1
        simp only [List.length_reverse, List.length_cons]
        omega
  | case3 start piece rest ih =>
    have hbytes : stringBytes raw start = piece.reverse := stringBytes_of_drop hraw hpiece rfl
    have hpast : piece.reverse.length = piece.length := List.length_reverse
    have hzero : raw[start + piece.length]? = some 0 := hpast ▸ getElem?_behind hraw
    have hnext : raw.drop (start + piece.length + 1) = rest := by
      rw [Nat.add_assoc, ← List.drop_drop, hraw, ← hpast, List.drop_length_add_append]
      rfl
    simp only [List.length_cons] at hlen
    have hlater : (offset, bytes) ∈ splitStrings (start + piece.length + 1) [] rest ↔
        start + piece.length + 1 ≤ offset ∧ StringStart raw offset ∧ bytes = stringBytes raw offset :=
      ih hnext List.not_mem_nil (.inr hzero) (by rw [List.length_nil]; omega)
    rw [List.mem_cons, hlater, Prod.mk.injEq]
    constructor
    · rintro (⟨rfl, rfl⟩ | ⟨hle, hoffset, rfl⟩)
      · exact ⟨Nat.le_refl _, ⟨by omega, hstart⟩, hbytes.symm⟩
      · exact ⟨by omega, hoffset, rfl⟩
    · rintro ⟨hle, hoffset, rfl⟩
      rcases Nat.eq_or_lt_of_le hle with rfl | hlt
      · exact .inl ⟨rfl, hbytes⟩
      · refine .inr ⟨?_, hoffset, rfl⟩
        rcases Nat.lt_or_ge (start + piece.length) offset with hpast | hinside
        · exact hpast
        · exact absurd hoffset (not_stringStart_inside hraw hpiece hlt (by omega))
  | case4 start piece b rest hb ih =>
    refine ih ?_ ?_ hstart ?_
    · simpa using hraw
    · simpa [eq_comm, hb] using hpiece
    · simp only [List.length_cons] at hlen ⊢
      omega

/-- A string section is split into the strings that start in it. -/
theorem mem_splitStrings (raw : List UInt8) (offset : Nat) (bytes : List UInt8) :
    (offset, bytes) ∈ splitStrings 0 [] raw ↔ StringStart raw offset ∧ bytes = stringBytes raw offset := by
  rw [mem_splitStrings_from rfl List.not_mem_nil (.inl rfl)]
  simp

/-- The offsets of the strings grow. -/
theorem pairwise_splitStrings (start : Nat) (piece rest : List UInt8) :
    (∀ entry ∈ splitStrings start piece rest, start ≤ entry.1) ∧ (splitStrings start piece rest).Pairwise fun a b => a.1 < b.1 := by
  fun_induction splitStrings start piece rest with
  | case1 => simp
  | case2 => simp
  | case3 start piece rest ih =>
    obtain ⟨hle, hpairwise⟩ := ih
    constructor
    · intro entry hentry
      rcases List.mem_cons.mp hentry with rfl | hentry
      · exact Nat.le_refl _
      · have := hle entry hentry
        omega
    · refine List.pairwise_cons.mpr ⟨?_, hpairwise⟩
      intro entry hentry
      have := hle entry hentry
      simp only
      omega
  | case4 start piece b rest hb ih => exact ih

/-- A zero byte ends the piece before it, and the next one starts behind it. -/
theorem splitStrings_append_zero {bytes : List UInt8} (h : 0 ∉ bytes) (start : Nat) (piece rest : List UInt8) :
    splitStrings start piece (bytes ++ 0 :: rest) =
      (start, piece.reverse ++ bytes) :: splitStrings (start + (piece.reverse ++ bytes).length + 1) [] rest := by
  induction bytes generalizing piece with
  | nil => simp [splitStrings]
  | cons b bytes ih =>
    have hb : ¬b = 0 := by
      rintro rfl
      exact h List.mem_cons_self
    have hbytes : 0 ∉ bytes := fun hmem => h (List.mem_cons_of_mem b hmem)
    rw [List.cons_append, splitStrings, if_neg hb, ih hbytes]
    simp

/-- Bytes without a zero byte are one piece. -/
theorem splitStrings_of_not_mem {bytes : List UInt8} (h : 0 ∉ bytes) (start : Nat) (piece : List UInt8)
    (hne : piece.reverse ++ bytes ≠ []) : splitStrings start piece bytes = [(start, piece.reverse ++ bytes)] := by
  induction bytes generalizing piece with
  | nil =>
    cases piece with
    | nil => exact absurd rfl hne
    | cons b piece => simp [splitStrings]
  | cons b bytes ih =>
    have hb : ¬b = 0 := by
      rintro rfl
      exact h List.mem_cons_self
    have hbytes : 0 ∉ bytes := fun hmem => h (List.mem_cons_of_mem b hmem)
    rw [splitStrings, if_neg hb, ih hbytes _ (by simp)]
    simp

/-! ## Decoded strings -/

/-- Reading bytes of a container has the text that decoding them has. -/
theorem readText_eq_ok_iff {decoder : Decoder} {undecodable : DecodeFault → FormatFault} {bytes : List UInt8} {text : String} :
    readText decoder undecodable bytes = .ok text ↔ decodeText decoder bytes = .ok text :=
  mapError_eq_ok_iff

/-- Reading bytes of a container fails where decoding them does. -/
theorem readText_eq_error_iff {decoder : Decoder} {undecodable : DecodeFault → FormatFault} {bytes : List UInt8} {fault : ReadFault} :
    readText decoder undecodable bytes = .error fault ↔
      ∃ reason, decodeText decoder bytes = .error reason ∧ fault = .ofText undecodable reason :=
  mapError_eq_error_iff

/-- Strings are decoded one after another. -/
theorem decodeStrings_cons_eq_ok_iff {decoder : Decoder} {offset : Nat} {bytes : List UInt8} {pieces : List (Nat × List UInt8)}
    {table : StringTable} :
    decodeStrings decoder ((offset, bytes) :: pieces) = .ok table ↔
      ∃ text strings, decodeText decoder bytes = .ok text ∧ decodeStrings decoder pieces = .ok strings ∧
        table = ((offset : Int), text) :: strings := by
  rw [decodeStrings]
  constructor
  · intro h
    obtain ⟨text, htext, h⟩ := exists_of_bind_eq_ok h
    obtain ⟨strings, hstrings, h⟩ := exists_of_bind_eq_ok h
    cases h
    exact ⟨text, strings, readText_eq_ok_iff.mp htext, hstrings, rfl⟩
  · rintro ⟨text, strings, htext, hstrings, rfl⟩
    rw [readText_eq_ok_iff.mpr htext, hstrings]
    rfl

/-- Strings are read where all of them decode. -/
theorem exists_decodeStrings_iff {decoder : Decoder} {pieces : List (Nat × List UInt8)} :
    (∃ table, decodeStrings decoder pieces = .ok table) ↔ ∀ piece ∈ pieces, Decodes decoder piece.2 := by
  induction pieces with
  | nil => exact iff_of_true ⟨[], rfl⟩ (by simp)
  | cons piece pieces ih =>
    obtain ⟨offset, bytes⟩ := piece
    simp only [decodeStrings_cons_eq_ok_iff, List.forall_mem_cons, ← ih]
    constructor
    · rintro ⟨table, text, strings, htext, hstrings, -⟩
      exact ⟨⟨text, htext⟩, strings, hstrings⟩
    · rintro ⟨⟨text, htext⟩, strings, hstrings⟩
      exact ⟨_, text, strings, htext, hstrings, rfl⟩

/-- Strings are decoded one after another, so that the first that does not decode decides how reading fails. -/
theorem decodeStrings_eq_error_iff {decoder : Decoder} {pieces : List (Nat × List UInt8)} {fault : ReadFault} :
    decodeStrings decoder pieces = .error fault ↔
      ∃ before piece after, pieces = before ++ piece :: after ∧ (∀ other ∈ before, Decodes decoder other.2) ∧
        readText decoder (.stringAt piece.1 decoder.name) piece.2 = .error fault := by
  induction pieces with
  | nil =>
    constructor
    · intro h
      cases h
    · rintro ⟨before, piece, after, hsplit, -⟩
      simp at hsplit
  | cons piece pieces ih =>
    rw [decodeStrings, bind_eq_error_iff]
    constructor
    · rintro (hfirst | ⟨text, htext, hrest⟩)
      · exact ⟨[], piece, pieces, rfl, by simp, hfirst⟩
      · have hlater : decodeStrings decoder pieces = .error fault := by
          rcases bind_eq_error_iff.mp hrest with hlater | ⟨strings, -, hdone⟩
          · exact hlater
          · cases hdone
        obtain ⟨before, other, after, rfl, hbefore, hother⟩ := ih.mp hlater
        refine ⟨piece :: before, other, after, rfl, ?_, hother⟩
        exact List.forall_mem_cons.mpr ⟨⟨text, readText_eq_ok_iff.mp htext⟩, hbefore⟩
    · rintro ⟨_ | ⟨first, before⟩, other, after, hsplit, hbefore, hother⟩
      · obtain ⟨rfl, -⟩ := List.cons.inj hsplit
        exact .inl hother
      · obtain ⟨rfl, hrest⟩ := List.cons.inj hsplit
        obtain ⟨⟨text, htext⟩, hbefore⟩ := List.forall_mem_cons.mp hbefore
        refine .inr ⟨text, readText_eq_ok_iff.mpr htext, ?_⟩
        rw [ih.mpr ⟨before, other, after, hrest, hbefore, hother⟩]
        rfl

/-- In a list in the order of keys, what stands before an entry is what has a smaller key. -/
theorem mem_before_iff_lt {α : Type} {entries before after : List (Nat × α)} {entry : Nat × α}
    (hordered : entries.Pairwise fun a b => a.1 < b.1) (hsplit : entries = before ++ entry :: after) (other : Nat × α) :
    other ∈ before ↔ other ∈ entries ∧ other.1 < entry.1 := by
  subst hsplit
  obtain ⟨-, hlater, hearlier⟩ := List.pairwise_append.mp hordered
  constructor
  · intro hmem
    exact ⟨List.mem_append_left _ hmem, hearlier other hmem entry List.mem_cons_self⟩
  · rintro ⟨hmem, hlt⟩
    rcases List.mem_append.mp hmem with hbefore | hrest
    · exact hbefore
    · rcases List.mem_cons.mp hrest with rfl | hafter
      · exact absurd hlt (Nat.lt_irrefl _)
      · exact absurd ((List.pairwise_cons.mp hlater).1 other hafter) (Nat.not_lt.mpr (Nat.le_of_lt hlt))

/-- A section is read where all its strings decode. -/
theorem exists_readStrings_iff {decoder : Decoder} {raw : List UInt8} :
    (∃ table, readStrings decoder raw = .ok table) ↔
      ∀ offset, StringStart raw offset → Decodes decoder (stringBytes raw offset) := by
  simp only [readStrings, exists_decodeStrings_iff, Prod.forall, mem_splitStrings]
  constructor
  · intro h offset hoffset
    exact h offset _ ⟨hoffset, rfl⟩
  · rintro h offset bytes ⟨hoffset, rfl⟩
    exact h offset hoffset

/-- Reading a section fails as its first string fails that does not decode. -/
theorem readStrings_eq_error_iff {decoder : Decoder} {raw : List UInt8} {fault : ReadFault} :
    readStrings decoder raw = .error fault ↔
      ∃ offset, StringStart raw offset ∧
        readText decoder (.stringAt offset decoder.name) (stringBytes raw offset) = .error fault ∧
        ∀ earlier < offset, StringStart raw earlier → Decodes decoder (stringBytes raw earlier) := by
  have hordered := (pairwise_splitStrings 0 [] raw).2
  rw [readStrings, decodeStrings_eq_error_iff]
  constructor
  · rintro ⟨before, ⟨offset, bytes⟩, after, hsplit, hbefore, hfault⟩
    have hmem : (offset, bytes) ∈ splitStrings 0 [] raw := hsplit ▸ List.mem_append_right _ List.mem_cons_self
    obtain ⟨hstart, rfl⟩ := (mem_splitStrings raw _ _).mp hmem
    refine ⟨offset, hstart, hfault, fun earlier hlt hearlier => ?_⟩
    exact hbefore _ ((mem_before_iff_lt hordered hsplit _).mpr ⟨(mem_splitStrings raw _ _).mpr ⟨hearlier, rfl⟩, hlt⟩)
  · rintro ⟨offset, hstart, hfault, hearlier⟩
    obtain ⟨before, after, hsplit⟩ := List.append_of_mem ((mem_splitStrings raw _ _).mpr ⟨hstart, rfl⟩)
    refine ⟨before, _, after, hsplit, ?_, hfault⟩
    rintro ⟨other, bytes⟩ hbefore
    obtain ⟨hmem, hlt⟩ := (mem_before_iff_lt hordered hsplit _).mp hbefore
    obtain ⟨hother, rfl⟩ := (mem_splitStrings raw _ _).mp hmem
    exact hearlier other hlt hother

/-- The ids are the offsets. -/
theorem keys_of_decodeStrings {decoder : Decoder} {pieces : List (Nat × List UInt8)} {table : StringTable}
    (h : decodeStrings decoder pieces = .ok table) : table.map Prod.fst = pieces.map fun piece => (piece.1 : Int) := by
  induction pieces generalizing table with
  | nil =>
    cases h
    rfl
  | cons piece pieces ih =>
    obtain ⟨text, strings, -, hstrings, rfl⟩ := decodeStrings_cons_eq_ok_iff.mp h
    simp [ih hstrings]

/-- The ids of a string table grow. -/
theorem pairwise_keys_of_readStrings {decoder : Decoder} {raw : List UInt8} {table : StringTable}
    (h : readStrings decoder raw = .ok table) : (table.map Prod.fst).Pairwise (· < ·) := by
  rw [keys_of_decodeStrings h, List.pairwise_map]
  refine (pairwise_splitStrings 0 [] raw).2.imp ?_
  intro a b hlt
  exact Int.ofNat_lt.mpr hlt

end FlowListing.Container
