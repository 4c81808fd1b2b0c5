import Mathlib
import FlowListing.Operand
import FlowListing.Proofs.Rearrangement
import FlowListing.Proofs.TextCut
import FlowListing.Proofs.Walk

/-!
# String tables

The bytes of a string section are the strings of its table and the zero bytes between them, and nothing else. A piece of the section is
a run of bytes without a zero byte that cannot be made longer (`PieceAt`). The table has one string for each piece that starts inside the
section, under the offset of the piece (`Tabulates`), and where a piece does not decode the first such piece is the one that is reported
(`Container.readStrings_tabulates`).

That is so for any decoder. The codec may fail on that piece in a way of its own, and then its fault is what is reported; a codec that
blames the bytes has no such way, and the fault names the offset of the piece.

A reference to a string is a short, and the table that it is looked up in comes from the one section of strings that a container may
have (`Script.readStrings_of_read`). So what the reference means can be told from the bytes (`Script.operandAt_string`).
-/

namespace FlowListing.Container

open Encoding

/-! ## Pieces of a section -/

/-- A piece of a section: bytes that stand at an offset with no zero byte among them, and a zero byte or an end of the section on
either side. -/
structure PieceAt (raw : List UInt8) (offset : ℕ) (piece : List UInt8) : Prop where
  stands : HasAt raw offset piece
  free : 0 ∉ piece
  first : offset = 0 ∨ raw[offset - 1]? = some 0
  last : offset + piece.length = raw.length ∨ raw[offset + piece.length]? = some 0

section Pieces

variable {raw piece : List UInt8} {offset : ℕ}

/-- Where a piece stands, it is the string that starts there. -/
theorem PieceAt.eq_stringBytes (h : PieceAt raw offset piece) : piece = stringBytes raw offset := by
  obtain ⟨rest, hrest⟩ := h.stands
  refine (stringBytes_of_drop hrest.symm h.free ?_).symm
  rw [← getElem?_behind hrest.symm]
  rcases h.last with hend | hzero
  · simp [hend]
  · simp [hzero]

/-- A piece that is not empty starts inside the section. -/
theorem PieceAt.stringStart (h : PieceAt raw offset piece) (hne : piece ≠ []) : StringStart raw offset := by
  have hpos := List.length_pos_of_ne_nil hne
  have hle := h.stands.inside hpos
  exact ⟨by omega, h.first⟩

/-- A string is a piece. -/
theorem pieceAt_stringBytes (h : StringStart raw offset) : PieceAt raw offset (stringBytes raw offset) := by
  have hdrop : raw.drop offset = stringBytes raw offset ++ (raw.drop offset).dropWhile (· ≠ 0) :=
    List.takeWhile_append_dropWhile.symm
  refine ⟨⟨_, hdrop.symm⟩, ?_, h.2, ?_⟩
  · intro hmem
    simpa using List.mem_takeWhile_imp hmem
  · have hbehind := getElem?_behind hdrop
    have hlength := congrArg List.length hdrop
    rw [List.length_append, List.length_drop] at hlength
    have hhead := List.head?_dropWhile_not (fun b : UInt8 => decide (b ≠ 0)) (raw.drop offset)
    rcases hrest : (raw.drop offset).dropWhile (· ≠ 0) with _ | ⟨b, rest⟩
    · have hlt := h.1
      rw [hrest, List.length_nil] at hlength
      exact .inl (by omega)
    · rw [hrest] at hbehind hhead
      have hb : b = 0 := by simpa using hhead
      exact .inr (hb ▸ hbehind)

/-- The pieces that do not decode are strings that do not. -/
theorem exists_pieceAt_not_decodes_iff (decoder : Decoder) :
    (∃ piece, PieceAt raw offset piece ∧ ¬Decodes decoder piece) ↔
      StringStart raw offset ∧ ¬Decodes decoder (stringBytes raw offset) := by
  constructor
  · rintro ⟨piece, hpiece, hill⟩
    have hne : piece ≠ [] := by
      rintro rfl
      exact hill (decodes_nil decoder)
    exact ⟨hpiece.stringStart hne, hpiece.eq_stringBytes ▸ hill⟩
  · rintro ⟨hstart, hill⟩
    exact ⟨_, pieceAt_stringBytes hstart, hill⟩

/-- All pieces decode if all strings do. -/
theorem forall_pieceAt_decodes_iff (decoder : Decoder) :
    (∀ offset piece, PieceAt raw offset piece → Decodes decoder piece) ↔
      ∀ offset, StringStart raw offset → Decodes decoder (stringBytes raw offset) := by
  have hnot : ∀ offset, (¬∃ piece, PieceAt raw offset piece ∧ ¬Decodes decoder piece) ↔
      ¬(StringStart raw offset ∧ ¬Decodes decoder (stringBytes raw offset)) :=
    fun offset => not_congr (exists_pieceAt_not_decodes_iff decoder)
  simpa only [not_exists, not_and, not_not] using forall_congr' hnot

end Pieces

/-! ## Entries of a table -/

section Entries

variable {decoder : Decoder} {raw : List UInt8} {table : StringTable}

/-- An entry of a table is a piece and its text. -/
theorem exists_piece_of_mem {pieces : List (ℕ × List UInt8)} (h : decodeStrings encoding pieces = .ok table) {id : ℤ} {text : String}
    (hmem : (id, text) ∈ table) : ∃ piece ∈ pieces, id = piece.1 ∧ decodeText encoding piece.2 = .ok text := by
  induction pieces generalizing table with
  | nil =>
    cases h
    cases hmem
  | cons piece pieces ih =>
    obtain ⟨front, strings, hfront, hstrings, rfl⟩ := decodeStrings_cons_eq_ok_iff.mp h
    rcases List.mem_cons.mp hmem with hhead | hmem
    · cases hhead
      exact ⟨piece, List.mem_cons_self, rfl, hfront⟩
    · obtain ⟨other, hother, hid, htext⟩ := ih hstrings hmem
      exact ⟨other, List.mem_cons_of_mem _ hother, hid, htext⟩

/-- The ids of a table are the offsets where strings start. -/
theorem mem_keys_of_readStrings (h : readStrings encoding raw = .ok table) (id : ℤ) :
    id ∈ table.map Prod.fst ↔ 0 ≤ id ∧ StringStart raw id.toNat := by
  rw [keys_of_decodeStrings h, List.mem_map]
  constructor
  · rintro ⟨⟨offset, bytes⟩, hmem, rfl⟩
    exact ⟨Int.natCast_nonneg _, ((mem_splitStrings raw _ _).mp hmem).1⟩
  · rintro ⟨hnonneg, hstart⟩
    exact ⟨(id.toNat, _), (mem_splitStrings raw _ _).mpr ⟨hstart, rfl⟩, Int.toNat_of_nonneg hnonneg⟩

/-- Under an id where a string starts, its text is found. -/
theorem exists_find?_of_readStrings (h : readStrings encoding raw = .ok table) {id : ℤ} (hnonneg : 0 ≤ id)
    (hstart : StringStart raw id.toNat) :
    ∃ text, table.find? id = some text ∧ decodeText encoding (stringBytes raw id.toNat) = .ok text := by
  have hmem := (mem_keys_of_readStrings h id).mpr ⟨hnonneg, hstart⟩
  have hsome : table.find? id ≠ none := fun hnone => (StringTable.find?_eq_none_iff table id).mp hnone hmem
  obtain ⟨text, hfind⟩ := Option.ne_none_iff_exists'.mp hsome
  obtain ⟨⟨offset, bytes⟩, hpiece, rfl, htext⟩ := exists_piece_of_mem h (StringTable.mem_of_find? hfind)
  obtain ⟨-, rfl⟩ := (mem_splitStrings raw _ _).mp hpiece
  exact ⟨text, hfind, htext⟩

/-- Where some string does not decode, the first such string decides how reading fails. -/
theorem readStrings_of_not_decodes (h : ∃ offset, StringStart raw offset ∧ ¬Decodes decoder (stringBytes raw offset)) :
    ∃ offset fault, IsLeast {offset | StringStart raw offset ∧ ¬Decodes decoder (stringBytes raw offset)} offset ∧
      decodeText decoder (stringBytes raw offset) = .error fault ∧
      readStrings decoder raw = .error (.ofText (.stringAt offset decoder.name) fault) := by
  cases hread : readStrings decoder raw with
  | ok table =>
    obtain ⟨offset, hstart, hill⟩ := h
    exact absurd (exists_readStrings_iff.mp ⟨table, hread⟩ offset hstart) hill
  | error fault =>
    obtain ⟨offset, hstart, hfault, hearlier⟩ := readStrings_eq_error_iff.mp hread
    obtain ⟨reason, hreason, rfl⟩ := readText_eq_error_iff.mp hfault
    refine ⟨offset, reason, ⟨⟨hstart, ?_⟩, ?_⟩, hreason, rfl⟩
    · rintro ⟨text, htext⟩
      cases hreason.symm.trans htext
    · rintro other ⟨hother, hill⟩
      by_contra hlt
      exact hill (hearlier other (not_le.mp hlt) hother)

end Entries

/-! ## Bytes as characters -/

/-- In the codec that has a character for each byte, a text is its bytes. -/
theorem decodeFrom_latin1 {position : ℕ} {bytes : List UInt8} {text : List Char}
    (h : Codec.latin1.decodeFrom position 0 bytes = .ok text) : text.map Char.toNat = bytes.map UInt8.toNat := by
  induction bytes generalizing position text with
  | nil =>
    cases h
    rfl
  | cons b rest ih =>
    obtain ⟨c, more, later, hnext, hlater, rfl⟩ := Codec.decodeFrom_cons_eq_ok_iff.mp h
    cases hnext
    have hvalid : b.toNat.isValidChar := .inl (b.toNat_lt.trans (by decide))
    rw [List.map_cons, List.map_cons, ih hlater, Char.toNat_ofNat, if_pos hvalid]

/-! ## Tables -/

/-- A table lists the strings of a section: under the offset of each string, in order, its text, so that no byte is lost. -/
structure Tabulates (decoder : Decoder) (raw : List UInt8) (table : StringTable) : Prop where
  ordered : (table.map Prod.fst).Pairwise (· < ·)
  ids : ∀ id, id ∈ table.map Prod.fst ↔ (id = 0 ∧ raw ≠ []) ∨ ∃ i : ℕ, id = i + 1 ∧ i + 1 < raw.length ∧ raw[i]? = some 0
  texts : ∀ offset : ℕ, (offset : ℤ) ∈ table.map Prod.fst →
    ∃ text, table.find? offset = some text ∧ decodeText decoder (stringBytes raw offset) = .ok text
  bytes : decoder.Follows .latin1 → (joinedText table raw).toList.map Char.toNat = raw.map UInt8.toNat

/-- A string starts at the first byte, and after each zero byte but the last byte. -/
theorem stringStart_iff (raw : List UInt8) (id : ℤ) :
    (0 ≤ id ∧ StringStart raw id.toNat) ↔
      (id = 0 ∧ raw ≠ []) ∨ ∃ i : ℕ, id = i + 1 ∧ i + 1 < raw.length ∧ raw[i]? = some 0 := by
  constructor
  · rintro ⟨hnonneg, hlt, hfirst⟩
    by_cases hid : id = 0
    · subst hid
      exact .inl ⟨rfl, List.ne_nil_of_length_pos hlt⟩
    · have hzero := hfirst.resolve_left (by omega)
      exact .inr ⟨id.toNat - 1, by omega, by omega, hzero⟩
  · rintro (⟨rfl, hne⟩ | ⟨i, rfl, hlt, hzero⟩)
    · exact ⟨Int.le_refl _, List.length_pos_of_ne_nil hne, .inl rfl⟩
    · exact ⟨by omega, hlt, .inr hzero⟩

/-- The table of a section that is read lists its strings. -/
theorem tabulates_of_readStrings {decoder : Decoder} {raw : List UInt8} {table : StringTable}
    (h : readStrings decoder raw = .ok table) : Tabulates decoder raw table where
  ordered := pairwise_keys_of_readStrings h
  ids id := (mem_keys_of_readStrings h id).trans (stringStart_iff raw id)
  texts offset hmem := by
    obtain ⟨hnonneg, hstart⟩ := (mem_keys_of_readStrings h offset).mp hmem
    exact exists_find?_of_readStrings h hnonneg hstart
  bytes hlatin := by
    have hwhole := (decode_eq_ok_iff_decodeStrings hlatin raw 0).mpr ⟨table, h, rfl⟩
    exact decodeFrom_latin1 (Codec.decode_eq_ok_iff.mp hwhole)

/-- A section is read exactly if all its pieces decode, and its table then lists them. If some piece does not decode, the first one that
does not decides: what is reported is the fault of the codec on it, and, if the codec blames the bytes, it is a fault of the format that
names the offset of this piece. -/
theorem readStrings_tabulates (decoder : Decoder) (raw : List UInt8) :
    ((∃ table, readStrings decoder raw = .ok table) ↔ ∀ offset piece, PieceAt raw offset piece → Decodes decoder piece) ∧
      (∀ table, readStrings decoder raw = .ok table → Tabulates decoder raw table) ∧
      ((∃ offset piece, PieceAt raw offset piece ∧ ¬Decodes decoder piece) →
        ∃ offset fault, IsLeast {offset | ∃ piece, PieceAt raw offset piece ∧ ¬Decodes decoder piece} offset ∧
          decodeText decoder (stringBytes raw offset) = .error fault ∧
          readStrings decoder raw = .error (.ofText (.stringAt offset decoder.name) fault) ∧
          (decoder.BlamesBytes → ∃ undecodable, fault = .bytes undecodable ∧
            readStrings decoder raw = .error (.format (.stringAt offset decoder.name undecodable)))) := by
  refine ⟨?_, fun table htable => tabulates_of_readStrings htable, fun h => ?_⟩
  · rw [forall_pieceAt_decodes_iff]
    exact exists_readStrings_iff
  · simp only [exists_pieceAt_not_decodes_iff] at h ⊢
    obtain ⟨offset, fault, hleast, hfault, hread⟩ := readStrings_of_not_decodes h
    refine ⟨offset, fault, hleast, hfault, hread, fun hblames => ?_⟩
    cases fault with
    | bytes undecodable => exact ⟨undecodable, rfl, hread⟩
    | codec fault => exact absurd hfault (hblames _ fault)

/-- A section with empty strings at its start and in its middle and no zero byte at its end; and one in which the second string and
the third do not decode. -/
theorem readStrings_tabulates_accent :
    (readStrings "latin-1" [0, 0xE9, 0, 0, 0x41] = .ok [(0, ""), (1, "é"), (3, ""), (4, "A")] ∧
        (joinedText [(0, ""), (1, "é"), (3, ""), (4, "A")] [0, 0xE9, 0, 0, 0x41]).toList.map Char.toNat = [0, 0xE9, 0, 0, 0x41]) ∧
      (Decoder.named "ascii").BlamesBytes ∧
      (readStrings "ascii" [0x41, 0, 0xE9, 0, 0xE8] =
          .error (.format (.stringAt 2 "ascii" ⟨"ascii", 0, 1, 0xE9, "ordinal not in range(128)"⟩)) ∧
        IsLeast {offset | ∃ piece, PieceAt [0x41, 0, 0xE9, 0, 0xE8] offset piece ∧ ¬Decodes "ascii" piece} 2) := by
  have hlatin : codecNamed "latin-1" = .ok .latin1 := by decide +kernel
  have hascii : codecNamed "ascii" = .ok .ascii := by decide +kernel
  have hread : readStrings "latin-1" [0, 0xE9, 0, 0, 0x41] = .ok [(0, ""), (1, "é"), (3, ""), (4, "A")] := by decide +kernel
  have hfault : readStrings "ascii" [0x41, 0, 0xE9, 0, 0xE8] =
      .error (.format (.stringAt 2 "ascii" ⟨"ascii", 0, 1, 0xE9, "ordinal not in range(128)"⟩)) := by decide +kernel
  have hblames := (Decoder.follows_named hascii).blamesBytes
  have hpiece : PieceAt [0x41, 0, 0xE9, 0, 0xE8] 2 [0xE9] := ⟨⟨[0, 0xE8], rfl⟩, by decide, by decide, by decide⟩
  have hill : ¬Decodes "ascii" [0xE9] := by
    rintro ⟨text, htext⟩
    cases htext
  obtain ⟨offset, fault, hleast, -, -, hnamed⟩ := (readStrings_tabulates "ascii" _).2.2 ⟨2, _, hpiece, hill⟩
  obtain ⟨undecodable, -, herror⟩ := hnamed hblames
  cases hfault.symm.trans herror
  exact ⟨⟨hread, ((readStrings_tabulates "latin-1" _).2.1 _ hread).bytes (Decoder.follows_named hlatin)⟩, hblames, hfault, hleast⟩

/-- The codec in which nothing can be read fails in a way of its own, so that a string that does not decode is not a fault of the format,
and nothing names its offset. -/
theorem readStrings_undefined :
    (PieceAt [0x61, 0] 0 [0x61] ∧ ¬Decodes "undefined" [0x61]) ∧
      readStrings "undefined" [0x61, 0] =
        .error (.codec (.failed "decoding with 'undefined' codec failed (UnicodeError: undefined encoding)")) := by
  refine ⟨⟨⟨⟨[0], rfl⟩, by decide, by decide, by decide⟩, ?_⟩, by decide +kernel⟩
  rintro ⟨text, htext⟩
  cases htext

/-! ## The section of strings -/

/-- The bytes of the section of strings; none if there is no such section. -/
def stringSection (data : List UInt8) (sections : List Section) : List UInt8 :=
  match sections.find? (·.kind = 4) with
  | some s => slice data s.address s.size
  | none => []

section Sections

variable {order : ByteOrder} {decoder : Decoder} {data : List UInt8} {parts given final : Parts} {s : Section}

/-- A section of strings gives the strings in its bytes. -/
theorem strings_of_givenBy (h : givenBy order decoder data s = .ok given) (hkind : s.kind = 4) :
    ∃ strings, given.strings = some strings ∧ readStrings decoder (slice data s.address s.size) = .ok strings := by
  obtain ⟨result, hresult, rfl⟩ := exists_of_map_eq_ok h
  rw [readSection, if_neg (Parts.not_has_empty _)] at hresult
  obtain ⟨kind, elementSize, count, address⟩ := s
  obtain rfl : kind = 4 := hkind
  obtain ⟨strings, hstrings, rfl⟩ := exists_of_map_eq_ok hresult
  obtain ⟨bytes, hbytes, hread⟩ := exists_of_bind_eq_ok hstrings
  rw [eq_slice_of_readBytes hbytes] at hread
  exact ⟨strings, rfl, hread⟩

/-- A section of another type gives no strings. -/
theorem strings_of_givenBy_of_ne (h : givenBy order decoder data s = .ok given) (hkind : s.kind ≠ 4) : given.strings = none := by
  have hhas : ¬given.has 4 = true := fun hsome => hkind ((has_of_givenBy h 4).mp hsome).2.symm
  simpa [Parts.has] using hhas

/-- Strings that have been read stay. -/
theorem strings_of_readSections_of_some {sections : List Section} {strings : StringTable} (hsome : parts.strings = some strings)
    (h : (readSections order decoder data parts sections).outcome = .ok final) : final.strings = some strings := by
  induction sections generalizing parts with
  | nil =>
    cases h
    exact hsome
  | cons s rest ih =>
    obtain ⟨hnew, given, hgiven, hrest⟩ := readSections_cons_eq_ok_iff.mp h
    have hkind : s.kind ≠ 4 := by
      intro hkind
      rw [hkind] at hnew
      simp [Parts.has, hsome] at hnew
    have hmerged : (parts.merge given).strings = some strings := by simp [Parts.merge, strings_of_givenBy_of_ne hgiven hkind, hsome]
    exact ih hmerged hrest

/-- The strings that are read are those of the section of strings. -/
theorem readStrings_of_readSections {sections : List Section} (hnone : parts.strings = none)
    (h : (readSections order decoder data parts sections).outcome = .ok final) :
    readStrings decoder (stringSection data sections) = .ok (final.strings.getD []) := by
  induction sections generalizing parts with
  | nil =>
    cases h
    rw [hnone]
    rfl
  | cons s rest ih =>
    obtain ⟨-, given, hgiven, hrest⟩ := readSections_cons_eq_ok_iff.mp h
    by_cases hkind : s.kind = 4
    · obtain ⟨strings, hstrings, hread⟩ := strings_of_givenBy hgiven hkind
      have hmerged : (parts.merge given).strings = some strings := by simp [Parts.merge, hstrings]
      rw [strings_of_readSections_of_some hmerged hrest]
      simpa [stringSection, List.find?_cons, hkind] using hread
    · have hmerged : (parts.merge given).strings = none := by simp [Parts.merge, strings_of_givenBy_of_ne hgiven hkind, hnone]
      simpa [stringSection, List.find?_cons, hkind] using ih hmerged hrest

end Sections

end FlowListing.Container

namespace FlowListing

open Container Encoding

section References

variable {data : List UInt8} {decoder : Decoder} {forced : Option ByteOrder} {order : ByteOrder} {script : Script}

/-- The strings of a script are those of the section of strings in its container. -/
theorem Script.readStrings_of_read (horder : ReadIn data forced order) (hread : (Script.read data decoder forced).outcome = .ok script) :
    readStrings decoder (stringSection data (tableOf order data)) = .ok script.strings := by
  obtain ⟨other, hother, h⟩ := read_eq_ok_iff.mp hread
  obtain rfl := horder.unique hother
  obtain ⟨parts, hparts, rfl⟩ := h.sections
  exact readStrings_of_readSections rfl hparts

/-- An operand that refers to a string is looked up in the table. -/
theorem Script.operandAt_string_eq {index : ℤ} {slot : Slot} (hslot : script.slotAt index = .ok slot) :
    script.operandAt index .string =
      .ok (match script.strings.find? slot.short with
        | some text => .ok (.string slot.short text)
        | none => .error (.fatal ⟨.missingString slot.short, index⟩)) := by
  rw [operandAt, hslot]
  rfl

/-- A reference to a string names the offset of a string in the section of strings, and its operand is the text of the bytes there. A
short that is negative, lies inside a string or behind the last one is a reference that names nothing. -/
theorem Script.operandAt_string (horder : ReadIn data forced order) (hread : (Script.read data decoder forced).outcome = .ok script)
    {index : ℤ} {slot : Slot} (hslot : script.slotAt index = .ok slot) :
    let raw := stringSection data (tableOf order data)
    ((∃ operand, script.operandAt index .string = .ok (.ok operand)) ↔ 0 ≤ slot.short ∧ StringStart raw slot.short.toNat) ∧
      (0 ≤ slot.short ∧ StringStart raw slot.short.toNat →
        ∃ text, decodeText decoder (stringBytes raw slot.short.toNat) = .ok text ∧
          script.operandAt index .string = .ok (.ok (.string slot.short text))) ∧
      (¬(0 ≤ slot.short ∧ StringStart raw slot.short.toNat) →
        script.operandAt index .string = .ok (.error (.fatal ⟨.missingString slot.short, index⟩))) := by
  intro raw
  have hstrings : readStrings decoder raw = .ok script.strings := readStrings_of_read horder hread
  have hfound : 0 ≤ slot.short ∧ StringStart raw slot.short.toNat →
      ∃ text, decodeText decoder (stringBytes raw slot.short.toNat) = .ok text ∧
        script.operandAt index .string = .ok (.ok (.string slot.short text)) := by
    rintro ⟨hnonneg, hstart⟩
    obtain ⟨text, hfind, htext⟩ := exists_find?_of_readStrings hstrings hnonneg hstart
    refine ⟨text, htext, ?_⟩
    rw [operandAt_string_eq hslot, hfind]
  have hmissing : ¬(0 ≤ slot.short ∧ StringStart raw slot.short.toNat) →
      script.operandAt index .string = .ok (.error (.fatal ⟨.missingString slot.short, index⟩)) := by
    intro hout
    have hnone := (StringTable.find?_eq_none_iff _ _).mpr (mt (mem_keys_of_readStrings hstrings _).mp hout)
    rw [operandAt_string_eq hslot, hnone]
  refine ⟨⟨?_, ?_⟩, hfound, hmissing⟩
  · rintro ⟨operand, hoperand⟩
    by_contra hout
    cases (hmissing hout).symm.trans hoperand
  · intro hin
    obtain ⟨text, -, hoperand⟩ := hfound hin
    exact ⟨_, hoperand⟩

end References

/-- A container with four references to strings, of which only the first names one. -/
def referringContainer : List UInt8 :=
  bareHeader [2, 0, 0, 0] ++ [2, 0, 0, 0, 4, 0, 0, 0, 4, 0, 0, 0, 64, 0, 0, 0] ++
    [4, 0, 0, 0, 1, 0, 0, 0, 5, 0, 0, 0, 80, 0, 0, 0] ++
    [0x22, 0, 3, 0] ++ [0x22, 0, 1, 0] ++ [0x22, 0, 0xFF, 0xFF] ++ [0x22, 0, 5, 0] ++ [0x68, 0x69, 0, 0x79, 0x6F]

/-- The script in `referringContainer`. -/
def referringScript : Script where
  text := [⟨34, 3, 0x30022⟩, ⟨34, 1, 0x10022⟩, ⟨34, -1, 0xFFFF0022⟩, ⟨34, 5, 0x50022⟩]
  strings := [(0, "hi"), (3, "yo")]

/-- The short is the offset of a string, one inside a string, a negative number, and the length of the section. -/
theorem Script.operandAt_string_shorts :
    (ReadIn referringContainer none .little ∧ (Script.read referringContainer "ascii" none).outcome = .ok referringScript) ∧
      (referringScript.slotAt 0 = .ok ⟨34, 3, 0x30022⟩ ∧ referringScript.operandAt 0 .string = .ok (.ok (.string 3 "yo"))) ∧
      ∀ entry ∈ [((1 : ℤ), (⟨34, 1, 0x10022⟩ : Slot)), (2, ⟨34, -1, 0xFFFF0022⟩), (-1, ⟨34, 5, 0x50022⟩)],
        referringScript.slotAt entry.1 = .ok entry.2 ∧
          referringScript.operandAt entry.1 .string = .ok (.error (.fatal ⟨.missingString entry.2.short, entry.1⟩)) := by
  have horder : ReadIn referringContainer none .little := .little (by decide)
  have hread : (Script.read referringContainer "ascii" none).outcome = .ok referringScript := by decide +kernel
  have hraw : stringSection referringContainer (tableOf .little referringContainer) = [0x68, 0x69, 0, 0x79, 0x6F] := by
    decide +kernel
  have hslot : referringScript.slotAt 0 = .ok ⟨34, 3, 0x30022⟩ := by decide
  have hslots : ∀ entry ∈ [((1 : ℤ), (⟨34, 1, 0x10022⟩ : Slot)), (2, ⟨34, -1, 0xFFFF0022⟩), (-1, ⟨34, 5, 0x50022⟩)],
      referringScript.slotAt entry.1 = .ok entry.2 ∧
        ¬(0 ≤ entry.2.short ∧ StringStart [0x68, 0x69, 0, 0x79, 0x6F] entry.2.short.toNat) := by
    decide
  refine ⟨⟨horder, hread⟩, ⟨hslot, ?_⟩, ?_⟩
  · obtain ⟨text, htext, hoperand⟩ := (operandAt_string horder hread hslot).2.1 (by rw [hraw]; decide)
    have hyo : decodeText "ascii" (stringBytes [0x68, 0x69, 0, 0x79, 0x6F] 3) = .ok "yo" := by decide +kernel
    rw [hraw] at htext
    cases htext.symm.trans hyo
    exact hoperand
  · intro entry hentry
    obtain ⟨hslot, hout⟩ := hslots entry hentry
    rw [← hraw] at hout
    exact ⟨hslot, (operandAt_string horder hread hslot).2.2 hout⟩

end FlowListing
