import Mathlib
import FlowListing.Proofs.Layout
import FlowListing.Proofs.Observation

/-!
# Containers that are read alike

A container is read as the same script when its section table is put in another order (`Script.read_withEntries`) and when bytes are
added behind its end (`Script.read_append`). Both follow from one statement, `ReadsAs.rearrange`: the header and what the sections use
stay in place, and the table lists the same sections in some order.

That the order of the sections does not matter rests on two facts. What a section gives does not depend on what came before it
(`readSection_eq_merge`), and parts of different types can be added in either order (`Parts.merge_right_comm`); a type that is given
twice is a fault in every order. Sections of types that are not known give nothing, so they may be repeated.
-/

namespace FlowListing.Container

open Encoding

/-! ## Sections in another order -/

/-- The parts with those that other sections give, which take the place of what is there. -/
def Parts.merge (parts given : Parts) : Parts where
  procedures := given.procedures <|> parts.procedures
  jumps := given.jumps <|> parts.jumps
  text := given.text <|> parts.text
  message := given.message <|> parts.message
  strings := given.strings <|> parts.strings

/-- What a section gives on its own. -/
def givenBy (order : ByteOrder) (decoder : Decoder) (data : List UInt8) (s : Section) : Except ReadFault Parts :=
  (readSection order decoder data {} s).map (Option.getD · {})

section Order

variable {order : ByteOrder} {decoder : Decoder} {data : List UInt8} {parts given final : Parts} {s : Section}

/-- Merged parts have the types of both. -/
theorem Parts.has_merge (parts given : Parts) (kind : Nat) :
    (parts.merge given).has kind = true ↔ parts.has kind = true ∨ given.has kind = true := by
  rcases kind with _ | _ | _ | _ | _ | kind <;> simp [merge, has, Or.comm]

/-- Two values that are not both there can be looked at in either order. -/
theorem orElse_left_comm {α : Type} {first second : Option α} (rest : Option α)
    (h : first.isSome = true → ¬second.isSome = true) : (first <|> second <|> rest) = (second <|> first <|> rest) := by
  cases first <;> cases second <;> simp_all

/-- Parts of different types can be added in either order. -/
theorem Parts.merge_right_comm (parts : Parts) {given given' : Parts}
    (h : ∀ kind, given.has kind = true → ¬given'.has kind = true) :
    (parts.merge given).merge given' = (parts.merge given').merge given := by
  simp only [merge, Parts.mk.injEq]
  exact ⟨(orElse_left_comm _ (h 0)).symm, (orElse_left_comm _ (h 1)).symm, (orElse_left_comm _ (h 2)).symm,
    (orElse_left_comm _ (h 3)).symm, (orElse_left_comm _ (h 4)).symm⟩

/-- A section of a known type gives a part of that type and no other; a section of another type gives nothing. -/
theorem has_of_givenBy (h : givenBy order decoder data s = .ok given) (kind : Nat) :
    given.has kind = true ↔ s.kind ≤ 4 ∧ kind = s.kind := by
  obtain ⟨result, hresult, rfl⟩ := exists_of_map_eq_ok h
  rcases readSection_eq_ok hresult with ⟨more, rfl, hkind, hhas⟩ | ⟨rfl, hkind⟩
  · simp [hhas, hkind, Parts.not_has_empty]
  · simp [Parts.not_has_empty, Nat.not_le.mpr hkind]

/-- A section gives the same whatever came before it, if its type is new. -/
theorem readSection_eq_merge (hnew : ¬parts.has s.kind = true) :
    (readSection order decoder data parts s).map (Option.getD · parts) = (givenBy order decoder data s).map parts.merge := by
  have hempty := Parts.not_has_empty s.kind
  unfold givenBy readSection
  rw [if_neg hnew, if_neg hempty]
  rcases s with ⟨_ | _ | _ | _ | _ | kind, elementSize, count, address⟩
  · cases readLabels order decoder data _ <;> rfl
  · cases readLabels order decoder data _ <;> rfl
  · cases readSlots order data _ <;> rfl
  · cases readBytes data _ <;> rfl
  · cases readBytes data _ >>= readStrings decoder <;> rfl
  · rfl

/-- Sections are all read when the first is of a new type and gives something, and the others are read with that. -/
theorem readSections_cons_eq_ok_iff {rest : List Section} :
    (readSections order decoder data parts (s :: rest)).outcome = .ok final ↔
      ¬parts.has s.kind = true ∧ ∃ given, givenBy order decoder data s = .ok given ∧
        (readSections order decoder data (parts.merge given) rest).outcome = .ok final := by
  rw [readSections_cons_outcome]
  by_cases hnew : parts.has s.kind = true
  · rw [readSection, if_pos hnew]
    simp [hnew, Except.map, bind, Except.bind]
  · rw [readSection_eq_merge hnew]
    cases givenBy order decoder data s <;> simp [hnew, Except.map, bind, Except.bind]

/-- Sections in another order are read as the same parts. Of two sections that are read one after the other, no type is given by both. -/
theorem readSections_perm {sections sections' : List Section} (hperm : sections.Perm sections')
    (h : (readSections order decoder data parts sections).outcome = .ok final) :
    (readSections order decoder data parts sections').outcome = .ok final := by
  induction hperm generalizing parts with
  | nil => exact h
  | cons s _ ih =>
    obtain ⟨hnew, given, hgiven, hrest⟩ := readSections_cons_eq_ok_iff.mp h
    exact readSections_cons_eq_ok_iff.mpr ⟨hnew, given, hgiven, ih hrest⟩
  | swap t s rest =>
    obtain ⟨hs, given, hgiven, h⟩ := readSections_cons_eq_ok_iff.mp h
    obtain ⟨ht, given', hgiven', h⟩ := readSections_cons_eq_ok_iff.mp h
    have hhas := has_of_givenBy hgiven
    have hhas' := has_of_givenBy hgiven'
    have hapart : ∀ kind, given.has kind = true → ¬given'.has kind = true := by
      intro kind hkind hkind'
      obtain ⟨-, rfl⟩ := (hhas' kind).mp hkind'
      exact ht ((Parts.has_merge parts given t.kind).mpr (.inr hkind))
    rw [Parts.merge_right_comm parts hapart] at h
    rw [Parts.has_merge] at ht
    refine readSections_cons_eq_ok_iff.mpr ⟨fun hold => ht (.inl hold), given', hgiven', ?_⟩
    refine readSections_cons_eq_ok_iff.mpr ⟨?_, given, hgiven, h⟩
    rw [Parts.has_merge]
    rintro (hold | hkind)
    · exact hs hold
    · obtain ⟨hknown, heq⟩ := (hhas' s.kind).mp hkind
      exact hapart s.kind ((hhas s.kind).mpr ⟨heq ▸ hknown, rfl⟩) hkind
  | trans _ _ ih ih' => exact ih' (ih h)

end Order

/-! ## Data that are read as a script -/

/-- The bytes are read as a script in a byte order. -/
structure ReadsAs (order : ByteOrder) (decoder : Decoder) (data : List UInt8) (script : Script) : Prop where
  header : 32 ≤ data.length
  magic : slice data 8 4 = magic
  uncompressed : data[1]? = some 0
  table : 32 + 16 * order.field data 16 4 ≤ data.length
  inside : ∀ s ∈ tableOf order data, s.address + s.size ≤ data.length
  sections : ∃ parts, (readSections order decoder data {} (tableOf order data)).outcome = .ok parts ∧ parts.script = script

section ReadsAs

variable {order : ByteOrder} {decoder : Decoder} {data data' : List UInt8} {forced : Option ByteOrder} {script : Script}

/-- The body is read when its table and its sections are. -/
theorem readBody_eq_ok_iff :
    readBody order decoder data = .ok script ↔
      32 + 16 * order.field data 16 4 ≤ data.length ∧ (∀ s ∈ tableOf order data, s.address + s.size ≤ data.length) ∧
        ∃ parts, (readSections order decoder data {} (tableOf order data)).outcome = .ok parts ∧ parts.script = script := by
  constructor
  · intro h
    obtain ⟨sections, hsections, h⟩ := exists_of_bind_eq_ok h
    obtain ⟨hfits, rfl, hin⟩ := readTable_eq_ok_iff.mp (mapError_eq_ok_iff.mp hsections)
    exact ⟨hfits, hin, exists_of_map_eq_ok h⟩
  · rintro ⟨hfits, hin, parts, hparts, rfl⟩
    rw [readBody, readTable_eq_ok_iff.mpr ⟨hfits, rfl, hin⟩]
    change (readSections order decoder data {} (tableOf order data)).outcome.map Parts.script = _
    rw [hparts]
    rfl

/-- What is used of a section lies inside it, and its type is known. -/
theorem Section.Uses.inside {s : Section} {i : Nat} (h : s.Uses data i) :
    s.kind ≤ 4 ∧ s.address ≤ i ∧ i < s.address + s.size := by
  rcases h with ⟨hkind, hlarge, j, hj, hlabel⟩ | ⟨-, hkind, hrange⟩
  · have hinside := Section.element_inside (Nat.le_refl (s.address + s.size)) hj
    have hstart : s.address ≤ s.address + j * s.elementSize := Nat.le_add_right _ _
    rcases hlabel with ⟨hfirst, hlast, -⟩ | ⟨hfirst, hlast⟩ <;> omega
  · exact ⟨hkind, hrange⟩

/-- Data with the same header have the same section count. -/
theorem AgreeOn.count_eq (h : AgreeOn (· < 32) data data') (order : ByteOrder) :
    order.field data 16 4 = order.field data' 16 4 :=
  AgreeOn.field_eq order (h.mono fun i hi => by omega)

/-- The order in which a container is read depends on its section count. -/
theorem ReadIn.congr (h : ReadIn data forced order) (hheader : AgreeOn (· < 32) data data') : ReadIn data' forced order := by
  cases h with
  | forced => exact .forced order
  | little hle => exact .little (hheader.count_eq .little ▸ hle)
  | big hlt hle => exact .big (hheader.count_eq .little ▸ hlt) (hheader.count_eq .big ▸ hle)

/-- Data that are read as a script may grow, and have their table in another order, as long as the header and what the sections use
stay in place. -/
theorem ReadsAs.rearrange (h : ReadsAs order decoder data script) (hlength : data.length ≤ data'.length)
    (hheader : AgreeOn (· < 32) data data') (htable : (tableOf order data).Perm (tableOf order data'))
    (huses : ∀ s ∈ tableOf order data, AgreeOn (s.Uses data) data data') : ReadsAs order decoder data' script := by
  have hmagic : slice data 8 4 = slice data' 8 4 := AgreeOn.slice_eq (hheader.mono fun i hi => by omega)
  have hin' : ∀ s ∈ tableOf order data, s.address + s.size ≤ data'.length := by
    intro s hs
    exact (h.inside s hs).trans hlength
  obtain ⟨parts, hparts, hscript⟩ := h.sections
  refine ⟨h.header.trans hlength, hmagic ▸ h.magic, hheader 1 (by decide) ▸ h.uncompressed, ?_, ?_, parts, ?_, hscript⟩
  · rw [← hheader.count_eq order]
    exact h.table.trans hlength
  · intro s hs
    exact hin' s (htable.mem_iff.mpr hs)
  · rw [readSections_congr order decoder {} h.inside hin' huses] at hparts
    exact readSections_perm htable hparts

end ReadsAs

/-! ## Other entries in the table -/

/-- The entries of the section table, as bytes. -/
def entriesOf (count : Nat) (data : List UInt8) : List (List UInt8) :=
  (List.range count).map (entryAt data)

/-- The data with other entries in the section table. -/
def withEntries (data : List UInt8) (entries : List (List UInt8)) : List UInt8 :=
  data.take 32 ++ (entries.flatten ++ data.drop (32 + 16 * entries.length))

section Entries

variable {data : List UInt8} {entries : List (List UInt8)}

/-- The table is what its entries say. -/
theorem tableOf_eq_map (order : ByteOrder) (data : List UInt8) :
    tableOf order data = (entriesOf (order.field data 16 4) data).map (readEntry order) := by
  rw [tableOf, entriesOf, List.map_map]
  exact List.map_congr_left fun i _ => sectionAt_eq_readEntry order data i

/-- An entry has its size when the table fits. -/
theorem length_of_mem_entriesOf {count : Nat} (hfits : 32 + 16 * count ≤ data.length) :
    ∀ entry ∈ entriesOf count data, entry.length = 16 := by
  intro entry hentry
  obtain ⟨i, hi, rfl⟩ := List.mem_map.mp hentry
  rw [List.mem_range] at hi
  refine length_slice_of_le ?_
  simp only [headerSize, entrySize]
  omega

/-- Entries take up their size together. -/
theorem length_flatten_entries (hsize : ∀ entry ∈ entries, entry.length = 16) :
    entries.flatten.length = 16 * entries.length := by
  have hsum := List.sum_eq_card_nsmul (entries.map List.length) 16 (by simpa using hsize)
  rw [List.length_flatten, hsum, List.length_map, smul_eq_mul, Nat.mul_comm]

/-- Entries that stand one after another are those of the table. -/
theorem map_entryAt_of_hasAt {first : Nat} (h : HasAt data (32 + 16 * first) entries.flatten)
    (hsize : ∀ entry ∈ entries, entry.length = 16) : (List.range' first entries.length).map (entryAt data) = entries := by
  induction entries generalizing first with
  | nil => rfl
  | cons entry rest ih =>
    rw [List.forall_mem_cons] at hsize
    rw [List.flatten_cons] at h
    have hnext := h.right
    rw [hsize.1, Nat.add_assoc, ← Nat.mul_succ] at hnext
    have hentry : entryAt data first = entry := by
      have hslice := h.left.slice_eq
      rwa [hsize.1] at hslice
    rw [List.length_cons, List.range'_succ, List.map_cons, hentry, ih hnext hsize.2]

variable (hfits : 32 + 16 * entries.length ≤ data.length) (hsize : ∀ entry ∈ entries, entry.length = 16)

include hfits hsize

/-- The entries that were put in are the ones that are there. -/
theorem entriesOf_withEntries : entriesOf entries.length (withEntries data entries) = entries := by
  have htable := (HasAt.self (withEntries data entries)).right.left
  have hheader : (data.take 32).length = 32 := List.length_take_of_le (by omega)
  rw [hheader, Nat.zero_add] at htable
  rw [entriesOf, List.range_eq_range']
  exact map_entryAt_of_hasAt htable hsize

/-- Putting in entries changes no length. -/
theorem length_withEntries : (withEntries data entries).length = data.length := by
  rw [withEntries, List.length_append, List.length_append, length_flatten_entries hsize, List.length_take, List.length_drop]
  omega

/-- Outside the table the data are the same. -/
theorem agreeOn_withEntries : AgreeOn (fun i => i < 32 ∨ 32 + 16 * entries.length ≤ i) data (withEntries data entries) := by
  have hheader : (data.take 32).length = 32 := List.length_take_of_le (by omega)
  have hlength := length_flatten_entries hsize
  rintro i (hi | hi)
  · rw [withEntries, List.getElem?_append_left (by omega), List.getElem?_take, if_pos hi]
  · rw [withEntries, List.getElem?_append_right (by omega), List.getElem?_append_right (by omega), List.getElem?_drop]
    congr 1
    omega

end Entries

end FlowListing.Container

namespace FlowListing

open Container Encoding

/-- Reading succeeds in the order in which the data are read as a script. -/
theorem Script.read_eq_ok_iff {data : List UInt8} {decoder : Decoder} {forced : Option ByteOrder} {script : Script} :
    (Script.read data decoder forced).outcome = .ok script ↔
      ∃ order, ReadIn data forced order ∧ ReadsAs order decoder data script := by
  rw [read_outcome]
  constructor
  · intro h
    split at h
    · cases h
    rename_i hlong
    split at h
    · cases h
    rename_i hmagic
    obtain ⟨order, horder, h⟩ := exists_of_bind_eq_ok h
    split at h
    · cases h
    rename_i hflag
    obtain ⟨hfits, hin, hsections⟩ := readBody_eq_ok_iff.mp h
    have hheader := Nat.le_of_not_lt hlong
    exact ⟨order, (chooseOrder_eq_ok_iff hheader).mp horder, hheader, not_not.mp hmagic, not_not.mp hflag, hfits, hin, hsections⟩
  · rintro ⟨order, horder, h⟩
    rw [if_neg (Nat.not_lt.mpr h.header), if_neg (not_not.mpr h.magic), (chooseOrder_eq_ok_iff h.header).mpr horder]
    refine (if_neg (not_not.mpr h.uncompressed)).trans ?_
    exact readBody_eq_ok_iff.mpr ⟨h.table, h.inside, h.sections⟩

section Rearranged

variable {data : List UInt8} {decoder : Decoder} {forced : Option ByteOrder} {order : ByteOrder} {script : Script}

/-- Bytes after the end of a container change nothing. -/
theorem Script.read_append (tail : List UInt8) (hread : (Script.read data decoder forced).outcome = .ok script) :
    (Script.read (data ++ tail) decoder forced).outcome = .ok script := by
  obtain ⟨order, horder, h⟩ := read_eq_ok_iff.mp hread
  have hagree : AgreeOn (· < data.length) data (data ++ tail) := by
    intro i hi
    rw [List.getElem?_append_left hi]
  have hheader : AgreeOn (· < 32) data (data ++ tail) := hagree.mono fun i hi => hi.trans_le h.header
  have hentries : AgreeOn (fun i => 32 ≤ i ∧ i < 32 + 16 * order.field data 16 4) data (data ++ tail) :=
    hagree.mono fun i hi => hi.2.trans_le h.table
  have htable : tableOf order data = tableOf order (data ++ tail) := by
    rw [tableOf, tableOf, ← hheader.count_eq order]
    exact List.map_congr_left fun i hi => hentries.sectionAt_eq order (List.mem_range.mp hi)
  have huses : ∀ s ∈ tableOf order data, AgreeOn (s.Uses data) data (data ++ tail) := by
    intro s hs
    exact hagree.mono fun i hi => hi.inside.2.2.trans_le (h.inside s hs)
  have hlength : data.length ≤ (data ++ tail).length := by
    rw [List.length_append]
    exact Nat.le_add_right _ _
  exact read_eq_ok_iff.mpr ⟨order, horder.congr hheader, h.rearrange hlength hheader (.of_eq htable) huses⟩

/-- A container that ends with its strings, the last of which has no zero byte. -/
def unendedContainer : List UInt8 :=
  bareHeader [1, 0, 0, 0] ++ [4, 0, 0, 0, 1, 0, 0, 0, 2, 0, 0, 0, 48, 0, 0, 0] ++ [0x68, 0x69]

/-- The string does not run on into the bytes that are added. -/
theorem Script.read_append_unended :
    (Script.read unendedContainer "ascii" none).outcome = .ok { strings := [(0, "hi")] } ∧
      (Script.read (unendedContainer ++ [0x21, 0]) "ascii" none).outcome = .ok { strings := [(0, "hi")] } := by
  have hread : (Script.read unendedContainer "ascii" none).outcome = .ok { strings := [(0, "hi")] } := rfl
  exact ⟨hread, read_append [0x21, 0] hread⟩

/-- A container whose sections lie apart from the section table is read alike when the entries of the table are put in another order. -/
theorem Script.read_withEntries {entries : List (List UInt8)} (horder : ReadIn data forced order)
    (hread : (Script.read data decoder forced).outcome = .ok script)
    (hapart : ∀ s ∈ tableOf order data, s.kind ≤ 4 → ∀ i, s.address ≤ i → i < s.address + s.elementSize * s.count →
      i < 32 ∨ 32 + 16 * order.field data 16 4 ≤ i)
    (hperm : entries.Perm (entriesOf (order.field data 16 4) data)) :
    (Script.read (withEntries data entries) decoder forced).outcome = .ok script := by
  obtain ⟨other, hother, h⟩ := read_eq_ok_iff.mp hread
  obtain rfl := horder.unique hother
  have hcount : entries.length = order.field data 16 4 := by
    simpa [entriesOf] using hperm.length_eq
  have hfits : 32 + 16 * entries.length ≤ data.length := hcount ▸ h.table
  have hsize : ∀ entry ∈ entries, entry.length = 16 := by
    intro entry hentry
    exact length_of_mem_entriesOf h.table entry (hperm.mem_iff.mp hentry)
  have hagree := agreeOn_withEntries hfits hsize
  have hheader : AgreeOn (· < 32) data (withEntries data entries) := hagree.mono fun i hi => .inl hi
  have htable : (tableOf order data).Perm (tableOf order (withEntries data entries)) := by
    rw [tableOf_eq_map, tableOf_eq_map, ← hheader.count_eq order, ← hcount, entriesOf_withEntries hfits hsize]
    exact (hcount ▸ hperm.symm).map (readEntry order)
  have huses : ∀ s ∈ tableOf order data, AgreeOn (s.Uses data) data (withEntries data entries) := by
    intro s hs
    refine hagree.mono fun i hi => ?_
    obtain ⟨hkind, hfirst, hlast⟩ := hi.inside
    rw [hcount]
    exact hapart s hs hkind i hfirst hlast
  have hlength := length_withEntries hfits hsize
  exact read_eq_ok_iff.mpr ⟨order, horder.congr hheader, h.rearrange hlength.ge hheader htable huses⟩

end Rearranged

/-- A container with a string, a slot, and two sections of one type that is not known, one of which is the table itself. -/
def mixedContainer : List UInt8 :=
  bareHeader [4, 0, 0, 0] ++ [9, 0, 0, 0, 16, 0, 0, 0, 4, 0, 0, 0, 32, 0, 0, 0] ++
    [4, 0, 0, 0, 1, 0, 0, 0, 2, 0, 0, 0, 96, 0, 0, 0] ++ [9, 0, 0, 0, 1, 0, 0, 0, 1, 0, 0, 0, 0, 0, 0, 0] ++
    [2, 0, 0, 0, 4, 0, 0, 0, 1, 0, 0, 0, 98, 0, 0, 0] ++ [0x61, 0] ++ [9, 0, 0, 0]

/-- The sections of a table that is turned round are the same. -/
theorem Script.read_withEntries_reversed :
    (ReadIn mixedContainer none .little ∧
      (Script.read mixedContainer "ascii" none).outcome = .ok { text := [⟨9, 0, 9⟩], strings := [(0, "a")] } ∧
      ∀ s ∈ tableOf .little mixedContainer, s.kind ≤ 4 → ∀ i, s.address ≤ i → i < s.address + s.elementSize * s.count →
        i < 32 ∨ 32 + 16 * ByteOrder.little.field mixedContainer 16 4 ≤ i) ∧
      (Script.read (withEntries mixedContainer (entriesOf 4 mixedContainer).reverse) "ascii" none).outcome =
        .ok { text := [⟨9, 0, 9⟩], strings := [(0, "a")] } := by
  have horder : ReadIn mixedContainer none .little := .little (by decide)
  have hread : (Script.read mixedContainer "ascii" none).outcome = .ok { text := [⟨9, 0, 9⟩], strings := [(0, "a")] } := by
    decide +kernel
  have hbehind : ∀ s ∈ tableOf .little mixedContainer, s.kind ≤ 4 →
      32 + 16 * ByteOrder.little.field mixedContainer 16 4 ≤ s.address := by
    decide
  have hapart : ∀ s ∈ tableOf .little mixedContainer, s.kind ≤ 4 → ∀ i, s.address ≤ i →
      i < s.address + s.elementSize * s.count → i < 32 ∨ 32 + 16 * ByteOrder.little.field mixedContainer 16 4 ≤ i := by
    intro s hs hkind i hfirst _
    exact .inr ((hbehind s hs hkind).trans hfirst)
  exact ⟨⟨horder, hread, hapart⟩, read_withEntries horder hread hapart (List.reverse_perm _)⟩

end FlowListing
