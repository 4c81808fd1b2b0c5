import Mathlib
import FlowListing.Proofs.Acceptance

/-!
# Cutting text at zero bytes

A string section is cut at its zero bytes before anything is decoded. That is sound, because no codec takes a zero byte as part of a
longer character: a character ends before the next zero byte, and nothing behind that byte has a part in it (`EndsBeforeZero`). So bytes
with a zero byte among them decode exactly if what stands before it and what stands behind it do (`Codec.decode_append_zero`), and a
section decodes as a whole exactly if all its strings do (`Container.decode_eq_joined`).
-/

namespace FlowListing.Encoding

/-! ## One character -/

/-- A way to read the rest of a character from the bytes behind its first one: it takes bytes that are there, and none of them is or
comes after a zero byte. -/
structure EndsBeforeZero (read : List UInt8 → Except Refusal (Char × ℕ)) : Prop where
  append_zero : ∀ tail rest c more, read (tail ++ 0 :: rest) = .ok (c, more) ↔ read tail = .ok (c, more)
  le_length : ∀ tail c more, read tail = .ok (c, more) → more ≤ tail.length

/-- A character of one byte. -/
theorem endsBeforeZero_ok (c : Char) : EndsBeforeZero fun _ => .ok (c, 0) := by
  refine ⟨fun _ _ _ _ => Iff.rfl, ?_⟩
  intro tail d more h
  cases h
  exact Nat.zero_le _

/-- A byte that starts no character. -/
theorem endsBeforeZero_error (refusal : Refusal) : EndsBeforeZero fun _ => .error refusal := by
  refine ⟨fun _ _ _ _ => Iff.rfl, ?_⟩
  intro tail c more h
  cases h

section Utf8

variable {count low high value taken code : ℕ} {tail : List UInt8}

/-- Continuation bytes are read up to a zero byte at most. -/
theorem utf8Tail_append_zero (hlow : 0 < low) (rest : List UInt8) :
    utf8Tail count low high value taken (tail ++ 0 :: rest) = .ok code ↔ utf8Tail count low high value taken tail = .ok code := by
  induction tail generalizing count low high value taken with
  | nil =>
    cases count with
    | zero => simp [utf8Tail]
    | succ count => simp [utf8Tail, hlow.ne']
  | cons b tail ih =>
    cases count with
    | zero => simp [utf8Tail]
    | succ count =>
      simp only [List.cons_append, utf8Tail]
      split
      · exact ih (by decide)
      · simp

/-- The continuation bytes that are read are there. -/
theorem le_length_of_utf8Tail (h : utf8Tail count low high value taken tail = .ok code) : count ≤ tail.length := by
  induction tail generalizing count low high value taken with
  | nil =>
    cases count with
    | zero => exact Nat.le_refl _
    | succ count => simp [utf8Tail] at h
  | cons b tail ih =>
    cases count with
    | zero => exact Nat.zero_le _
    | succ count =>
      simp only [utf8Tail] at h
      split at h
      · exact Nat.succ_le_succ (ih h)
      · cases h

/-- Continuation bytes are not zero. -/
theorem endsBeforeZero_utf8Tail (count high value : ℕ) (hlow : 0 < low) :
    EndsBeforeZero fun rest => (utf8Tail count low high value 1 rest).map fun code => (Char.ofNat code, count) := by
  constructor
  · intro tail rest c more
    constructor
    · intro h
      obtain ⟨code, hcode, hchar⟩ := exists_of_map_eq_ok h
      rw [(utf8Tail_append_zero hlow rest).mp hcode, ← hchar]
      rfl
    · intro h
      obtain ⟨code, hcode, hchar⟩ := exists_of_map_eq_ok h
      rw [(utf8Tail_append_zero hlow rest).mpr hcode, ← hchar]
      rfl
  · intro tail c more h
    obtain ⟨code, hcode, hchar⟩ := exists_of_map_eq_ok h
    cases hchar
    exact le_length_of_utf8Tail hcode

/-- A character of UTF-8 ends before a zero byte. -/
theorem endsBeforeZero_nextUtf8 (b : UInt8) : EndsBeforeZero (nextUtf8 b) := by
  unfold nextUtf8
  simp only []
  split
  · exact endsBeforeZero_ok _
  split
  · exact endsBeforeZero_error _
  split
  · exact endsBeforeZero_utf8Tail _ _ _ (by decide)
  split
  · refine endsBeforeZero_utf8Tail _ _ _ ?_
    split <;> decide
  split
  · refine endsBeforeZero_utf8Tail _ _ _ ?_
    split <;> decide
  · exact endsBeforeZero_error _

end Utf8

/-- The second byte of a pair is not zero. -/
theorem endsBeforeZero_nextShiftJis (b : UInt8) : EndsBeforeZero (nextShiftJis b) := by
  have hzero : shiftJisPair? b.toNat 0 = none := if_pos (.inl (by decide))
  unfold nextShiftJis
  simp only []
  split
  · exact endsBeforeZero_ok _
  split
  · exact endsBeforeZero_ok _
  split
  · constructor
    · intro tail rest c more
      cases tail with
      | nil => simp [hzero]
      | cons trail tail => rfl
    · intro tail c more h
      cases tail with
      | nil => cases h
      | cons trail tail =>
        cases hpair : shiftJisPair? b.toNat trail.toNat with
        | none => simp [hpair] at h
        | some d =>
          simp only [hpair] at h
          cases h
          exact Nat.succ_le_succ (Nat.zero_le _)
  · exact endsBeforeZero_error _

/-- No codec takes a zero byte as part of a longer character. -/
theorem Codec.endsBeforeZero_next (codec : Codec) (b : UInt8) : EndsBeforeZero (codec.next b) := by
  cases codec with
  | shiftJis => exact endsBeforeZero_nextShiftJis b
  | utf8 => exact endsBeforeZero_nextUtf8 b
  | ascii =>
    unfold next
    simp only []
    split
    · exact endsBeforeZero_ok _
    · exact endsBeforeZero_error _
  | latin1 => exact endsBeforeZero_ok _

/-- A zero byte is a character of its own. -/
theorem Codec.next_zero (codec : Codec) (rest : List UInt8) : codec.next 0 rest = .ok ('\x00', 0) := by
  cases codec <;> rfl

/-- The character in a cell, from the characters of its row. -/
theorem jisChar?_of_lookup {row cell : ℕ} {chars : List Char} {c : Char} (hrow : List.lookup row jisRows = some (String.ofList chars))
    (hcell : chars[cell - 1]? = some c) (hc : c ≠ '.') : jisChar? row cell = some c := by
  simp [jisChar?, hrow, hcell, hc]

/-- A byte that starts a pair makes one character with the next. -/
theorem nextShiftJis_of_pair {b trail : UInt8} {c : Char} (rest : List UInt8) (hlead : isShiftJisLead b.toNat = true)
    (hpair : shiftJisPair? b.toNat trail.toNat = some c) : nextShiftJis b (trail :: rest) = .ok (c, 1) := by
  have hrange : (0x81 ≤ b.toNat ∧ b.toNat ≤ 0x9F) ∨ (0xE0 ≤ b.toNat ∧ b.toNat ≤ 0xEA) := by
    simpa [isShiftJisLead] using hlead
  unfold nextShiftJis
  simp only []
  rw [if_neg (by omega), if_neg (by omega), if_pos hlead, hpair]

/-! ## Characters one after another -/

namespace Codec

variable {codec : Codec} {b : UInt8} {bytes piece rest : List UInt8} {position skip : ℕ} {text : List Char}

/-- A character is read, and then what follows it. -/
theorem decodeFrom_cons_eq_ok_iff :
    codec.decodeFrom position 0 (b :: rest) = .ok text ↔
      ∃ c more later, codec.next b rest = .ok (c, more) ∧ codec.decodeFrom (position + 1) more rest = .ok later ∧ text = c :: later := by
  rw [decodeFrom]
  cases hnext : codec.next b rest with
  | error refusal => simp
  | ok found =>
    constructor
    · intro h
      obtain ⟨later, hlater, rfl⟩ := exists_of_map_eq_ok h
      exact ⟨found.1, found.2, later, rfl, hlater, rfl⟩
    · rintro ⟨c, more, later, hfound, hlater, rfl⟩
      cases hfound
      simp only [hlater]
      rfl

/-- Positions are counted for faults only. -/
theorem decodeFrom_eq_ok_congr (codec : Codec) (position other skip : ℕ) (bytes : List UInt8) (text : List Char) :
    codec.decodeFrom position skip bytes = .ok text ↔ codec.decodeFrom other skip bytes = .ok text := by
  induction bytes generalizing position other skip text with
  | nil => simp [decodeFrom]
  | cons b rest ih =>
    cases skip with
    | succ skip => exact ih _ _ _ _
    | zero =>
      rw [decodeFrom_cons_eq_ok_iff, decodeFrom_cons_eq_ok_iff]
      simp only [ih (position + 1) (other + 1)]

/-- What stands before a zero byte and what stands behind it is decoded apart. -/
theorem decodeFrom_append_zero (hskip : skip ≤ piece.length) :
    codec.decodeFrom position skip (piece ++ 0 :: rest) = .ok text ↔
      ∃ front back, codec.decodeFrom position skip piece = .ok front ∧ codec.decodeFrom 0 0 rest = .ok back ∧
        text = front ++ '\x00' :: back := by
  induction piece generalizing position skip text with
  | nil =>
    obtain rfl := Nat.le_zero.mp hskip
    rw [List.nil_append, decodeFrom_cons_eq_ok_iff]
    constructor
    · rintro ⟨c, more, back, hnext, hback, rfl⟩
      rw [next_zero] at hnext
      cases hnext
      exact ⟨[], back, rfl, (decodeFrom_eq_ok_congr codec _ _ _ _ _).mp hback, rfl⟩
    · rintro ⟨front, back, hfront, hback, rfl⟩
      cases hfront
      exact ⟨_, _, back, next_zero codec rest, (decodeFrom_eq_ok_congr codec _ _ _ _ _).mp hback, rfl⟩
  | cons b piece ih =>
    cases skip with
    | succ skip => exact ih (Nat.le_of_succ_le_succ hskip)
    | zero =>
      have hends := codec.endsBeforeZero_next b
      rw [List.cons_append, decodeFrom_cons_eq_ok_iff]
      constructor
      · rintro ⟨c, more, later, hnext, hlater, rfl⟩
        rw [hends.append_zero] at hnext
        obtain ⟨front, back, hfront, hback, rfl⟩ := (ih (hends.le_length _ _ _ hnext)).mp hlater
        exact ⟨c :: front, back, decodeFrom_cons_eq_ok_iff.mpr ⟨c, more, front, hnext, hfront, rfl⟩, hback, rfl⟩
      · rintro ⟨front, back, hfront, hback, rfl⟩
        obtain ⟨c, more, later, hnext, hlater, rfl⟩ := decodeFrom_cons_eq_ok_iff.mp hfront
        exact ⟨c, more, _, (hends.append_zero _ _ _ _).mpr hnext,
          (ih (hends.le_length _ _ _ hnext)).mpr ⟨later, back, hlater, hback, rfl⟩, rfl⟩

/-- The text of bytes is the characters from the first byte on. -/
theorem decode_eq_ok_iff {s : String} : codec.decode bytes = .ok s ↔ codec.decodeFrom 0 0 bytes = .ok s.toList := by
  unfold decode
  constructor
  · intro h
    obtain ⟨text, htext, rfl⟩ := exists_of_map_eq_ok h
    rw [htext, String.toList_ofList]
  · intro h
    rw [h]
    simp [Except.map]

/-- Bytes with a zero byte among them are the text before it, the character zero, and the text behind it. -/
theorem decode_append_zero {s : String} :
    codec.decode (piece ++ 0 :: rest) = .ok s ↔
      ∃ front back, codec.decode piece = .ok front ∧ codec.decode rest = .ok back ∧ s = front ++ "\x00" ++ back := by
  rw [decode_eq_ok_iff, decodeFrom_append_zero (Nat.zero_le _)]
  simp only [decode_eq_ok_iff]
  constructor
  · rintro ⟨front, back, hfront, hback, htext⟩
    refine ⟨String.ofList front, String.ofList back, by simpa using hfront, by simpa using hback, ?_⟩
    rw [← String.toList_inj, htext]
    simp
  · rintro ⟨front, back, hfront, hback, rfl⟩
    exact ⟨front.toList, back.toList, hfront, hback, by simp⟩

end Codec

end FlowListing.Encoding

namespace FlowListing.Container

open Encoding

/-! ## Strings of a section -/

/-- The strings of a table with a zero character between any two, and one more behind the last if the section ends in a zero byte. -/
def joinedText (table : StringTable) (raw : List UInt8) : String :=
  "\x00".intercalate (table.map Prod.snd) ++ if raw.getLast? = some 0 then "\x00" else ""

/-- Bytes are none, or a last piece, or a piece before a zero byte. -/
theorem cut_induction {motive : List UInt8 → Prop} (nil : motive []) (last : ∀ piece, 0 ∉ piece → piece ≠ [] → motive piece)
    (zero : ∀ piece rest, 0 ∉ piece → motive rest → motive (piece ++ 0 :: rest)) (raw : List UInt8) : motive raw := by
  induction hlength : raw.length using Nat.strong_induction_on generalizing raw with
  | _ length ih =>
    by_cases hzero : 0 ∈ raw
    · obtain ⟨piece, rest, rfl, hpiece⟩ := List.eq_append_cons_of_mem hzero
      refine zero piece rest hpiece (ih rest.length ?_ rest rfl)
      rw [← hlength, List.length_append, List.length_cons]
      omega
    · rcases List.eq_nil_or_concat raw with rfl | ⟨front, b, rfl⟩
      · exact nil
      · exact last _ hzero (by simp)

section Joined

variable {decoder : Decoder} {codec : Codec}

/-- Bytes have a first piece, unless there are none. -/
theorem splitStrings_eq_nil_iff (start : ℕ) (raw : List UInt8) : splitStrings start [] raw = [] ↔ raw = [] := by
  induction raw using cut_induction with
  | nil => simp [splitStrings]
  | last piece hpiece hne => simp [splitStrings_of_not_mem hpiece start [] (by simpa using hne), hne]
  | zero piece rest hpiece _ => simp [splitStrings_append_zero hpiece]

/-- A table is empty if there are no bytes. -/
theorem decodeStrings_eq_nil_iff {start : ℕ} {raw : List UInt8} {table : StringTable}
    (h : decodeStrings decoder (splitStrings start [] raw) = .ok table) : raw = [] ↔ table = [] := by
  have hkeys := congrArg List.length (keys_of_decodeStrings h)
  rw [List.length_map, List.length_map] at hkeys
  rw [← splitStrings_eq_nil_iff start raw, ← List.length_eq_zero_iff, ← List.length_eq_zero_iff, hkeys]

/-- A piece before a zero byte goes in front of the strings behind it. -/
theorem joinedText_cons {table : StringTable} {rest : List UInt8} (offset : ℤ) (front : String) (piece : List UInt8)
    (hempty : rest = [] ↔ table = []) :
    joinedText ((offset, front) :: table) (piece ++ 0 :: rest) = front ++ "\x00" ++ joinedText table rest := by
  unfold joinedText
  by_cases hrest : rest = []
  · rw [hempty.mp hrest, hrest]
    simp
  · have htable : table.map Prod.snd ≠ [] := by simpa using mt hempty.mpr hrest
    rw [List.map_cons, String.intercalate_cons_of_ne_nil htable, List.getLast?_append_of_ne_nil _ (List.cons_ne_nil _ _),
      List.getLast?_cons_of_ne_nil hrest]
    simp [String.append_assoc]

/-- A section decodes as a whole exactly if its strings do, and is then what they are when they are joined. -/
theorem decode_eq_ok_iff_decodeStrings (hcodec : decoder.Follows codec) (raw : List UInt8) (start : ℕ) {text : String} :
    codec.decode raw = .ok text ↔
      ∃ table, decodeStrings decoder (splitStrings start [] raw) = .ok table ∧ text = joinedText table raw := by
  induction raw using cut_induction generalizing start text with
  | nil =>
    constructor
    · intro h
      cases h
      exact ⟨[], rfl, rfl⟩
    · rintro ⟨table, htable, rfl⟩
      cases htable
      rfl
  | last piece hpiece hne =>
    have hlast : piece.getLast? ≠ some 0 := fun hzero => hpiece (List.mem_of_getLast? hzero)
    rw [splitStrings_of_not_mem hpiece start [] (by simpa using hne)]
    simp only [decodeStrings_cons_eq_ok_iff, hcodec.decodeText_eq_ok_iff, joinedText, if_neg hlast, List.reverse_nil, List.nil_append]
    constructor
    · intro h
      exact ⟨_, ⟨text, [], h, rfl, rfl⟩, by simp⟩
    · rintro ⟨table, ⟨front, strings, hfront, hstrings, rfl⟩, rfl⟩
      cases hstrings
      simpa using hfront
  | zero piece rest hpiece ih =>
    rw [splitStrings_append_zero hpiece, Codec.decode_append_zero]
    simp only [decodeStrings_cons_eq_ok_iff, hcodec.decodeText_eq_ok_iff, List.reverse_nil, List.nil_append]
    constructor
    · rintro ⟨front, back, hfront, hback, rfl⟩
      obtain ⟨table, htable, rfl⟩ := (ih _).mp hback
      exact ⟨_, ⟨front, table, hfront, htable, rfl⟩, (joinedText_cons _ _ _ (decodeStrings_eq_nil_iff htable)).symm⟩
    · rintro ⟨_, ⟨front, table, hfront, htable, rfl⟩, rfl⟩
      exact ⟨front, _, hfront, (ih _).mpr ⟨table, htable, rfl⟩, joinedText_cons _ _ _ (decodeStrings_eq_nil_iff htable)⟩

end Joined

/-- Cutting before decoding is sound in every codec: a section decodes as a whole exactly if each of its strings does, and its text is
then that of the strings, joined in the order of their ids. -/
theorem decode_eq_joined {encoding : String} {codec : Codec} (hcodec : codecNamed encoding = .ok codec) (raw : List UInt8) :
    (Decodes codec raw ↔ ∃ table, readStrings encoding raw = .ok table) ∧
      ∀ table, readStrings encoding raw = .ok table →
        (table.map Prod.fst).Pairwise (· < ·) ∧ codec.decode raw = .ok (joinedText table raw) := by
  have hfollows := Decoder.follows_named hcodec
  refine ⟨⟨?_, ?_⟩, ?_⟩
  · rintro ⟨text, htext⟩
    rw [codec.follows_decoder.decodeText_eq_ok_iff] at htext
    obtain ⟨table, htable, -⟩ := (decode_eq_ok_iff_decodeStrings hfollows raw 0).mp htext
    exact ⟨table, htable⟩
  · rintro ⟨table, htable⟩
    exact ⟨_, codec.follows_decoder.decodeText_eq_ok_iff.mpr ((decode_eq_ok_iff_decodeStrings hfollows raw 0).mpr ⟨table, htable, rfl⟩)⟩
  · intro table htable
    exact ⟨pairwise_keys_of_readStrings htable, (decode_eq_ok_iff_decodeStrings hfollows raw 0).mpr ⟨table, htable, rfl⟩⟩

/-- A kana, a letter and a zero byte at the end; and a pair whose second byte is missing, which a zero byte does not make up for. The
characters of the row of the kana are taken as they stand, since to evaluate the row as a string takes seconds. -/
theorem decode_eq_joined_kana :
    codecNamed "sjis" = .ok .shiftJis ∧
      (readStrings "sjis" [0x83, 0x65, 0, 0x41, 0] = .ok [(0, "テ"), (3, "A")] ∧
        Codec.shiftJis.decode [0x83, 0x65, 0, 0x41, 0] = .ok "テ\x00A\x00") ∧
      ¬Decodes Codec.shiftJis [0x83, 0, 0x41] ∧ ¬∃ table, readStrings "sjis" [0x83, 0, 0x41] = .ok table := by
  have hcodec : codecNamed "sjis" = .ok .shiftJis := rfl
  have hpair : shiftJisPair? (0x83 : UInt8).toNat (0x65 : UInt8).toNat = some 'テ' := by
    change jisChar? 5 38 = some 'テ'
    set_option maxRecDepth 2000 in exact jisChar?_of_lookup rfl rfl (by decide)
  have hkana : Codec.shiftJis.decode [0x83, 0x65] = .ok "テ" := by
    have hnext : Codec.shiftJis.next 0x83 [0x65] = .ok ('テ', 1) := by
      rw [Codec.next, nextShiftJis_of_pair [] (by decide) hpair]
    exact Codec.decode_eq_ok_iff.mpr (Codec.decodeFrom_cons_eq_ok_iff.mpr ⟨_, _, [], hnext, rfl, rfl⟩)
  have hread : readStrings "sjis" [0x83, 0x65, 0, 0x41, 0] = .ok [(0, "テ"), (3, "A")] := by
    have hletter : decodeStrings "sjis" [(3, [0x41])] = .ok [(3, "A")] := by decide +kernel
    exact decodeStrings_cons_eq_ok_iff.mpr ⟨_, _, (Decoder.follows_named hcodec).decodeText_eq_ok_iff.mpr hkana, hletter, rfl⟩
  have hill : ¬∃ table, readStrings "sjis" [0x83, 0, 0x41] = .ok table := by
    rintro ⟨table, htable⟩
    cases htable
  have hjoined : joinedText [(0, "テ"), (3, "A")] [0x83, 0x65, 0, 0x41, 0] = "テ\x00A\x00" := by decide +kernel
  refine ⟨hcodec, ⟨hread, ?_⟩, ?_, hill⟩
  · rw [← hjoined]
    exact ((decode_eq_joined hcodec _).2 _ hread).2
  · rw [(decode_eq_joined hcodec _).1]
    exact hill

end FlowListing.Container
