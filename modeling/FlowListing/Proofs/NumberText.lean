import FlowListing.Number
import FlowListing.Text.Shown

/-!
# The characters of numbers

Which characters stand in the text of a number, and what a dump of bytes tells: each byte takes two digits, so the dump gives the
bytes back.
-/

namespace FlowListing

/-! ## Decimal digits -/

/-- A whole number is written with digits and a sign. -/
theorem Number.mem_repr {value : Int} {c : Char} (h : c ∈ value.repr.toList) : c.isDigit = true ∨ c = '-' := by
  rw [Int.repr_eq_if] at h
  split at h
  · rw [Nat.toList_repr] at h
    exact .inl (Nat.isDigit_of_mem_toDigits (by decide) (by decide) h)
  · rw [String.toList_append, Nat.toList_repr] at h
    rcases List.mem_append.mp h with h | h
    · exact .inr (by simpa using h)
    · exact .inl (Nat.isDigit_of_mem_toDigits (by decide) (by decide) h)

/-- The text of a whole number is not empty. -/
theorem Number.repr_ne_nil (value : Int) : value.repr.toList ≠ [] := by
  rw [Int.repr_eq_if]
  split
  · rw [Nat.toList_repr]
    exact Nat.toDigits_ne_nil
  · rw [String.toList_append, Nat.toList_repr]
    exact List.append_ne_nil_of_right_ne_nil _ Nat.toDigits_ne_nil

namespace Number

/-- Trimmed places are digits of the places, or zeros. -/
theorem mem_trimPlaces {digits : List Char} {c : Char} (h : c ∈ trimPlaces digits) : c ∈ digits ∨ c = '0' := by
  rcases List.mem_append.mp h with h | h
  · rw [List.mem_reverse] at h
    have hmem := (List.dropWhile_suffix _).subset h
    exact .inl (List.mem_reverse.mp hmem)
  · exact .inr (List.eq_of_mem_replicate h)

/-- The text of a count of places holds digits and one point. -/
theorem mem_placesText {count : Nat} {c : Char} (h : c ∈ placesText count) : c.isDigit = true ∨ c = '.' := by
  rcases List.mem_append.mp h with h | h
  · exact .inl (Nat.isDigit_of_mem_toDigits (by decide) (by decide) h)
  · rcases List.mem_cons.mp h with h | h
    · exact .inr h
    · rcases mem_trimPlaces h with h | rfl
      · rcases List.mem_append.mp h with h | h
        · rw [List.eq_of_mem_replicate h]
          exact .inl rfl
        · exact .inl (Nat.isDigit_of_mem_toDigits (by decide) (by decide) h)
      · exact .inl rfl

/-- A number is shown on one line. -/
theorem newline_not_mem_display (x : Datum) : '\n' ∉ x.display.toList := by
  cases x with
  | nan => decide
  | infinite negative => cases negative <;> decide
  | finite negative quanta =>
    intro h
    rw [Datum.display, String.toList_ofList] at h
    rcases List.mem_append.mp h with h | h
    · cases negative <;> simp at h
    · rcases mem_placesText h with h | h
      · exact absurd h (by decide)
      · exact absurd h (by decide)

end Number

/-! ## Dumps -/

namespace Text

/-- An upper-case hexadecimal digit. -/
def hexDigit (d : Nat) : Char :=
  (Nat.digitChar d).toUpper

/-- A byte takes two digits, the high one first. -/
theorem hexUpper_two {n : Nat} (h : n < 256) : hexUpper 2 n = [hexDigit (n / 16), hexDigit (n % 16)] := by
  unfold hexUpper hexLower
  rcases Nat.lt_or_ge n 16 with hlt | hge
  · rw [Nat.toDigits_of_lt_base hlt, Nat.div_eq_of_lt hlt, Nat.mod_eq_of_lt hlt]
    rfl
  · rw [Nat.toDigits_of_base_le (by decide) hge, Nat.toDigits_of_lt_base (by omega)]
    rfl

/-- No two values have the same digit. -/
theorem hexDigit_injective {a b : Nat} (ha : a < 16) (hb : b < 16) (h : hexDigit a = hexDigit b) : a = b := by
  have hall : ∀ a b : Fin 16, hexDigit a = hexDigit b → a = b := by decide
  exact congrArg Fin.val (hall ⟨a, ha⟩ ⟨b, hb⟩ h)

/-- A digit is no line end. -/
theorem hexDigit_ne_newline {a : Nat} (ha : a < 16) : hexDigit a ≠ '\n' := by
  have hall : ∀ a : Fin 16, hexDigit a ≠ '\n' := by decide
  exact hall ⟨a, ha⟩

@[simp] theorem toList_hexDump_nil : (hexDump []).toList = [] := by
  simp [hexDump]

/-- A dump is two digits for the first byte, and the dump of the others. -/
@[simp] theorem toList_hexDump_cons (b : UInt8) (bytes : List UInt8) :
    (hexDump (b :: bytes)).toList = hexDigit (b.toNat / 16) :: hexDigit (b.toNat % 16) :: (hexDump bytes).toList := by
  simp [hexDump, hexUpper_two b.toNat_lt]

/-- A dump gives the bytes back. -/
theorem hexDump_injective {xs ys : List UInt8} (h : hexDump xs = hexDump ys) : xs = ys := by
  have h := congrArg String.toList h
  induction xs generalizing ys with
  | nil =>
    cases ys with
    | nil => rfl
    | cons y ys => simp at h
  | cons x xs ih =>
    cases ys with
    | nil => simp at h
    | cons y ys =>
      have hx := x.toNat_lt
      have hy := y.toNat_lt
      rw [toList_hexDump_cons, toList_hexDump_cons] at h
      obtain ⟨hhigh, h⟩ := List.cons.inj h
      obtain ⟨hlow, h⟩ := List.cons.inj h
      have hdiv := hexDigit_injective (by omega) (by omega) hhigh
      have hmod := hexDigit_injective (by omega) (by omega) hlow
      have hxy : x = y := UInt8.toNat_inj.mp (by omega)
      rw [hxy, ih (String.toList_inj.mp h) h]

/-- A dump is on one line. -/
theorem newline_not_mem_hexDump (bytes : List UInt8) : '\n' ∉ (hexDump bytes).toList := by
  induction bytes with
  | nil => simp
  | cons b bytes ih =>
    have hb := b.toNat_lt
    simp only [toList_hexDump_cons, List.mem_cons, not_or]
    exact ⟨(hexDigit_ne_newline (by omega)).symm, (hexDigit_ne_newline (by omega)).symm, ih⟩

end Text

end FlowListing
