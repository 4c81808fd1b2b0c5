import Mathlib
import FlowListing.Script
import FlowListing.Proofs.ShownValue

/-!
# How many digits of a number are significant

Rounding to seven significant digits is meant to leave no others in the text. It does so as far as the double in the middle is the
decimal that was asked for: below 10 ^ 7 the places take up what little it is off, and above, where a double is shown in full, a decimal
that has more than 53 significant bits comes out with the digits of the double (`display_significant_iff`). The first such decimals lie
above 10 ^ 19; 10 ^ 23 is one (`display_noise`).
-/

namespace FlowListing.Number

attribute [local irreducible] quantaPerUnit decimalScale

/-- A number has one rounding to significant digits. -/
theorem RoundsToDigits.unique {digits : ℕ} {x v w : ℚ} (hv : RoundsToDigits digits x v) (hw : RoundsToDigits digits x w) : v = w := by
  obtain ⟨k, hlow, hhigh, hround⟩ := hv
  obtain ⟨k', hlow', hhigh', hround'⟩ := hw
  have hle := exponent_lt hlow hhigh'
  have hge := exponent_lt hlow' hhigh
  obtain rfl : k = k' := by omega
  exact hround.unique (by positivity) hround'

/-- Seven digits, or the next power of ten, followed by zeros. -/
theorem isShort_mul_pow {n : ℕ} (hn : n ≤ 10 ^ 7) (j : ℕ) : IsShort 7 (n * 10 ^ j) := by
  rcases Nat.lt_or_eq_of_le hn with hlt | rfl
  · exact ⟨n, j, hlt, rfl⟩
  · exact ⟨1, 7 + j, by decide, by rw [pow_add, one_mul]⟩

/-- A short number that is not small is a multiple of a power of ten. -/
theorem IsShort.exists_multiple {digits count : ℕ} {e : ℤ} (h : IsShort digits count)
    (hlow : (10 : ℚ) ^ (e + digits - 1) ≤ ofPlaceCount count) : ∃ a : ℤ, ofPlaceCount count = a * 10 ^ e := by
  obtain ⟨m, j, hm, rfl⟩ := h
  have hvalue : ofPlaceCount (m * 10 ^ j) = m * 10 ^ ((j : ℤ) - 7) := by
    rw [ofPlaceCount, zpow_sub₀ (by norm_num), zpow_natCast, ← mul_div_assoc]
    push_cast
    rfl
  have hexponent : e + digits - 1 < (j : ℤ) - 7 + digits := by
    refine exponent_lt hlow ?_
    rw [hvalue, zpow_add_natCast]
    gcongr
  refine ⟨m * 10 ^ ((j : ℤ) - 7 - e).toNat, ?_⟩
  have hpower : (10 : ℚ) ^ ((j : ℤ) - 7) = 10 ^ ((j : ℤ) - 7 - e).toNat * 10 ^ e := by
    rw [← zpow_natCast, ← zpow_add₀ (by norm_num), Int.toNat_of_nonneg (by omega), sub_add_cancel]
  rw [hvalue, hpower]
  push_cast
  ring

section Shown

variable {quanta : ℕ}

/-- Below one there are not more than seven places to show. -/
theorem isShort_of_lt_one (h : ofQuanta quanta < 1) : IsShort 7 (shownPlaces quanta) := by
  obtain ⟨-, hone⟩ := toSignificant_of_lt_one h
  have hrest := abs_ofUnits_sub_shown_le quanta
  rw [max_eq_right hone, abs_le] at hrest
  have hlt : ofPlaceCount (shownPlaces quanta) < ofPlaceCount (10 ^ 7 + 1) := by
    have hnext : ofPlaceCount (10 ^ 7 + 1) = 1 + 1 / 10 ^ 7 := by norm_num [ofPlaceCount, mostPlaces]
    rw [hnext]
    linarith
  have hle : shownPlaces quanta ≤ 10 ^ 7 := Nat.lt_succ_iff.mp (not_le.mp (mt ofPlaceCount_le_iff.mpr (not_le.mpr hlt)))
  simpa using isShort_mul_pow hle 0

/-- A number that is shown as rounded to seven digits has no others. -/
theorem isShort_of_eq (hone : 1 ≤ ofQuanta quanta) (h : ofPlaceCount (shownPlaces quanta) = ofUnits (toSignificant quanta)) :
    IsShort 7 (shownPlaces quanta) := by
  obtain ⟨k, n, -, hhigh, -, hn, -, hle⟩ := exists_digits (pos_of_one_le hone)
  have hk : 0 < k + 7 := exponent_lt (by rwa [zpow_zero]) hhigh
  rw [hn, mul_zpow_eq_ofPlaceCount n hk.le] at h
  rw [ofPlaceCount_injective h]
  exact isShort_mul_pow hle _

/-- From 10 ^ 7 on, a short number that is shown is the one rounded to seven digits: both are multiples of a tenth of the last place, and
nearer to each other than that. -/
theorem eq_of_isShort (hlarge : 10 ^ 7 ≤ ofQuanta quanta) (h : IsShort 7 (shownPlaces quanta)) :
    ofPlaceCount (shownPlaces quanta) = ofUnits (toSignificant quanta) := by
  obtain ⟨k, n, -, hhigh, -, hn, hdigits, hdigits'⟩ := exists_digits (pos_of_one_le (le_trans (by norm_num) hlarge))
  have hk : 7 < k + 7 := exponent_lt (by exact_mod_cast hlarge) hhigh
  have hlow : (10 : ℚ) ^ 6 ≤ n := by exact_mod_cast hdigits
  have hhigh : (n : ℚ) ≤ 10 ^ 7 := by exact_mod_cast hdigits'
  have hunit : (1 : ℚ) ≤ 10 ^ (k - 1) := one_le_zpow₀ (by norm_num) (by omega)
  have hten : ofUnits (toSignificant quanta) = ((10 * n : ℕ) : ℤ) * 10 ^ (k - 1) := by
    rw [hn, zpow_sub_one₀ (by norm_num)]
    push_cast
    ring
  have hlow' : 10 ^ 7 * (10 : ℚ) ^ (k - 1) ≤ ofUnits (toSignificant quanta) := by
    rw [hten]
    push_cast
    nlinarith
  have hhigh' : ofUnits (toSignificant quanta) ≤ 10 ^ 8 * (10 : ℚ) ^ (k - 1) := by
    rw [hten]
    push_cast
    nlinarith
  have hnear : |ofUnits (toSignificant quanta) - ofPlaceCount (shownPlaces quanta)| < 10 ^ (k - 1) := by
    refine (abs_ofUnits_sub_shown_le quanta).trans_lt ?_
    rw [max_eq_left (by linarith)]
    linarith
  have hstart : (10 : ℚ) ^ (k - 1 + (7 : ℕ) - 1) ≤ ofPlaceCount (shownPlaces quanta) := by
    have hsix := zpow_add_natCast (k - 1) 6
    have hexponent : k - 1 + (7 : ℕ) - 1 = k - 1 + (6 : ℕ) := by omega
    push_cast at hsix
    rw [abs_lt] at hnear
    rw [hexponent, Nat.cast_ofNat, hsix]
    linarith
  obtain ⟨a, ha⟩ := h.exists_multiple hstart
  rw [ha, hten] at hnear ⊢
  exact (RoundsTo.multiples_eq hnear).symm

/-- And the double is that number. -/
theorem hasBits_of_isShort (hlarge : 10 ^ 7 ≤ ofQuanta quanta) (h : IsShort 7 (shownPlaces quanta)) :
    HasBits 53 (ofUnits (toSignificant quanta)) := by
  have heq := eq_of_isShort hlarge h
  obtain ⟨k, n, -, hhigh, -, hn, -, -⟩ := exists_digits (pos_of_one_le (le_trans (by norm_num) hlarge))
  have hk : 7 < k + 7 := exponent_lt (by exact_mod_cast hlarge) hhigh
  lift k to ℕ using by omega
  have hwhole : ofUnits (toSignificant quanta) = (n * 10 ^ k : ℕ) := by
    rw [hn, zpow_natCast]
    push_cast
    rfl
  rcases lt_or_ge (n * 10 ^ k) (2 ^ 53) with hlt | hge
  · exact ⟨n * 10 ^ k, 0, hlt, by rw [hwhole, pow_zero, mul_one]⟩
  · -- the double is whole and less than half away
    have hdouble : HasBits 53 (ofQuanta (ofDecimalUnits (toSignificant quanta))) := by
      refine hasBits_ofDecimalUnits ?_
      rw [hwhole]
      exact_mod_cast hge
    have hself : ofQuanta (ofDecimalUnits (toSignificant quanta)) = ofUnits (toSignificant quanta) := by
      have hthird := (roundsTo_shownPlaces quanta).abs_sub_le
      obtain ⟨m, e, -, hdouble⟩ := hdouble
      have hdouble : ofQuanta (ofDecimalUnits (toSignificant quanta)) = (m * 2 ^ e : ℕ) := by
        rw [hdouble]
        push_cast
        rfl
      rw [heq, hdouble, hwhole] at hthird
      have hlt : |((m * 2 ^ e : ℕ) : ℤ) - (n * 10 ^ k : ℕ)| < 1 := by
        exact_mod_cast hthird.trans_lt (by norm_num : (1 : ℚ) / 10 ^ 7 / 2 < 1)
      rw [hdouble, hwhole]
      exact_mod_cast sub_eq_zero.mp (Int.abs_lt_one_iff.mp hlt)
    rwa [hself] at hdouble

/-- What is shown has seven significant digits at most exactly below 10 ^ 7 and where the number rounded to seven digits is a double. -/
theorem isShort_shownPlaces_iff :
    IsShort 7 (shownPlaces quanta) ↔ ofQuanta quanta < 10 ^ 7 ∨ HasBits 53 (ofUnits (toSignificant quanta)) := by
  constructor
  · intro h
    rcases lt_or_ge (ofQuanta quanta) (10 ^ 7) with hsmall | hlarge
    · exact .inl hsmall
    · exact .inr (hasBits_of_isShort hlarge h)
  · intro h
    rcases lt_or_ge (ofQuanta quanta) 1 with hlt | hone
    · exact isShort_of_lt_one hlt
    · refine isShort_of_eq hone ?_
      rcases h with hsmall | hbits
      · exact ofPlaceCount_shownPlaces hone (hsmall.trans (by norm_num))
      · exact ofPlaceCount_shownPlaces_of_hasBits hone hbits

/-- Below 10 ^ 19 a number is shown with seven significant digits. -/
theorem isShort_shownPlaces_of_lt (h : ofQuanta quanta < 10 ^ 19) : IsShort 7 (shownPlaces quanta) := by
  rcases lt_or_ge (ofQuanta quanta) 1 with hlt | hone
  · exact isShort_of_lt_one hlt
  · exact isShort_of_eq hone (ofPlaceCount_shownPlaces hone h)

end Shown

/-- From the first digit on that is not zero, a number is shown with zeros only after the seventh exactly if it is below 10 ^ 7, or if
rounded to seven digits it is whole and has at most 53 significant bits, so that it is a double. All numbers below 10 ^ 19 are of these. -/
theorem Datum.display_significant_iff {x : Datum} {v : ℚ} (hx : x.value? = some v) :
    (SignificantAtMost 7 x.display.toList ↔ |v| < 10 ^ 7 ∨ ∃ rounded, RoundsToDigits 7 v rounded ∧ HasBits 53 |rounded|) ∧
      (|v| < 10 ^ 19 → SignificantAtMost 7 x.display.toList) := by
  obtain ⟨negative, quanta, rfl, rfl⟩ := exists_of_value? hx
  rw [toList_display, Decimal.significantAtMost_iff, abs_signed, abs_of_nonneg (ofQuanta_nonneg quanta)]
  refine ⟨?_, isShort_shownPlaces_of_lt⟩
  rw [isShort_shownPlaces_iff]
  rcases lt_or_ge (ofQuanta quanta) (10 ^ 7) with hsmall | hlarge
  · exact iff_of_true (.inl hsmall) (.inl hsmall)
  · have hround := (roundsToDigits_toSignificant (pos_of_one_le (le_trans (by norm_num) hlarge))).signed negative
    have habs : |signed negative (ofUnits (toSignificant quanta))| = ofUnits (toSignificant quanta) := by
      rw [abs_signed, abs_of_nonneg (ofUnits_nonneg _)]
    refine or_congr_right ⟨fun hbits => ⟨_, hround, by rwa [habs]⟩, ?_⟩
    rintro ⟨rounded, hrounded, hbits⟩
    rwa [hrounded.unique hround, habs] at hbits

/-- In single precision, 10 ^ 22 is shown without further digits. -/
theorem Datum.display_significant_iff_power :
    let x := binary32.decode 0x64078678
    (Slot.mk 0 0 0x64078678).real = .ok x ∧ x.value? = some 9999999778196308361216 ∧ SignificantAtMost 7 x.display.toList := by
  intro x
  have hvalue : x.value? = some 9999999778196308361216 := by decide +kernel
  have hround : RoundsToDigits 7 9999999778196308361216 (10 ^ 22) := by
    refine ⟨15, by norm_num, by norm_num, 10 ^ 7, by norm_num, by norm_num [abs_of_neg], ?_⟩
    intro _
    decide
  have hbits : HasBits 53 |(10 : ℚ) ^ 22| := by
    refine ⟨5 ^ 22, 22, by decide, ?_⟩
    rw [abs_of_pos (by positivity)]
    norm_num
  exact ⟨rfl, hvalue, (Datum.display_significant_iff hvalue).1.mpr (.inr ⟨10 ^ 22, hround, hbits⟩)⟩

/-- In single precision, 10 ^ 23 is shown with the digits of the double nearest to it. -/
theorem Datum.display_noise :
    let x := binary32.decode 0x65A96816
    (Slot.mk 0 0 0x65A96816).real = .ok x ∧ x.value? = some 99999997781963083612160 ∧
      x.display = "99999999999999991611392.00" ∧ ¬ SignificantAtMost 7 x.display.toList := by
  intro x
  have hvalue : x.value? = some 99999997781963083612160 := by decide +kernel
  have htext : x.display = "99999999999999991611392.00" := by decide +kernel
  refine ⟨rfl, hvalue, htext, ?_⟩
  rw [htext]
  simp [SignificantAtMost, leadingDigits]

end FlowListing.Number
