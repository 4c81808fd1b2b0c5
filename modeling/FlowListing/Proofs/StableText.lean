import Mathlib
import FlowListing.Proofs.BinaryFormat
import FlowListing.Proofs.SignificantDigits

/-!
# Reading a shown number back

The text of a number is canonical, and a double nearest to what it denotes is shown by the same text (`display_stable`). Up to 10 ^ 19
the text denotes a decimal of seven digits, and every double as near to it as the nearest one rounds to that decimal again
(`toSignificant_of_near`). Above, the text denotes the double in the middle, which is its own nearest one. Nothing overflows on the way:
each step keeps the order, and the largest double does not (`middle_lt`, `back_lt`).
-/

namespace FlowListing.Number

/-! ## The largest double -/

/-- A count of places in decimal units. -/
def unitsOfPlaces (count : ℕ) : ℕ :=
  count * 10 ^ (decimalScale - mostPlaces)

/-- Decimal units are at least as fine as the places of the text. -/
theorem mostPlaces_le_decimalScale : mostPlaces ≤ decimalScale := by
  decide

/-- The largest double overflows neither in the middle nor when its text is read back. -/
theorem largest_lt :
    ofDecimalUnits (toSignificant binary64.largestSteps) < 2 ^ (binary64.precision + 2045) ∧
      ofDecimalUnits (unitsOfPlaces (shownPlaces binary64.largestSteps)) < 2 ^ (binary64.precision + 2045) := by
  decide +kernel

attribute [local irreducible] quantumScale quantaPerUnit decimalScale

section Range

variable {quanta : ℕ}

/-- A finite double is at most the largest. -/
theorem le_largestSteps {bits : ℕ} {negative : Bool} (h : binary64.decode bits = .finite negative quanta) :
    quanta ≤ binary64.largestSteps := by
  obtain ⟨-, hlt, hquanta⟩ := Format.eq_of_decode_eq_finite h
  rw [hquanta, stepQuanta_binary64, mul_one]
  exact Format.stepsOfBits_le (by decide) hlt

/-- The double in the middle does not overflow. -/
theorem middle_lt (h : quanta ≤ binary64.largestSteps) : ofDecimalUnits (toSignificant quanta) < 2 ^ (binary64.precision + 2045) :=
  (ofDecimalUnits_mono (toSignificant_mono h)).trans_lt largest_lt.1

/-- The text does not overflow when it is read back. -/
theorem back_lt (h : quanta ≤ binary64.largestSteps) :
    ofDecimalUnits (unitsOfPlaces (shownPlaces quanta)) < 2 ^ (binary64.precision + 2045) := by
  refine lt_of_le_of_lt (ofDecimalUnits_mono ?_) largest_lt.2
  exact Nat.mul_le_mul_right _ (shownPlaces_mono h)

/-- The rounded number is a double, with either sign. -/
theorem exists_decode_ofDecimalUnits {units : ℕ} (h : ofDecimalUnits units < 2 ^ (binary64.precision + 2045)) (negative : Bool) :
    ∃ bits < 2 * binary64.signBit, binary64.decode bits = .finite negative (ofDecimalUnits units) := by
  obtain ⟨m, e, hm, -, hvalue⟩ := exists_roundTo_eq (by decide : 1 < 2) (by decide : 0 < binary64.precision) (units * quantaPerUnit)
    (Nat.pow_pos (by decide) : 0 < 10 ^ decimalScale)
  rw [lastPlace_eq, ← pow_add] at hvalue
  generalize numeralLength 2 _ - binary64.precision + e = exponent at hvalue
  have hshort : ofDecimalUnits units = m * 2 ^ exponent := hvalue
  rw [hshort] at h ⊢
  obtain ⟨bits, hbits, hdecode⟩ := Format.exists_decode_of_short (by decide) negative hm (by decide : 2045 + 3 ≤ 2 ^ 11) h
  rw [stepQuanta_binary64, mul_one] at hdecode
  exact ⟨bits, hbits, hdecode⟩

end Range

/-! ## Back to seven digits -/

/-- No two counts of decimal units are the same number. -/
theorem ofUnits_injective {a b : ℕ} (h : ofUnits a = ofUnits b) : a = b := by
  rw [ofUnits, ofUnits, div_left_inj' (by positivity)] at h
  exact_mod_cast h

/-- A count of places is the same number in decimal units. -/
theorem ofUnits_unitsOfPlaces (count : ℕ) : ofUnits (unitsOfPlaces count) = ofPlaceCount count := by
  have hscale : (10 : ℚ) ^ decimalScale = 10 ^ (decimalScale - mostPlaces) * 10 ^ mostPlaces := by
    rw [← pow_add, Nat.sub_add_cancel mostPlaces_le_decimalScale]
  rw [ofUnits, unitsOfPlaces, ofPlaceCount, hscale]
  push_cast
  rw [mul_comm, mul_div_mul_left _ _ (by positivity)]

/-- A decimal of seven digits is what any number rounds to that is off by less than half of the digit behind them. -/
theorem roundsToDigits_of_near {x : ℚ} {n : ℕ} {k : ℤ} (hlow : 10 ^ 6 ≤ n) (hhigh : n < 10 ^ 7)
    (hnear : |x - n * 10 ^ k| < 10 ^ (k - 1) / 2) : RoundsToDigits 7 x (n * 10 ^ k) := by
  have hpos : (0 : ℚ) < 10 ^ (k - 1) := by positivity
  have hunit : (10 : ℚ) ^ k = 10 * 10 ^ (k - 1) := by
    rw [← zpow_one_add₀ (by norm_num), add_sub_cancel]
  have hpower : ∀ (exponent : ℤ) (digits : ℕ), exponent = k - 1 + digits → (10 : ℚ) ^ exponent = 10 ^ digits * 10 ^ (k - 1) := by
    intro exponent digits hexponent
    rw [hexponent, zpow_add_natCast]
    push_cast
    rfl
  have hlow' : (10 : ℚ) ^ 6 * 10 ^ (k - 1) ≤ n * 10 ^ (k - 1) := mul_le_mul_of_nonneg_right (by exact_mod_cast hlow) hpos.le
  have hhigh' : ((n : ℚ) + 1) * 10 ^ (k - 1) ≤ 10 ^ 7 * 10 ^ (k - 1) := mul_le_mul_of_nonneg_right (by exact_mod_cast hhigh) hpos.le
  have hbounds := abs_lt.mp hnear
  rw [hunit] at hbounds
  have hx : 0 ≤ x := by linarith
  rcases lt_or_ge x (10 ^ (k + 6)) with hbelow | habove
  · -- only the first decimal of a decade is near to a number below it, whose last digit is worth a tenth
    refine ⟨k - 1, ?_, ?_, ?_⟩
    · rw [abs_of_nonneg hx, hpower _ 6 (by omega)]
      linarith
    · rw [abs_of_nonneg hx, show k - 1 + (7 : ℕ) = k + 6 by omega]
      exact hbelow
    · have hmultiple : (n : ℚ) * 10 ^ k = (10 * n : ℤ) * 10 ^ (k - 1) := by
        rw [hunit]
        push_cast
        ring
      rw [hmultiple] at hnear ⊢
      exact RoundsTo.of_abs_sub_lt hnear
  · refine ⟨k, ?_, ?_, ?_⟩
    · rw [abs_of_nonneg hx, show k + (7 : ℕ) - 1 = k + 6 by omega]
      exact habove
    · rw [abs_of_nonneg hx, hpower _ 8 (by omega)]
      linarith
    · refine RoundsTo.of_abs_sub_lt (n := n) ?_
      rw [Int.cast_natCast]
      refine hnear.trans ?_
      rw [hunit]
      linarith

/-- A short decimal can be written with seven digits, of which the first is not zero. -/
theorem exists_seven_digits {n : ℕ} (k : ℤ) (hpos : 0 < n) (hn : n ≤ 10 ^ 7) :
    ∃ (m : ℕ) (j : ℤ), (n : ℚ) * 10 ^ k = m * 10 ^ j ∧ 10 ^ 6 ≤ m ∧ m < 10 ^ 7 ∧ k - 6 ≤ j := by
  rcases Nat.lt_or_eq_of_le hn with hlt | rfl
  · have hlength : Nat.log 10 n ≤ 6 := Nat.lt_succ_iff.mp (Nat.log_lt_of_lt_pow hpos.ne' hlt)
    obtain ⟨zeros, hzeros⟩ := Nat.exists_eq_add_of_le hlength
    have hfirst : 10 ^ Nat.log 10 n ≤ n := Nat.pow_log_le_self 10 hpos.ne'
    have hnext : n < 10 ^ (Nat.log 10 n + 1) := Nat.lt_pow_succ_log_self (by decide) n
    refine ⟨n * 10 ^ zeros, k - zeros, ?_, ?_, ?_, by omega⟩
    · have hpower : (10 : ℚ) ^ k = 10 ^ zeros * 10 ^ (k - zeros) := by
        rw [← zpow_natCast, ← zpow_add₀ (by norm_num), add_sub_cancel]
      rw [hpower]
      push_cast
      ring
    · calc 10 ^ 6 = 10 ^ Nat.log 10 n * 10 ^ zeros := by rw [← pow_add, ← hzeros]
        _ ≤ n * 10 ^ zeros := Nat.mul_le_mul_right _ hfirst
    · calc n * 10 ^ zeros < 10 ^ (Nat.log 10 n + 1) * 10 ^ zeros := Nat.mul_lt_mul_of_pos_right hnext (Nat.pow_pos (by decide))
        _ = 10 ^ 7 := by rw [← pow_add, add_right_comm, ← hzeros]
  · refine ⟨10 ^ 6, k + 1, ?_, le_rfl, by decide, by omega⟩
    rw [zpow_add_one₀ (by norm_num)]
    push_cast
    ring

section Back

variable {quanta back units n : ℕ} {k : ℤ}

/-- A number as near to a decimal of seven digits as the nearest double is rounds to it. -/
theorem toSignificant_of_near (hunits : ofUnits units = n * 10 ^ k) (hpos : 0 < n) (hn : n ≤ 10 ^ 7) (hk : -7 ≤ k)
    (hnear : |ofQuanta back - ofUnits units| ≤ max (ofUnits units) 1 / 2 ^ 53) : toSignificant back = units := by
  obtain ⟨m, j, hdigits, hlow, hhigh, hj⟩ := exists_seven_digits k hpos hn
  rw [hdigits] at hunits
  have hunit : (0 : ℚ) < 10 ^ (j - 1) := by positivity
  have hten : (10 : ℚ) ^ j = 10 * 10 ^ (j - 1) := by
    rw [← zpow_one_add₀ (by norm_num), add_sub_cancel]
  have hlow' : (10 : ℚ) ^ 6 * 10 ^ (j - 1) ≤ m * 10 ^ (j - 1) := mul_le_mul_of_nonneg_right (by exact_mod_cast hlow) hunit.le
  have hhigh' : (m : ℚ) * 10 ^ (j - 1) ≤ 10 ^ 7 * 10 ^ (j - 1) := mul_le_mul_of_nonneg_right (by exact_mod_cast hhigh.le) hunit.le
  have hone : (1 : ℚ) ≤ 10 ^ 14 * 10 ^ (j - 1) := by
    have hpower := one_le_zpow₀ (by norm_num : (1 : ℚ) ≤ 10) (by omega : 0 ≤ j - 1 + (14 : ℕ))
    rw [zpow_add_natCast] at hpower
    exact_mod_cast hpower
  have hclose : |ofQuanta back - m * 10 ^ j| < 10 ^ (j - 1) / 2 := by
    have hmax : max (ofUnits units) 1 ≤ 10 ^ 14 * 10 ^ (j - 1) := by
      refine max_le ?_ hone
      rw [hunits, hten]
      linarith
    rw [← hunits]
    refine hnear.trans_lt ((div_le_div_of_nonneg_right hmax (by positivity)).trans_lt ?_)
    rw [div_lt_div_iff₀ (by positivity) two_pos]
    linarith
  have hback : 0 < back := by
    rcases Nat.eq_zero_or_pos back with rfl | hback
    · rw [ofQuanta_zero, zero_sub, abs_neg, abs_of_nonneg (by positivity), hten] at hclose
      linarith
    · exact hback
  have hrounded := (roundsToDigits_toSignificant hback).unique (roundsToDigits_of_near hlow hhigh hclose)
  exact ofUnits_injective (hrounded.trans hunits.symm)

/-- From 10 ^ 19 on, what is shown is the double in the middle. -/
theorem ofPlaceCount_shownPlaces_of_large (h : 10 ^ 19 ≤ ofQuanta quanta) :
    HasBits 53 (ofPlaceCount (shownPlaces quanta)) ∧
      ofPlaceCount (shownPlaces quanta) = ofQuanta (ofDecimalUnits (toSignificant quanta)) := by
  have hlarge : (2 : ℚ) ^ 53 ≤ ofUnits (toSignificant quanta) := by
    obtain ⟨k, n, -, hhigh, -, hn, hdigits, -⟩ := exists_digits (pos_of_one_le (le_trans (by norm_num) h))
    have hk : 19 < k + 7 := exponent_lt (by exact_mod_cast h) hhigh
    have hdigits' : (10 : ℚ) ^ 6 ≤ n := by exact_mod_cast hdigits
    have hpower : (10 : ℚ) ^ (13 : ℤ) ≤ 10 ^ k := zpow_le_zpow_right₀ (by norm_num) (by omega)
    rw [hn]
    refine le_trans ?_ (mul_le_mul hdigits' hpower (by positivity) (by positivity))
    norm_num
  have hbits := hasBits_ofDecimalUnits hlarge
  have hshown : ofPlaceCount (shownPlaces quanta) = ofQuanta (ofDecimalUnits (toSignificant quanta)) := by
    obtain ⟨m, e, -, hwhole⟩ := hbits
    have hmultiple : ofQuanta (ofDecimalUnits (toSignificant quanta)) = (m * 2 ^ e * 10 ^ 7 : ℤ) * (1 / 10 ^ 7) := by
      rw [hwhole]
      push_cast
      ring
    have hround := roundsTo_shownPlaces quanta
    rw [hmultiple] at hround ⊢
    exact hround.unique (by positivity) (RoundsTo.of_multiple (by positivity) _)
  rw [hshown]
  exact ⟨hbits, rfl⟩

/-- Below 10 ^ 19, the double nearest to what is shown has the same places. -/
theorem toPlaces_back (h : ofQuanta quanta < 10 ^ 19) :
    toPlaces (ofDecimalUnits (unitsOfPlaces (shownPlaces quanta))) = shownPlaces quanta := by
  have hunits := ofUnits_unitsOfPlaces (shownPlaces quanta)
  rcases lt_or_ge (ofQuanta quanta) 1 with hlt | hone
  · refine toPlaces_eq_of_abs_sub_lt ?_
    have herror := abs_ofUnits_sub_le (unitsOfPlaces (shownPlaces quanta))
    have hshown := (abs_le.mp (abs_ofPlaceCount_sub_le hlt)).2
    have hmax : max (ofPlaceCount (shownPlaces quanta)) 1 ≤ 2 := by
      refine max_le ?_ (by norm_num)
      linarith
    rw [hunits, abs_sub_comm] at herror
    refine herror.trans_lt ((div_le_div_of_nonneg_right hmax (by positivity)).trans_lt ?_)
    norm_num
  · rw [ofUnits_injective (hunits.trans (ofPlaceCount_shownPlaces hone h))]
    rfl

/-- A number as near to a whole one with 53 bits as the nearest double is that number. -/
theorem ofQuanta_eq_of_hasBits {count : ℕ} (hbits : HasBits 53 (ofPlaceCount count))
    (hnear : |ofQuanta back - ofPlaceCount count| ≤ |ofQuanta (ofDecimalUnits (unitsOfPlaces count)) - ofPlaceCount count|) :
    ofQuanta back = ofPlaceCount count := by
  rw [← ofUnits_unitsOfPlaces] at hbits hnear ⊢
  rw [ofQuanta_ofDecimalUnits_of_hasBits hbits, sub_self, abs_zero, abs_nonpos_iff] at hnear
  exact sub_eq_zero.mp hnear

/-- A number as near to what is shown of another as the nearest double is shown alike. -/
theorem shownPlaces_of_nearest
    (hnear : |ofQuanta back - ofPlaceCount (shownPlaces quanta)| ≤
      |ofQuanta (ofDecimalUnits (unitsOfPlaces (shownPlaces quanta))) - ofPlaceCount (shownPlaces quanta)|) :
    shownPlaces back = shownPlaces quanta := by
  rcases lt_or_ge (ofQuanta quanta) (10 ^ 19) with hlt | hlarge
  · obtain ⟨n, j, hn, hshort⟩ := isShort_shownPlaces_of_lt hlt
    have hvalue : ofPlaceCount (shownPlaces quanta) = n * 10 ^ ((j : ℤ) - 7) := by
      rw [hshort, ofPlaceCount, zpow_sub₀ (by norm_num), zpow_natCast, ← mul_div_assoc]
      push_cast
      rfl
    rcases Nat.eq_zero_or_pos n with rfl | hpos
    · -- a zero is its own nearest double
      have hzero : shownPlaces quanta = 0 := by rw [hshort, zero_mul]
      rw [hzero] at hnear ⊢
      have hback : ofQuanta back = ofQuanta 0 := by
        rw [ofQuanta_eq_of_hasBits ⟨0, 0, by decide, by simp [ofPlaceCount]⟩ hnear]
        simp [ofPlaceCount, ofQuanta]
      rw [Nat.le_zero.mp (ofQuanta_le_iff.mp hback.le), shownPlaces_zero]
    · have herror := abs_ofUnits_sub_le (unitsOfPlaces (shownPlaces quanta))
      rw [abs_sub_comm, ofUnits_unitsOfPlaces] at herror
      have hback : toSignificant back = unitsOfPlaces (shownPlaces quanta) := by
        refine toSignificant_of_near (n := n) (k := j - 7) ?_ hpos hn.le (by omega) ?_
        · rw [ofUnits_unitsOfPlaces, hvalue]
        · rw [ofUnits_unitsOfPlaces]
          exact hnear.trans herror
      rw [shownPlaces, hback, toPlaces_back hlt]
  · obtain ⟨hbits, hshown⟩ := ofPlaceCount_shownPlaces_of_large hlarge
    obtain ⟨k, n, -, hhigh, -, hn, hdigits, hdigits'⟩ := exists_digits (pos_of_one_le (le_trans (by norm_num) hlarge))
    have hk : 19 < k + 7 := exponent_lt (by exact_mod_cast hlarge) hhigh
    have hback : toSignificant back = toSignificant quanta := by
      refine toSignificant_of_near hn (by omega) hdigits' (by omega) ?_
      rw [ofQuanta_eq_of_hasBits hbits hnear, hshown, abs_sub_comm]
      exact abs_ofUnits_sub_le _
    rw [shownPlaces, hback]
    rfl

end Back

/-! ## Reading -/

/-- The pattern is what a text is read as: that of a number nearest to what the text denotes, with the sign of the text also where this
is zero. -/
def Format.IsReading (f : Format) (t : Decimal) (bits : ℕ) : Prop :=
  f.IsNearest t.value bits ∧ ∃ quanta, f.decode bits = .finite t.negative quanta

section Reading

variable {quanta : ℕ} {negative : Bool}

/-- Rounding the units of the text gives a nearest double. -/
theorem exists_isReading (h : quanta ≤ binary64.largestSteps) (negative : Bool) :
    ∃ back, binary64.IsReading (Decimal.ofPlaces negative (shownPlaces quanta)) back := by
  obtain ⟨back, -, hdecode⟩ := exists_decode_ofDecimalUnits (back_lt h) negative
  refine ⟨back, ?_, _, hdecode⟩
  have hpower : (quantaPerUnit : ℚ) = 2 ^ binary64.scale := by
    rw [scale_binary64, quantaPerUnit_eq]
    push_cast
    rfl
  have hvalue : (binary64.decode back).value? = some (signed negative
      (roundTo 2 binary64.precision (unitsOfPlaces (shownPlaces quanta) * quantaPerUnit) (10 ^ decimalScale) / 2 ^ binary64.scale)) := by
    rw [hdecode, Datum.value?, ofQuanta, hpower]
    rfl
  have hnearest := Format.isNearest_of_roundTo (by decide) scale_binary64.le (Nat.pow_pos (by decide)) hvalue
  rw [quotient_ofDecimalUnits, ofUnits_unitsOfPlaces, hpower, mul_div_cancel_right₀ _ (by positivity)] at hnearest
  rw [Decimal.value_ofPlaces]
  exact hnearest

/-- Every reading of the text is shown alike. -/
theorem shownPlaces_of_isReading {back : ℕ} (h : quanta ≤ binary64.largestSteps)
    (hread : binary64.IsReading (Decimal.ofPlaces negative (shownPlaces quanta)) back) :
    ∃ quanta', binary64.decode back = .finite negative quanta' ∧ shownPlaces quanta' = shownPlaces quanta := by
  obtain ⟨⟨v, hv, hnearest⟩, quanta', hdecode⟩ := hread
  refine ⟨quanta', hdecode, shownPlaces_of_nearest ?_⟩
  rw [hdecode] at hv
  obtain rfl := Option.some.inj hv
  obtain ⟨bits, hbits, hdouble⟩ := exists_decode_ofDecimalUnits (back_lt h) negative
  have hle := hnearest _ ⟨bits, hbits, by rw [hdouble]; rfl⟩
  rw [Decimal.value_ofPlaces] at hle
  change |signed negative _ - signed negative _| ≤ _ at hle
  rw [signed_sub, abs_signed, signed_sub, abs_signed] at hle
  exact hle

/-- A decimal of a count has at most the places of the text. -/
theorem places_length_ofPlaces (negative : Bool) (count : ℕ) : (Decimal.ofPlaces negative count).places.length ≤ mostPlaces := by
  obtain ⟨zeros, hlength, -⟩ := Decimal.exists_zeros_ofPlaces negative count
  omega

end Reading

/-- A finite double is shown by a canonical text with the sign of the double and at most seven places; the double in the middle stays in
range. The text can be read back, and whatever nearest double it is read as, that double is shown by the same text. -/
theorem Datum.display_stable {bits quanta : ℕ} {negative : Bool} (hfinite : binary64.decode bits = .finite negative quanta) :
    (∃ middle, binary64.decode middle = .finite negative (ofDecimalUnits (toSignificant quanta))) ∧
      ∃ t : Decimal, (binary64.decode bits).display.toList = t.text ∧ t.negative = bits.testBit 63 ∧ t.places.length ≤ 7 ∧
        (∃ back, binary64.IsReading t back) ∧
        ∀ back, binary64.IsReading t back → (binary64.decode back).display = (binary64.decode bits).display := by
  have hrange := le_largestSteps hfinite
  obtain ⟨middle, -, hmiddle⟩ := exists_decode_ofDecimalUnits (middle_lt hrange) negative
  refine ⟨⟨middle, hmiddle⟩, Decimal.ofPlaces negative (shownPlaces quanta), ?_, ?_, places_length_ofPlaces _ _,
    exists_isReading hrange negative, ?_⟩
  · rw [hfinite, toList_display]
  · obtain ⟨hsign, -, -⟩ := Format.eq_of_decode_eq_finite hfinite
    rw [Nat.testBit_eq_decide_div_mod_eq]
    exact hsign
  · intro back hread
    obtain ⟨quanta', hdecode, hshown⟩ := shownPlaces_of_isReading hrange hread
    rw [hfinite, hdecode, Datum.display, Datum.display, hshown]

/-- The smallest negative double keeps its sign when it is read back as a zero. A double near 10 ^ 23 is shown with more digits than
seven, and these come back too. -/
theorem Datum.display_stable_noise :
    (binary64.decode 0x8000000000000001 = .finite true 1 ∧
      ∃ t : Decimal, t.text = "-0.00".toList ∧ ∃ back, binary64.IsReading t back ∧ (binary64.decode back).display = "-0.00") ∧
    binary64.decode 0x44B52D02C0000000 = .finite false (99999997781963083612160 * 2 ^ 1074) ∧
      ∃ t : Decimal, t.text = "99999999999999991611392.00".toList ∧
        ∃ back, binary64.IsReading t back ∧ (binary64.decode back).display = "99999999999999991611392.00" := by
  have hsmall : binary64.decode 0x8000000000000001 = .finite true 1 := by decide +kernel
  have hlarge : binary64.decode 0x44B52D02C0000000 = .finite false (99999997781963083612160 * 2 ^ 1074) := by decide +kernel
  have hsmallText : (binary64.decode 0x8000000000000001).display = "-0.00" := by decide +kernel
  have hlargeText : (binary64.decode 0x44B52D02C0000000).display = "99999999999999991611392.00" := by decide +kernel
  obtain ⟨-, t, htext, -, -, ⟨back, hread⟩, hsame⟩ := Datum.display_stable hsmall
  obtain ⟨-, t', htext', -, -, ⟨back', hread'⟩, hsame'⟩ := Datum.display_stable hlarge
  refine ⟨⟨hsmall, t, ?_, back, hread, (hsame back hread).trans hsmallText⟩, hlarge, t', ?_, back', hread',
    (hsame' back' hread').trans hlargeText⟩
  · rw [← htext, hsmallText]
  · rw [← htext', hlargeText]

end FlowListing.Number
