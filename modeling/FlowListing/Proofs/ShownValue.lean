import Mathlib
import FlowListing.Proofs.Grid
import FlowListing.Proofs.DecimalText

/-!
# What a listing shows of a number

A number is rounded three times before it is shown: to seven significant decimal digits, to the nearest double, and to seven places. Each
step is a rounding to a grid (`RoundsTo`). The double in the middle is so near that it only matters above the numbers that a double
holds exactly; hence a number from one to 10 ^ 15 is shown as rounded to seven digits, and a smaller one is off by two half units of
the last place at most (`display_accurate`). Each step keeps the order, so that the listing does (`display_mono`).
-/

namespace FlowListing.Number

-- the scales stay symbols: no proof needs the numerals that they make
attribute [local irreducible] quantumScale decimalScale

theorem quantaPerUnit_eq : quantaPerUnit = 2 ^ quantumScale := rfl

/-- There are quanta in a unit. -/
theorem quantaPerUnit_pos : 0 < quantaPerUnit :=
  Nat.pow_pos (by decide)

/-- One quantum has seven digits in decimal units. -/
theorem pow_mul_quantaPerUnit_le : 10 ^ 6 * quantaPerUnit ≤ 10 ^ decimalScale := by
  have hquantum : quantumScale = 179 * 6 := by
    unfold quantumScale
    rfl
  have hdecimal : decimalScale = 6 + 54 * 6 := by
    unfold decimalScale
    rfl
  rw [quantaPerUnit_eq, hquantum, hdecimal, pow_add, pow_mul, pow_mul]
  exact Nat.mul_le_mul_left _ (Nat.pow_le_pow_left (by decide : 2 ^ 179 ≤ 10 ^ 54) 6)

/-- The smallest double is far below the last bit of one. -/
theorem two_pow_le_quantaPerUnit : 2 ^ 52 ≤ quantaPerUnit := by
  have hscale : 52 ≤ quantumScale := by
    unfold quantumScale
    decide
  exact Nat.pow_le_pow_right (by decide) hscale

attribute [local irreducible] quantaPerUnit

/-! ## Numbers -/

/-- The number that so many quanta are. -/
def ofQuanta (quanta : ℕ) : ℚ :=
  quanta / quantaPerUnit

/-- The number that so many decimal units are. -/
def ofUnits (units : ℕ) : ℚ :=
  units / 10 ^ decimalScale

/-- The number that so many units of the last place are. -/
def ofPlaceCount (count : ℕ) : ℚ :=
  count / 10 ^ mostPlaces

/-- The exact value of a finite number. -/
def Datum.value? : Datum → Option ℚ
  | .finite negative quanta => some (signed negative (ofQuanta quanta))
  | _ => none

/-- There are quanta in a unit, counted in rational numbers. -/
theorem cast_quantaPerUnit_pos : (0 : ℚ) < quantaPerUnit := by
  exact_mod_cast quantaPerUnit_pos

theorem ofQuanta_zero : ofQuanta 0 = 0 := by
  simp [ofQuanta]

/-- A count of quanta is not negative. -/
theorem ofQuanta_nonneg (quanta : ℕ) : 0 ≤ ofQuanta quanta :=
  div_nonneg (Nat.cast_nonneg _) cast_quantaPerUnit_pos.le

/-- A number from one on has quanta. -/
theorem pos_of_one_le {quanta : ℕ} (h : 1 ≤ ofQuanta quanta) : 0 < quanta := by
  rcases Nat.eq_zero_or_pos quanta with rfl | hpos
  · norm_num [ofQuanta] at h
  · exact hpos

/-- Counts of quanta have the order of the numbers. -/
theorem ofQuanta_le_iff {a b : ℕ} : ofQuanta a ≤ ofQuanta b ↔ a ≤ b := by
  rw [ofQuanta, ofQuanta, div_le_div_iff_of_pos_right cast_quantaPerUnit_pos, Nat.cast_le]

/-- A count of decimal units is not negative. -/
theorem ofUnits_nonneg (units : ℕ) : 0 ≤ ofUnits units := by
  unfold ofUnits
  positivity

/-- A count of places is not negative. -/
theorem ofPlaceCount_nonneg (count : ℕ) : 0 ≤ ofPlaceCount count := by
  unfold ofPlaceCount
  positivity

/-- Counts of places have the order of the numbers. -/
theorem ofPlaceCount_le_iff {a b : ℕ} : ofPlaceCount a ≤ ofPlaceCount b ↔ a ≤ b := by
  rw [ofPlaceCount, ofPlaceCount, div_le_div_iff_of_pos_right (by positivity), Nat.cast_le]

/-- No two counts of places are the same number. -/
theorem ofPlaceCount_injective {a b : ℕ} (h : ofPlaceCount a = ofPlaceCount b) : a = b :=
  le_antisymm (ofPlaceCount_le_iff.mp h.le) (ofPlaceCount_le_iff.mp h.ge)

/-- The places are a grid. -/
theorem ofPlaceCount_eq_mul (count : ℕ) : ofPlaceCount count = (count : ℤ) * (1 / 10 ^ 7) := by
  rw [ofPlaceCount, Int.cast_natCast, mul_one_div]
  rfl

/-- Counts of places that are less than a unit apart are the same. -/
theorem eq_of_abs_ofPlaceCount_sub_lt {a b : ℕ} (h : |ofPlaceCount a - ofPlaceCount b| < 1 / 10 ^ 7) : a = b := by
  rw [ofPlaceCount_eq_mul, ofPlaceCount_eq_mul] at h
  have hvalue := RoundsTo.multiples_eq h
  rw [← ofPlaceCount_eq_mul, ← ofPlaceCount_eq_mul] at hvalue
  exact ofPlaceCount_injective hvalue

/-- What has a value is finite. -/
theorem Datum.exists_of_value? {x : Datum} {v : ℚ} (h : x.value? = some v) :
    ∃ negative quanta, x = .finite negative quanta ∧ v = signed negative (ofQuanta quanta) := by
  cases x with
  | nan => cases h
  | infinite negative => cases h
  | finite negative quanta => exact ⟨negative, quanta, rfl, (Option.some.inj h).symm⟩

/-- A finite number is shown as the canonical text of its places. -/
theorem toList_display (negative : Bool) (quanta : ℕ) :
    (Datum.finite negative quanta).display.toList = (Decimal.ofPlaces negative (shownPlaces quanta)).text := by
  rw [Datum.display, String.toList_ofList, Decimal.text_ofPlaces]

/-- The text denotes the places. -/
theorem ofText?_display (negative : Bool) (quanta : ℕ) :
    ofText? (Datum.finite negative quanta).display.toList = some (signed negative (ofPlaceCount (shownPlaces quanta))) := by
  rw [toList_display, Decimal.ofText?_text, Decimal.value_ofPlaces]
  rfl

/-! ## To seven significant digits -/

/-- The value is `x` rounded to so many significant decimal digits, a half going to the even last digit. -/
def RoundsToDigits (digits : ℕ) (x value : ℚ) : Prop :=
  ∃ k : ℤ, (10 : ℚ) ^ (k + digits - 1) ≤ |x| ∧ |x| < (10 : ℚ) ^ (k + digits) ∧ RoundsTo (10 ^ k) x value

/-- Rounding to digits does not depend on the sign. -/
theorem RoundsToDigits.signed {digits : ℕ} {x v : ℚ} (h : RoundsToDigits digits x v) (negative : Bool) :
    RoundsToDigits digits (signed negative x) (signed negative v) := by
  obtain ⟨k, hlow, hhigh, hround⟩ := h
  refine ⟨k, by rwa [abs_signed], by rwa [abs_signed], ?_⟩
  cases negative
  · exact hround
  · exact hround.neg

theorem toSignificant_zero : toSignificant 0 = 0 := by
  simp [toSignificant, roundTo, roundDiv]

/-- The quotient that is rounded to significant digits is the number in decimal units. -/
theorem quotient_toSignificant (quanta : ℕ) :
    ((quanta * 10 ^ decimalScale : ℕ) : ℚ) / quantaPerUnit = ofQuanta quanta * 10 ^ decimalScale := by
  rw [ofQuanta, div_mul_eq_mul_div]
  push_cast
  rfl

/-- Numbers are rounded to their significant digits. The last place, in decimal units, is a power of ten. -/
theorem roundsToDigits_toSignificant {quanta : ℕ} (h : 0 < quanta) :
    RoundsToDigits significantDigits (ofQuanta quanta) (ofUnits (toSignificant quanta)) := by
  have hscale : (0 : ℚ) < 10 ^ decimalScale := by positivity
  have hfull : 10 ^ 6 ≤ quanta * 10 ^ decimalScale / quantaPerUnit := by
    rw [Nat.le_div_iff_mul_le quantaPerUnit_pos]
    exact pow_mul_quantaPerUnit_le.trans (Nat.le_mul_of_pos_left _ h)
  have hround := roundsTo_roundTo (by decide : 1 < 10) significantDigits (quanta * 10 ^ decimalScale) quantaPerUnit_pos
  have hlow := pow_mul_lastPlace_le (by decide : 1 < 10) hfull (by decide : 0 < significantDigits)
  have hhigh := lt_pow_mul_lastPlace (by decide : 1 < 10) significantDigits (quanta * 10 ^ decimalScale / quantaPerUnit)
  have hfloor := floor_le_div (quanta * 10 ^ decimalScale) quantaPerUnit
  have hceil := div_lt_floor_add_one (quanta * 10 ^ decimalScale) quantaPerUnit_pos
  have hunit := lastPlace_eq 10 significantDigits (quanta * 10 ^ decimalScale / quantaPerUnit)
  generalize numeralLength 10 (quanta * 10 ^ decimalScale / quantaPerUnit) - significantDigits = place at hunit
  rw [hunit] at hround hlow hhigh
  rw [quotient_toSignificant] at hround hfloor hceil
  generalize quanta * 10 ^ decimalScale / quantaPerUnit = floor at *
  obtain ⟨k, hk⟩ : ∃ k : ℤ, k = place - decimalScale := ⟨_, rfl⟩
  have hpower : ∀ digits : ℤ, (10 : ℚ) ^ (k + digits) = 10 ^ digits * 10 ^ place / 10 ^ decimalScale := by
    intro digits
    rw [hk, add_comm, zpow_add₀ (by norm_num), zpow_sub₀ (by norm_num), zpow_natCast, zpow_natCast, mul_div_assoc]
  refine ⟨k, ?_, ?_, ?_⟩
  · have hcast : (10 : ℚ) ^ 6 * 10 ^ place ≤ floor := by exact_mod_cast hlow
    have hsix : (significantDigits : ℤ) - 1 = (6 : ℕ) := rfl
    rw [add_sub_assoc, hsix, hpower, zpow_natCast, abs_of_nonneg (ofQuanta_nonneg quanta), div_le_iff₀ hscale]
    exact hcast.trans hfloor
  · rw [hpower, abs_of_nonneg (ofQuanta_nonneg quanta), lt_div_iff₀ hscale]
    refine hceil.trans_le ?_
    exact_mod_cast hhigh
  · have hscaled := hround.scale (inv_pos.mpr hscale)
    have hone := hpower 0
    rw [add_zero, zpow_zero, one_mul] at hone
    rw [mul_inv_cancel_right₀ hscale.ne'] at hscaled
    rw [hone, ofUnits, div_eq_mul_inv, div_eq_mul_inv]
    exact_mod_cast hscaled

/-! ## To the nearest double -/

/-- The quotient that is rounded to a double is the number in quanta. -/
theorem quotient_ofDecimalUnits (units : ℕ) :
    ((units * quantaPerUnit : ℕ) : ℚ) / (10 ^ decimalScale : ℕ) = ofUnits units * quantaPerUnit := by
  rw [ofUnits, div_mul_eq_mul_div]
  push_cast
  rfl

/-- The nearest double is off by a share of 2 ^ 53 at most, or by as little as it would be off from one. -/
theorem abs_ofUnits_sub_le (units : ℕ) : |ofUnits units - ofQuanta (ofDecimalUnits units)| ≤ max (ofUnits units) 1 / 2 ^ 53 := by
  have hpos := cast_quantaPerUnit_pos
  have hlarge : (2 : ℚ) ^ 52 ≤ quantaPerUnit := by exact_mod_cast two_pow_le_quantaPerUnit
  have herror := abs_sub_roundTo_le_max (by decide : 1 < 2) (by decide : 0 < binary64.precision) (units * quantaPerUnit)
    (Nat.pow_pos (by decide) : 0 < 10 ^ decimalScale)
  have hexponent : binary64.precision - 1 = 52 := rfl
  rw [quotient_ofDecimalUnits, hexponent] at herror
  have hdistance : |ofUnits units - ofQuanta (ofDecimalUnits units)| * quantaPerUnit =
      |ofUnits units * quantaPerUnit - ofDecimalUnits units| := by
    rw [ofQuanta, ← abs_of_pos hpos, ← abs_mul, sub_mul, abs_of_pos hpos, div_mul_cancel₀ _ hpos.ne']
  have hone : 1 ≤ max (ofUnits units) 1 * quantaPerUnit / 2 ^ 52 := by
    rw [le_div_iff₀ (by positivity), one_mul]
    exact hlarge.trans (le_mul_of_one_le_left hpos.le (le_max_right _ _))
  have hshare : ofUnits units * quantaPerUnit / 2 ^ 52 ≤ max (ofUnits units) 1 * quantaPerUnit / 2 ^ 52 := by
    gcongr
    exact le_max_left _ _
  refine le_of_mul_le_mul_right ?_ hpos
  calc |ofUnits units - ofQuanta (ofDecimalUnits units)| * quantaPerUnit
      = |ofUnits units * quantaPerUnit - ofDecimalUnits units| := hdistance
    _ ≤ max 1 (ofUnits units * quantaPerUnit / 2 ^ 52) / 2 := herror
    _ ≤ max (ofUnits units) 1 * quantaPerUnit / 2 ^ 52 / 2 := div_le_div_of_nonneg_right (max_le hone hshare) two_pos.le
    _ = max (ofUnits units) 1 / 2 ^ 53 * quantaPerUnit := by ring

/-- The number is whole and has at most so many significant bits. -/
def HasBits (bits : ℕ) (x : ℚ) : Prop :=
  ∃ m e : ℕ, m < 2 ^ bits ∧ x = m * 2 ^ e

/-- A whole number that fits a double is its own nearest double. -/
theorem ofQuanta_ofDecimalUnits_of_hasBits {units : ℕ} (h : HasBits 53 (ofUnits units)) :
    ofQuanta (ofDecimalUnits units) = ofUnits units := by
  obtain ⟨m, e, hm, h⟩ := h
  have hden : 0 < 10 ^ decimalScale := Nat.pow_pos (by decide)
  have hunits : units = m * 2 ^ e * 10 ^ decimalScale := by
    rw [ofUnits, div_eq_iff (by positivity)] at h
    exact_mod_cast h
  have hquanta : ofDecimalUnits units = m * 2 ^ (e + quantumScale) := by
    refine roundTo_of_short (by decide) (by decide) hden hm ?_
    rw [hunits, quantaPerUnit_eq, pow_add]
    ring
  rw [h, ofQuanta, hquanta, quantaPerUnit_eq, pow_add]
  push_cast
  field_simp

/-- From 2 ^ 53 on, the nearest double is whole. -/
theorem hasBits_ofDecimalUnits {units : ℕ} (h : 2 ^ 53 ≤ ofUnits units) : HasBits 53 (ofQuanta (ofDecimalUnits units)) := by
  have hden : 0 < 10 ^ decimalScale := Nat.pow_pos (by decide)
  have hlarge : 2 ^ (53 + quantumScale) ≤ units * quantaPerUnit / 10 ^ decimalScale := by
    rw [Nat.le_div_iff_mul_le hden, pow_add, ← quantaPerUnit_eq, mul_right_comm]
    rw [ofUnits, le_div_iff₀ (by positivity)] at h
    exact Nat.mul_le_mul_right _ (by exact_mod_cast h)
  have hplace : quantumScale ≤ numeralLength 2 (units * quantaPerUnit / 10 ^ decimalScale) - binary64.precision := by
    by_contra hlt
    have hlength : numeralLength 2 (units * quantaPerUnit / 10 ^ decimalScale) ≤ 53 + quantumScale := by
      have hprecision : binary64.precision = 53 := rfl
      omega
    exact absurd ((Nat.length_toDigits_le_iff (by decide) (by omega)).mp hlength) (not_lt.mpr hlarge)
  obtain ⟨m, e, hm, -, hvalue⟩ :=
    exists_roundTo_eq (by decide : 1 < 2) (by decide : 0 < binary64.precision) (units * quantaPerUnit) hden
  obtain ⟨j, hj⟩ := Nat.exists_eq_add_of_le hplace
  have hunits : ofDecimalUnits units = m * (quantaPerUnit * 2 ^ (j + e)) := by
    rw [ofDecimalUnits, Nat.pow_eq, hvalue, lastPlace_eq, hj, quantaPerUnit_eq]
    ring
  refine ⟨m, j + e, hm, ?_⟩
  rw [ofQuanta, hunits, div_eq_iff cast_quantaPerUnit_pos.ne']
  push_cast
  ring

/-! ## To the places shown -/

/-- Numbers are rounded to the places of the text. -/
theorem roundsTo_toPlaces (quanta : ℕ) : RoundsTo (1 / 10 ^ 7) (ofQuanta quanta) (ofPlaceCount (toPlaces quanta)) := by
  have hscale : (0 : ℚ) < 1 / 10 ^ mostPlaces := by positivity
  have hround := (roundsTo_roundDiv (quanta * 10 ^ mostPlaces) quantaPerUnit_pos).scale hscale
  have hquotient : ((quanta * 10 ^ mostPlaces : ℕ) : ℚ) / quantaPerUnit * (1 / 10 ^ mostPlaces) = ofQuanta quanta := by
    rw [ofQuanta]
    push_cast
    field_simp
  rw [hquotient, one_mul, mul_one_div] at hround
  exact hround

/-- What is shown of a number is its double rounded to the places. -/
theorem roundsTo_shownPlaces (quanta : ℕ) :
    RoundsTo (1 / 10 ^ 7) (ofQuanta (ofDecimalUnits (toSignificant quanta))) (ofPlaceCount (shownPlaces quanta)) :=
  roundsTo_toPlaces _

/-- After the first step, what is shown is off by what the double is and half a unit of the last place. -/
theorem abs_ofUnits_sub_shown_le (quanta : ℕ) :
    |ofUnits (toSignificant quanta) - ofPlaceCount (shownPlaces quanta)| ≤
      max (ofUnits (toSignificant quanta)) 1 / 2 ^ 53 + 1 / 10 ^ 7 / 2 :=
  (abs_sub_le _ (ofQuanta (ofDecimalUnits (toSignificant quanta))) _).trans
    (add_le_add (abs_ofUnits_sub_le _) (roundsTo_shownPlaces quanta).abs_sub_le)

/-- Places less than half a unit of the last place away are the rounded ones. -/
theorem toPlaces_eq_of_abs_sub_lt {quanta count : ℕ} (h : |ofQuanta quanta - ofPlaceCount count| < 1 / 10 ^ 7 / 2) :
    toPlaces quanta = count := by
  rw [ofPlaceCount_eq_mul] at h
  have hvalue := (roundsTo_toPlaces quanta).eq_of_abs_sub_lt h
  exact ofPlaceCount_injective (hvalue.trans (ofPlaceCount_eq_mul count).symm)

/-- So they are shown where they are that near to the double. -/
theorem shownPlaces_eq_of_abs_sub_lt {quanta count : ℕ}
    (h : |ofQuanta (ofDecimalUnits (toSignificant quanta)) - ofPlaceCount count| < 1 / 10 ^ 7 / 2) : shownPlaces quanta = count :=
  toPlaces_eq_of_abs_sub_lt h

/-! ## The roundings together -/

/-- Powers of ten around a number are in order. -/
theorem exponent_lt {x : ℚ} {a b : ℤ} (ha : (10 : ℚ) ^ a ≤ x) (hb : x < (10 : ℚ) ^ b) : a < b :=
  (zpow_lt_zpow_iff_right₀ (by norm_num)).mp (ha.trans_lt hb)

/-- A power of ten with an exponent far below zero is small. -/
theorem zpow_le_one_div {k : ℤ} {digits : ℕ} (h : k ≤ -digits) : (10 : ℚ) ^ k ≤ 1 / 10 ^ digits := by
  rw [one_div, ← zpow_natCast, ← zpow_neg]
  exact zpow_le_zpow_right₀ (by norm_num) h

/-- A power of ten splits into a whole one and the rest. -/
theorem zpow_add_natCast (k : ℤ) (digits : ℕ) : (10 : ℚ) ^ (k + digits) = (10 ^ digits : ℕ) * 10 ^ k := by
  rw [add_comm, zpow_add₀ (by norm_num), zpow_natCast]
  push_cast
  rfl

/-- Digits whose last place is no finer than the places shown are a count of them. -/
theorem mul_zpow_eq_ofPlaceCount (n : ℕ) {k : ℤ} (hk : 0 ≤ k + 7) : n * (10 : ℚ) ^ k = ofPlaceCount (n * 10 ^ (k + 7).toNat) := by
  have hpower : (10 : ℚ) ^ (k + 7).toNat = 10 ^ k * 10 ^ 7 := by
    rw [← zpow_natCast, ← zpow_natCast, ← zpow_add₀ (by norm_num), Int.toNat_of_nonneg hk]
    rfl
  have hplaces : mostPlaces = 7 := rfl
  rw [ofPlaceCount, hplaces, eq_div_iff (by positivity)]
  push_cast
  rw [hpower, mul_assoc]

section Steps

variable {quanta count : ℕ}

/-- The first step in full: the number starts at a power of ten, and the rounded one has seven digits behind which that power of ten
leaves zeros, or is the next power. -/
theorem exists_digits (h : 0 < quanta) :
    ∃ (k : ℤ) (n : ℕ), (10 : ℚ) ^ (k + 6) ≤ ofQuanta quanta ∧ ofQuanta quanta < (10 : ℚ) ^ (k + 7) ∧
      |ofQuanta quanta - ofUnits (toSignificant quanta)| ≤ 10 ^ k / 2 ∧
      ofUnits (toSignificant quanta) = n * 10 ^ k ∧ 10 ^ 6 ≤ n ∧ n ≤ 10 ^ 7 := by
  obtain ⟨k, hlow, hhigh, hround⟩ := roundsToDigits_toSignificant h
  have hunit : (0 : ℚ) < 10 ^ k := by positivity
  rw [abs_of_nonneg (ofQuanta_nonneg quanta)] at hlow hhigh
  rw [add_sub_assoc] at hlow
  have hfirst := hround.multiple_le hunit (n := (10 ^ 6 : ℕ)) (by rw [Int.cast_natCast, ← zpow_add_natCast]; exact hlow)
  have hnext := hround.le_multiple hunit (n := (10 ^ 7 : ℕ)) (by rw [Int.cast_natCast, ← zpow_add_natCast]; exact hhigh.le)
  have herror := hround.abs_sub_le
  obtain ⟨n, hn, -, -⟩ := hround
  rw [hn] at hfirst hnext
  have hlow' : ((10 ^ 6 : ℕ) : ℤ) ≤ n := by exact_mod_cast le_of_mul_le_mul_right hfirst hunit
  have hhigh' : n ≤ ((10 ^ 7 : ℕ) : ℤ) := by exact_mod_cast le_of_mul_le_mul_right hnext hunit
  lift n to ℕ using by omega
  exact ⟨k, n, hlow, hhigh, herror, by rw [hn, Int.cast_natCast], by exact_mod_cast hlow', by exact_mod_cast hhigh'⟩

/-- A small number of places that the first step gives is shown: the double is nearer to it than half a unit. -/
theorem shownPlaces_of_le (hcount : ofUnits (toSignificant quanta) = ofPlaceCount count) (hle : ofUnits (toSignificant quanta) ≤ 10 ^ 8) :
    shownPlaces quanta = count := by
  refine shownPlaces_eq_of_abs_sub_lt ?_
  have herror := abs_ofUnits_sub_le (toSignificant quanta)
  have hmax : max (ofUnits (toSignificant quanta)) 1 ≤ 10 ^ 8 := max_le hle (by norm_num)
  rw [← hcount, abs_sub_comm]
  refine herror.trans_lt (lt_of_le_of_lt (div_le_div_of_nonneg_right hmax (by positivity)) ?_)
  norm_num

/-- A number of places that the first step gives and that is a double is shown. -/
theorem shownPlaces_of_hasBits (hcount : ofUnits (toSignificant quanta) = ofPlaceCount count)
    (hbits : HasBits 53 (ofUnits (toSignificant quanta))) : shownPlaces quanta = count := by
  refine shownPlaces_eq_of_abs_sub_lt ?_
  rw [ofQuanta_ofDecimalUnits_of_hasBits hbits, hcount, sub_self, abs_zero]
  positivity

/-- Seven digits behind which at most twelve zeros stand fit a double. -/
theorem hasBits_of_seven_digits {n : ℕ} {k : ℤ} (hn : n ≤ 10 ^ 7) (hk : 0 ≤ k) (hle : k ≤ 12) : HasBits 53 (n * 10 ^ k) := by
  lift k to ℕ using hk
  refine ⟨n * 5 ^ k, k, ?_, ?_⟩
  · calc n * 5 ^ k ≤ 10 ^ 7 * 5 ^ 12 := Nat.mul_le_mul hn (Nat.pow_le_pow_right (by decide) (by exact_mod_cast hle))
      _ < 2 ^ 53 := by decide
  · push_cast
    rw [zpow_natCast, mul_assoc, ← mul_pow]
    norm_num

/-- Where the number rounded to seven digits is a double, it is what is shown. -/
theorem ofPlaceCount_shownPlaces_of_hasBits (hone : 1 ≤ ofQuanta quanta) (hbits : HasBits 53 (ofUnits (toSignificant quanta))) :
    ofPlaceCount (shownPlaces quanta) = ofUnits (toSignificant quanta) := by
  obtain ⟨k, n, -, hhigh, -, hn, -, -⟩ := exists_digits (pos_of_one_le hone)
  have hk : 0 < k + 7 := exponent_lt (by rwa [zpow_zero]) hhigh
  have hcount := hn.trans (mul_zpow_eq_ofPlaceCount n hk.le)
  rw [shownPlaces_of_hasBits hcount hbits, hcount]

/-- From one to 10 ^ 19, what is shown is the number rounded to seven digits. -/
theorem ofPlaceCount_shownPlaces (hone : 1 ≤ ofQuanta quanta) (hlt : ofQuanta quanta < 10 ^ 19) :
    ofPlaceCount (shownPlaces quanta) = ofUnits (toSignificant quanta) := by
  obtain ⟨k, n, hlow, hhigh, -, hn, -, hle⟩ := exists_digits (pos_of_one_le hone)
  have hk : 0 < k + 7 := exponent_lt (by rwa [zpow_zero]) hhigh
  have hk' : k + 6 < 19 := exponent_lt hlow (by exact_mod_cast hlt)
  have hcount := hn.trans (mul_zpow_eq_ofPlaceCount n hk.le)
  rcases lt_or_ge k 0 with hneg | hnonneg
  · have hsmall : ofUnits (toSignificant quanta) ≤ 10 ^ 8 := by
      have hpower : (10 : ℚ) ^ k ≤ 1 := zpow_le_one_of_nonpos₀ (by norm_num) hneg.le
      have hdigits : (n : ℚ) ≤ 10 ^ 7 := by exact_mod_cast hle
      rw [hn]
      nlinarith
    rw [shownPlaces_of_le hcount hsmall, hcount]
  · have hbits := hasBits_of_seven_digits hle hnonneg (by omega)
    rw [← hn] at hbits
    exact ofPlaceCount_shownPlaces_of_hasBits hone hbits

/-- Below one, rounding to seven digits moves a number by half a unit of the last place at most, and not past one. -/
theorem toSignificant_of_lt_one (hlt : ofQuanta quanta < 1) :
    |ofQuanta quanta - ofUnits (toSignificant quanta)| ≤ 1 / 10 ^ 7 / 2 ∧ ofUnits (toSignificant quanta) ≤ 1 := by
  rcases Nat.eq_zero_or_pos quanta with rfl | hpos
  · rw [toSignificant_zero]
    norm_num [ofQuanta, ofUnits]
  · obtain ⟨k, n, hlow, -, herror, hn, -, hle⟩ := exists_digits hpos
    have hk : k + 6 < 0 := exponent_lt hlow (by rwa [zpow_zero])
    have hunit := zpow_le_one_div (by omega : k ≤ -(7 : ℕ))
    have hdigits : (n : ℚ) ≤ 10 ^ 7 := by exact_mod_cast hle
    refine ⟨by linarith, ?_⟩
    calc ofUnits (toSignificant quanta) = n * 10 ^ k := hn
      _ ≤ 10 ^ 7 * (1 / 10 ^ 7) := mul_le_mul hdigits hunit (by positivity) (by positivity)
      _ = 1 := by norm_num

/-- Below one, what is shown is off by two half units of the last place and the little that the double is off. -/
theorem abs_ofPlaceCount_sub_le (hlt : ofQuanta quanta < 1) :
    |ofPlaceCount (shownPlaces quanta) - ofQuanta quanta| ≤ 1 / 10 ^ 7 + 1 / 2 ^ 53 := by
  obtain ⟨hfirst, hone⟩ := toSignificant_of_lt_one hlt
  have hrest := abs_ofUnits_sub_shown_le quanta
  rw [max_eq_right hone] at hrest
  rw [abs_sub_comm]
  refine (abs_sub_le _ (ofUnits (toSignificant quanta)) _).trans ?_
  linarith

end Steps

/-- A number from one to 10 ^ 15 is shown as rounded to seven significant digits, a half going to the even digit. A number below one is
shown in units of the seventh place, and off by hardly more than one of them. -/
theorem Datum.display_accurate {x : Datum} {v : ℚ} (hx : x.value? = some v) :
    ∃ shown : ℚ, ofText? x.display.toList = some shown ∧
      (1 ≤ |v| → |v| < 10 ^ 15 → RoundsToDigits 7 v shown) ∧
      (|v| < 1 → (∃ n : ℤ, shown = n / 10 ^ 7) ∧ |shown - v| ≤ 1.0000001 / 10 ^ 7) := by
  obtain ⟨negative, quanta, rfl, rfl⟩ := exists_of_value? hx
  refine ⟨_, ofText?_display negative quanta, ?_, ?_⟩
  · intro hone hlt
    rw [abs_signed, abs_of_nonneg (ofQuanta_nonneg quanta)] at hone hlt
    rw [ofPlaceCount_shownPlaces hone (hlt.trans (by norm_num))]
    exact (roundsToDigits_toSignificant (pos_of_one_le hone)).signed negative
  · intro hlt
    rw [abs_signed, abs_of_nonneg (ofQuanta_nonneg quanta)] at hlt
    constructor
    · cases negative
      · exact ⟨shownPlaces quanta, by simp [signed, ofPlaceCount, mostPlaces]⟩
      · exact ⟨-shownPlaces quanta, by simp [signed, ofPlaceCount, mostPlaces, neg_div]⟩
    · rw [signed_sub, abs_signed]
      refine (abs_ofPlaceCount_sub_le hlt).trans ?_
      norm_num

/-- Half a unit above the largest number of seven digits, with a sign, goes to the next power of ten; a number just below one goes
to one. -/
theorem Datum.display_accurate_carry :
    (ofText? (binary64.decode 0xC16312CFF0000000).display.toList = some (-10000000) ∧
        RoundsToDigits 7 (-19999999 / 2) (-10000000)) ∧
      ofText? (binary64.decode 0x3FEFFFFFFAA19C47).display.toList = some 1 ∧
      |1 - (9007199164668999 / 2 ^ 53 : ℚ)| ≤ 1.0000001 / 10 ^ 7 := by
  have hcarry : (binary64.decode 0xC16312CFF0000000).value? = some (-19999999 / 2) := by decide +kernel
  have hbelow : (binary64.decode 0x3FEFFFFFFAA19C47).value? = some (9007199164668999 / 2 ^ 53) := by decide +kernel
  have hcarryText : ofText? (binary64.decode 0xC16312CFF0000000).display.toList = some (-10000000) := by decide +kernel
  have hbelowText : ofText? (binary64.decode 0x3FEFFFFFFAA19C47).display.toList = some 1 := by decide +kernel
  obtain ⟨shown, hshown, hlarge, -⟩ := Datum.display_accurate hcarry
  obtain ⟨shown', hshown', -, hsmall⟩ := Datum.display_accurate hbelow
  obtain rfl := Option.some.inj (hcarryText.symm.trans hshown)
  obtain rfl := Option.some.inj (hbelowText.symm.trans hshown')
  exact ⟨⟨hcarryText, hlarge (by norm_num [abs_of_neg]) (by norm_num [abs_of_neg])⟩, hbelowText,
    (hsmall (by norm_num [abs_of_pos])).2⟩

/-! ## Order -/

/-- Rounding to significant digits keeps the order. -/
theorem toSignificant_mono {a b : ℕ} (h : a ≤ b) : toSignificant a ≤ toSignificant b := by
  have hpos := cast_quantaPerUnit_pos
  refine roundTo_mono (by decide) (by decide) quantaPerUnit_pos quantaPerUnit_pos ?_
  gcongr

/-- Going back to quanta keeps the order. -/
theorem ofDecimalUnits_mono {a b : ℕ} (h : a ≤ b) : ofDecimalUnits a ≤ ofDecimalUnits b := by
  refine roundTo_mono (by decide) (by decide) (Nat.pow_pos (by decide)) (Nat.pow_pos (by decide)) ?_
  gcongr

/-- Rounding to places keeps the order. -/
theorem toPlaces_mono {a b : ℕ} (h : a ≤ b) : toPlaces a ≤ toPlaces b := by
  have hle := (roundsTo_toPlaces a).mono (by positivity) (roundsTo_toPlaces b) (ofQuanta_le_iff.mpr h)
  exact ofPlaceCount_le_iff.mp hle

/-- What is shown keeps the order, in counts. -/
theorem shownPlaces_mono {a b : ℕ} (h : a ≤ b) : shownPlaces a ≤ shownPlaces b :=
  toPlaces_mono (ofDecimalUnits_mono (toSignificant_mono h))

/-- Zero is shown as zero. -/
theorem shownPlaces_zero : shownPlaces 0 = 0 := by
  simp [shownPlaces, toSignificant_zero, ofDecimalUnits, roundTo, toPlaces, roundDiv]

/-- What is shown keeps the order, in numbers. -/
theorem ofPlaceCount_shownPlaces_mono {a b : ℕ} (h : ofQuanta a ≤ ofQuanta b) :
    ofPlaceCount (shownPlaces a) ≤ ofPlaceCount (shownPlaces b) :=
  ofPlaceCount_le_iff.mpr (shownPlaces_mono (ofQuanta_le_iff.mp h))

/-- Numbers with signs are shown in their order. A negative number that is not below a positive one is zero, like it. -/
theorem signed_shownPlaces_le {negative negative' : Bool} {a b : ℕ} (h : signed negative (ofQuanta a) ≤ signed negative' (ofQuanta b)) :
    signed negative (ofPlaceCount (shownPlaces a)) ≤ signed negative' (ofPlaceCount (shownPlaces b)) := by
  have ha := ofQuanta_nonneg a
  have hb := ofQuanta_nonneg b
  unfold signed at h ⊢
  cases negative with
  | false =>
    cases negative' with
    | false => exact ofPlaceCount_shownPlaces_mono h
    | true =>
      simp only [Bool.false_eq_true, if_false, if_true] at h ⊢
      have hzero : ofQuanta a ≤ ofQuanta 0 ∧ ofQuanta b ≤ ofQuanta 0 := by
        rw [ofQuanta_zero]
        constructor <;> linarith
      rw [Nat.le_zero.mp (ofQuanta_le_iff.mp hzero.1), Nat.le_zero.mp (ofQuanta_le_iff.mp hzero.2), shownPlaces_zero]
      norm_num [ofPlaceCount]
  | true =>
    cases negative' with
    | false => exact (neg_nonpos.mpr (ofPlaceCount_nonneg _)).trans (ofPlaceCount_nonneg _)
    | true => exact neg_le_neg (ofPlaceCount_shownPlaces_mono (neg_le_neg_iff.mp h))

/-- The listing keeps the order of numbers: of two, the smaller is not shown as the larger. -/
theorem Datum.display_mono {x y : Datum} {a b : ℚ} (hx : x.value? = some a) (hy : y.value? = some b) (h : a ≤ b) :
    ∃ shownX shownY : ℚ, ofText? x.display.toList = some shownX ∧ ofText? y.display.toList = some shownY ∧ shownX ≤ shownY := by
  obtain ⟨negative, quanta, rfl, rfl⟩ := exists_of_value? hx
  obtain ⟨negative', quanta', rfl, rfl⟩ := exists_of_value? hy
  exact ⟨_, _, ofText?_display negative quanta, ofText?_display negative' quanta', signed_shownPlaces_le h⟩

/-- A half between two numbers of seven digits and the double before it are shown as different numbers, and in order. -/
theorem Datum.display_mono_half :
    let x := binary64.decode 0x416312CFEFFFFFFF
    let y := binary64.decode 0x416312CFF0000000
    x.value? = some ((19999999 * 2 ^ 28 - 1) / 2 ^ 29) ∧ y.value? = some (19999999 / 2) ∧
      ∃ shownX shownY : ℚ, ofText? x.display.toList = some shownX ∧ ofText? y.display.toList = some shownY ∧
        shownX ≤ shownY ∧ shownX = 9999999 ∧ shownY = 10000000 := by
  intro x y
  have hx : x.value? = some ((19999999 * 2 ^ 28 - 1) / 2 ^ 29) := by decide +kernel
  have hy : y.value? = some (19999999 / 2) := by decide +kernel
  have hxText : ofText? x.display.toList = some 9999999 := by decide +kernel
  have hyText : ofText? y.display.toList = some 10000000 := by decide +kernel
  obtain ⟨shownX, shownY, hshownX, hshownY, hle⟩ := Datum.display_mono hx hy (by norm_num)
  exact ⟨hx, hy, shownX, shownY, hshownX, hshownY, hle, Option.some.inj (hshownX.symm.trans hxText),
    Option.some.inj (hshownY.symm.trans hyText)⟩

end FlowListing.Number
