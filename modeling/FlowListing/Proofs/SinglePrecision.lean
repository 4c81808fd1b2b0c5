import Mathlib
import FlowListing.Proofs.BinaryFormat
import FlowListing.Proofs.SignificantDigits

/-!
# Short decimals in single precision

A script holds a number in single precision, so that a decimal of its source becomes the nearest single. Up to 10 ^ 9 the singles lie so
close that rounding one to seven digits leads back to a decimal of six: the error of the single is less than half a unit of the
seventh digit in every decade (`abs_sub_lt_half`), but for the decade from 10 ^ 6 on, where the decimals are whole and are singles
themselves. Hence the listing shows the decimal that was written (`display_nearest_single`).
-/

namespace FlowListing.Number

attribute [local irreducible] quantumScale quantaPerUnit decimalScale

/-! ## The error of a single -/

/-- No single is nearer to `d` than `x`, signs apart: a single is a number of steps of 2 ^ -149 that has at most 24 bits. -/
def NoSingleNearer (x d : ℚ) : Prop :=
  ∀ m e : ℕ, m < 2 ^ 24 → e ≤ 253 → |x - d| ≤ |m * 2 ^ e / 2 ^ 149 - d|

namespace NoSingleNearer

variable {x d : ℚ} {count i : ℕ}

/-- Below a single with 24 + `j` bits, the nearest single is within half of the last bit. -/
theorem abs_sub_le_half_bit (h : NoSingleNearer x (ofPlaceCount count)) {j : ℕ} (hj : j ≤ 200)
    (hlt : ofPlaceCount count < 2 ^ (24 + j) / 2 ^ 149) : |x - ofPlaceCount count| ≤ 2 ^ j / 2 ^ 150 := by
  have hden : 0 < 10 ^ mostPlaces := Nat.pow_pos (by decide)
  have hround := (roundsTo_roundTo (by decide : 1 < 2) 24 (count * 2 ^ 149) hden).abs_sub_le
  obtain ⟨m, e, hm, he, hsteps⟩ := exists_roundTo_eq (by decide : 1 < 2) (by decide : 0 < 24) (count * 2 ^ 149) hden
  have hfloor : count * 2 ^ 149 / 10 ^ mostPlaces < 2 ^ (24 + j) := by
    rw [Nat.div_lt_iff_lt_mul hden]
    rw [ofPlaceCount, div_lt_div_iff₀ (by positivity) (by positivity)] at hlt
    exact_mod_cast hlt
  have hshift := numeralLength_sub_le (by decide : 1 < 2) (by decide : 0 < 24) hfloor
  rw [hsteps, lastPlace_eq] at hround
  generalize numeralLength 2 (count * 2 ^ 149 / 10 ^ mostPlaces) - 24 = shift at *
  have hnear := h m (shift + e) hm (by omega)
  have hquotient : ((count * 2 ^ 149 : ℕ) : ℚ) / (10 ^ mostPlaces : ℕ) = ofPlaceCount count * 2 ^ 149 := by
    rw [ofPlaceCount]
    push_cast
    ring
  have hunit : ((2 ^ shift : ℕ) : ℚ) ≤ 2 ^ j := by exact_mod_cast Nat.pow_le_pow_right two_pos hshift
  have hscale : (0 : ℚ) < 2 ^ 149 := by positivity
  have hvalue : ((m * (2 ^ shift * 2 ^ e) : ℕ) : ℚ) = m * 2 ^ (shift + e) := by
    push_cast
    rw [pow_add]
  have hdistance : |(m : ℚ) * 2 ^ (shift + e) / 2 ^ 149 - ofPlaceCount count| * 2 ^ 149 =
      |ofPlaceCount count * 2 ^ 149 - m * 2 ^ (shift + e)| := by
    rw [← abs_of_pos hscale, ← abs_mul, abs_of_pos hscale, abs_sub_comm, sub_mul, div_mul_cancel₀ _ hscale.ne', abs_sub_comm]
  rw [hquotient, hvalue] at hround
  have hhalf : |(m : ℚ) * 2 ^ (shift + e) / 2 ^ 149 - ofPlaceCount count| * 2 ^ 149 ≤ 2 ^ j / 2 := by
    rw [hdistance]
    linarith
  refine hnear.trans ?_
  rw [le_div_iff₀ (by positivity)]
  linarith

/-- A single on one side of `d` is not passed. -/
theorem le_of_single (h : NoSingleNearer x d) {m e : ℕ} (hm : m < 2 ^ 24) (he : e ≤ 253) (hle : m * 2 ^ e / 2 ^ 149 ≤ d) :
    m * 2 ^ e / 2 ^ 149 ≤ x := by
  have hnear := h m e hm he
  by_contra hlt
  rw [abs_of_nonpos (by linarith), abs_of_nonpos (by linarith)] at hnear
  linarith

/-- Powers of ten are singles as far as those of five have 24 bits. -/
theorem pow_le (h : NoSingleNearer x d) (hi : i ≤ 10) (hle : 10 ^ i ≤ d) : 10 ^ i ≤ x := by
  have hpower : ((5 ^ i : ℕ) : ℚ) * 2 ^ (i + 149) / 2 ^ 149 = 10 ^ i := by
    push_cast
    rw [pow_add, ← mul_assoc, mul_div_cancel_right₀ _ (by positivity), ← mul_pow]
    norm_num
  have hfive : 5 ^ i < 2 ^ 24 := (Nat.pow_le_pow_right (by decide) hi).trans_lt (by decide)
  rw [← hpower] at hle ⊢
  exact h.le_of_single hfive (by omega) hle

end NoSingleNearer

/-- In each decade but one, some number of bits reaches the next power of ten and still has its last bit below the seventh digit: it is that
of the first power of two from there on. -/
theorem exists_spacing {i : ℕ} (hi : i < 9) (hne : i ≠ 6) :
    ∃ j ≤ 155, 10 ^ (i + 1) * 2 ^ 149 ≤ 2 ^ (24 + j) ∧ 10 ^ 6 * 2 ^ j < 10 ^ i * 2 ^ 149 := by
  interval_cases i
  · exact ⟨129, by norm_num⟩
  · exact ⟨132, by norm_num⟩
  · exact ⟨135, by norm_num⟩
  · exact ⟨139, by norm_num⟩
  · exact ⟨142, by norm_num⟩
  · exact ⟨145, by norm_num⟩
  · exact absurd rfl hne
  · exact ⟨152, by norm_num⟩
  · exact ⟨155, by norm_num⟩

section Decades

variable {x : ℚ} {count i : ℕ}

/-- A short decimal of the seventh decade is whole, and so small that it is a single. -/
theorem NoSingleNearer.eq_of_whole (h : NoSingleNearer x (ofPlaceCount count)) (hshort : IsShort 6 count)
    (hlow : 10 ^ 6 ≤ ofPlaceCount count) (hhigh : ofPlaceCount count < 10 ^ 7) : x = ofPlaceCount count := by
  obtain ⟨a, ha⟩ := hshort.exists_multiple (e := 0) (le_trans (by norm_num) hlow)
  rw [zpow_zero, mul_one] at ha
  rw [ha] at hlow hhigh
  have hlow' : (10 : ℤ) ^ 6 ≤ a := by exact_mod_cast hlow
  have hhigh' : a < 10 ^ 7 := by exact_mod_cast hhigh
  lift a to ℕ using by omega
  have hnear := h a 149 (by omega) (by decide)
  rw [mul_div_cancel_right₀ _ (by positivity), ha, Int.cast_natCast, sub_self, abs_zero] at hnear
  rw [ha, Int.cast_natCast]
  exact sub_eq_zero.mp (abs_nonpos_iff.mp hnear)

/-- From one to 10 ^ 9, the nearest single is off by less than half a unit of the seventh digit. -/
theorem NoSingleNearer.abs_sub_lt_half (h : NoSingleNearer x (ofPlaceCount count)) (hshort : IsShort 6 count) (hi : i < 9)
    (hlow : 10 ^ i ≤ ofPlaceCount count) (hhigh : ofPlaceCount count < 10 ^ (i + 1)) :
    |x - ofPlaceCount count| < 10 ^ i / 10 ^ 6 / 2 := by
  rcases eq_or_ne i 6 with rfl | hne
  · rw [h.eq_of_whole hshort hlow hhigh, sub_self, abs_zero]
    norm_num
  · obtain ⟨j, hj, hreach, hlast⟩ := exists_spacing hi hne
    have hreach' : (10 : ℚ) ^ (i + 1) * 2 ^ 149 ≤ 2 ^ (24 + j) := by exact_mod_cast hreach
    have hlast' : (10 : ℚ) ^ 6 * 2 ^ j < 10 ^ i * 2 ^ 149 := by exact_mod_cast hlast
    refine (h.abs_sub_le_half_bit (hj.trans (by decide)) (hhigh.trans_le ?_)).trans_lt ?_
    · rwa [le_div_iff₀ (by positivity)]
    · rw [div_div, div_lt_div_iff₀ (by positivity) (by positivity)]
      linarith

/-- In units of its sixth digit, a short decimal is a number below 10 ^ 6. -/
theorem exists_sixth_digit (hshort : IsShort 6 count) (hlow : 10 ^ i ≤ ofPlaceCount count) (hhigh : ofPlaceCount count < 10 ^ (i + 1)) :
    ∃ a : ℤ, a ≤ 10 ^ 6 - 1 ∧ ofPlaceCount count = a * (10 * (10 ^ i / 10 ^ 6)) := by
  have hexponent : (i : ℤ) - 5 + (6 : ℕ) - 1 = i := by omega
  obtain ⟨a, ha⟩ := hshort.exists_multiple (e := i - 5) (by rwa [hexponent, zpow_natCast])
  have hunit : (10 : ℚ) ^ ((i : ℤ) - 5) = 10 * (10 ^ i / 10 ^ 6) := by
    rw [zpow_sub₀ (by norm_num), zpow_natCast]
    norm_num
    ring
  have hpos : (0 : ℚ) < 10 ^ i / 10 ^ 6 := by positivity
  rw [hunit] at ha
  refine ⟨a, Int.le_sub_one_of_lt ?_, ha⟩
  rw [ha, pow_succ (10 : ℚ) i] at hhigh
  have hcast : (a : ℚ) < 10 ^ 6 := by
    refine lt_of_mul_lt_mul_right ?_ hpos.le
    linarith
  exact_mod_cast hcast

/-- There the single rounds to the decimal. -/
theorem NoSingleNearer.roundsToDigits (h : NoSingleNearer x (ofPlaceCount count)) (hshort : IsShort 6 count) (hi : i < 9)
    (hlow : 10 ^ i ≤ ofPlaceCount count) (hhigh : ofPlaceCount count < 10 ^ (i + 1)) :
    RoundsToDigits 7 x (ofPlaceCount count) := by
  have hnear := h.abs_sub_lt_half hshort hi hlow hhigh
  have hx : 10 ^ i ≤ x := h.pow_le (by omega) hlow
  obtain ⟨a, hle, ha⟩ := exists_sixth_digit hshort hlow hhigh
  have hpos : (0 : ℚ) < 10 ^ i / 10 ^ 6 := by positivity
  have hupper : x < 10 ^ (i + 1) := by
    have hcast : (a : ℚ) ≤ 10 ^ 6 - 1 := by exact_mod_cast hle
    have hgap : ofPlaceCount count ≤ (10 ^ 6 - 1) * (10 * (10 ^ i / 10 ^ 6)) := by
      rw [ha]
      gcongr
    rw [abs_lt] at hnear
    rw [pow_succ (10 : ℚ) i]
    linarith
  have hfirst : (i : ℤ) - 6 + (7 : ℕ) - 1 = i := by omega
  have hnext : (i : ℤ) - 6 + (7 : ℕ) = (i + 1 : ℕ) := by omega
  have hunit : (10 : ℚ) ^ ((i : ℤ) - 6) = 10 ^ i / 10 ^ 6 := by
    rw [zpow_sub₀ (by norm_num), zpow_natCast]
    rfl
  have hmultiple : ofPlaceCount count = (10 * a : ℤ) * (10 ^ i / 10 ^ 6) := by
    rw [ha]
    push_cast
    ring
  refine ⟨i - 6, ?_, ?_, ?_⟩
  · rwa [abs_of_nonneg (le_trans (by positivity) hx), hfirst, zpow_natCast]
  · rwa [abs_of_nonneg (le_trans (by positivity) hx), hnext, zpow_natCast]
  · rw [hmultiple] at hnear ⊢
    rw [hunit]
    exact RoundsTo.of_abs_sub_lt hnear

end Decades

/-! ## Back to the decimal -/

section Shown

variable {quanta count : ℕ}

/-- A count of places other than zero is at least one place. -/
theorem one_div_le_ofPlaceCount (h : 0 < count) : 1 / 10 ^ 7 ≤ ofPlaceCount count := by
  have hone : ofPlaceCount 1 = 1 / 10 ^ 7 := by norm_num [ofPlaceCount, mostPlaces]
  rw [← hone]
  exact ofPlaceCount_le_iff.mpr h

/-- A count of places below one is at least one place below it. -/
theorem ofPlaceCount_le_of_lt_one (h : ofPlaceCount count < 1) : ofPlaceCount count ≤ 1 - 1 / 10 ^ 7 := by
  have hone : ofPlaceCount (10 ^ 7) = 1 := by norm_num [ofPlaceCount, mostPlaces]
  have hnines : ofPlaceCount (10 ^ 7 - 1) = 1 - 1 / 10 ^ 7 := by norm_num [ofPlaceCount, mostPlaces]
  rw [← hone, ← not_le, ofPlaceCount_le_iff, not_le] at h
  rw [← hnines]
  exact ofPlaceCount_le_iff.mpr (Nat.le_sub_one_of_lt h)

/-- Below one, where the places are at most the seventh digit, the single and the roundings together stay within half a unit. -/
theorem NoSingleNearer.shownPlaces_of_lt_one (h : NoSingleNearer (ofQuanta quanta) (ofPlaceCount count)) (hpos : 0 < count)
    (hlt : ofPlaceCount count < 1) : shownPlaces quanta = count := by
  have hnear := h.abs_sub_le_half_bit (j := 125) (by decide) (hlt.trans_le (by norm_num))
  have hfirst := one_div_le_ofPlaceCount hpos
  have hlast := ofPlaceCount_le_of_lt_one hlt
  have hbounds := abs_le.mp hnear
  have hquanta : 0 < quanta := by
    rcases Nat.eq_zero_or_pos quanta with rfl | hquanta
    · rw [ofQuanta_zero] at hbounds
      linarith
    · exact hquanta
  have hx : ofQuanta quanta < 1 := by linarith
  obtain ⟨-, hone⟩ := toSignificant_of_lt_one hx
  obtain ⟨k, n, hlow, -, herror, hn, -, -⟩ := exists_digits hquanta
  have hk : k + 6 < 0 := exponent_lt hlow (by rwa [zpow_zero])
  rcases eq_or_lt_of_le (by omega : k ≤ -7) with rfl | hfine
  · -- the first step already rounds to places, and no others are as near to the single
    have hplaces : ofUnits (toSignificant quanta) = ofPlaceCount n := by
      rw [hn, mul_zpow_eq_ofPlaceCount n (by decide)]
      simp
    have hseven : (10 : ℚ) ^ (-7 : ℤ) = 1 / 10 ^ 7 := by norm_num
    obtain rfl : n = count := by
      refine eq_of_abs_ofPlaceCount_sub_lt ((abs_sub_le _ (ofQuanta quanta) _).trans_lt ?_)
      rw [hplaces, abs_sub_comm, hseven] at herror
      linarith
    exact shownPlaces_of_le hplaces (hone.trans (by norm_num))
  · refine shownPlaces_eq_of_abs_sub_lt ?_
    have hunit := zpow_le_one_div (by omega : k ≤ -(8 : ℕ))
    have hdouble := abs_ofUnits_sub_le (toSignificant quanta)
    rw [max_eq_right hone, abs_le] at hdouble
    rw [abs_le] at herror
    rw [abs_lt]
    constructor <;> linarith

/-- A short decimal is what the listing shows of the nearest single. -/
theorem NoSingleNearer.shownPlaces_eq (h : NoSingleNearer (ofQuanta quanta) (ofPlaceCount count)) (hshort : IsShort 6 count)
    (hpos : 0 < count) (hlt : ofPlaceCount count < 10 ^ 9) : shownPlaces quanta = count := by
  rcases lt_or_ge (ofPlaceCount count) 1 with hsmall | hone
  · exact h.shownPlaces_of_lt_one hpos hsmall
  · obtain ⟨i, hlow, hhigh⟩ := exists_nat_pow_near hone (by norm_num : (1 : ℚ) < 10)
    have hi : i < 9 := (pow_lt_pow_iff_right₀ (by norm_num : (1 : ℚ) < 10)).mp (hlow.trans_lt hlt)
    have hx : 1 ≤ ofQuanta quanta := by simpa using h.pow_le (i := 0) (by decide) (by simpa using hone)
    have hrounded := (roundsToDigits_toSignificant (pos_of_one_le hx)).unique (h.roundsToDigits hshort hi hlow hhigh)
    have hbound : ofQuanta quanta < 10 ^ 19 := by
      have hnear := (abs_lt.mp (h.abs_sub_lt_half hshort hi hlow hhigh)).2
      linarith
    exact ofPlaceCount_injective ((ofPlaceCount_shownPlaces hx hbound).trans hrounded)

end Shown

/-- A decimal with at most seven places and at most six digits, zeros behind them apart, is a short count of places. -/
theorem isShort_of_eq_mul_zpow {count m digits : ℕ} {e : ℤ} (hm : m < 10 ^ digits) (h : ofPlaceCount count = m * 10 ^ e) :
    IsShort digits count := by
  rcases le_or_gt 0 (e + 7) with hnonneg | hneg
  · rw [mul_zpow_eq_ofPlaceCount m hnonneg] at h
    exact ⟨m, _, hm, ofPlaceCount_injective h⟩
  · refine ⟨count, 0, lt_of_le_of_lt ?_ hm, by rw [pow_zero, mul_one]⟩
    have hpower : (10 : ℚ) ^ e * 10 ^ 7 ≤ 1 := by
      rw [← zpow_natCast, ← zpow_add₀ (by norm_num)]
      exact zpow_le_one_of_nonpos₀ (by norm_num) hneg.le
    have hplaces : mostPlaces = 7 := rfl
    rw [ofPlaceCount, hplaces, div_eq_iff (by positivity)] at h
    have hle : (count : ℚ) ≤ m := by
      rw [h, mul_assoc]
      exact mul_le_of_le_one_right (Nat.cast_nonneg _) hpower
    exact_mod_cast hle

/-- A decimal other than zero with at most six significant digits, at most seven places and a magnitude below 10 ^ 9 comes back from
single precision: whichever nearest single is taken, the listing shows the one canonical text of the decimal. -/
theorem Datum.display_nearest_single {d : ℚ} {n m e : ℤ} {bits : ℕ} (hne : d ≠ 0) (hlt : |d| < 10 ^ 9) (hplaces : d = n / 10 ^ 7)
    (hdigits : d = m * 10 ^ e) (hm : |m| < 10 ^ 6) (hnearest : binary32.IsNearest d bits) :
    ∃ t : Decimal, t.value = d ∧ (binary32.decode bits).display.toList = t.text ∧ ∀ t' : Decimal, t'.value = d → t' = t := by
  obtain ⟨negative, quanta, hfinite, hnear⟩ := hnearest.exists_finite (by decide) scale_binary32_le
  have hten : (0 : ℚ) < 10 ^ e := by positivity
  have hseven : (0 : ℚ) < 10 ^ 7 := by positivity
  have habs : |d| = ofPlaceCount n.natAbs := by
    rw [hplaces, abs_div, abs_of_pos hseven, ofPlaceCount, Nat.cast_natAbs, Int.cast_abs]
    rfl
  have hcount : 0 < n.natAbs := by
    rw [Int.natAbs_pos]
    rintro rfl
    exact hne (by rw [hplaces, Int.cast_zero, zero_div])
  have hshort : IsShort 6 n.natAbs := by
    rw [Int.abs_eq_natAbs] at hm
    refine isShort_of_eq_mul_zpow (m := m.natAbs) (e := e) (by exact_mod_cast hm) ?_
    rw [← habs, hdigits, abs_mul, abs_of_pos hten, Nat.cast_natAbs, Int.cast_abs]
  have hmagnitude : NoSingleNearer (ofQuanta quanta) (ofPlaceCount n.natAbs) := by
    intro m e hm he
    have hle := hnear m e hm (by simpa [binary32] using he)
    have hvalue := abs_abs_sub_abs_le_abs_sub (signed negative (ofQuanta quanta)) d
    rw [abs_signed, abs_of_nonneg (ofQuanta_nonneg quanta)] at hvalue
    rw [← habs]
    exact hvalue.trans hle
  have hsign : signed negative |d| = d := by
    refine signed_abs_of_abs_sub_lt (ofQuanta_nonneg quanta) ((hnear 1 125 (by decide) (by decide)).trans_lt ?_)
    have hscale : binary32.scale = 149 := rfl
    have hfirst : 1 / 10 ^ 7 ≤ |d| := habs ▸ one_div_le_ofPlaceCount hcount
    rw [hscale, abs_lt]
    constructor
    · norm_num
    · push_cast
      linarith
  have hshown := hmagnitude.shownPlaces_eq hshort hcount (habs ▸ hlt)
  have hvalue : (Decimal.ofPlaces negative n.natAbs).value = d := by
    rw [habs] at hsign
    rw [Decimal.value_ofPlaces]
    exact hsign
  refine ⟨Decimal.ofPlaces negative n.natAbs, hvalue, ?_, ?_⟩
  · rw [hfinite, toList_display, hshown]
  · intro t' ht'
    exact Decimal.eq_of_value_eq (ht'.symm ▸ hne) (ht'.trans hvalue.symm)

/-- Just above 2 ^ 13 the error of a single comes near to half a unit of the seventh digit: that of -8192.23 is 0.00046875. -/
theorem Datum.display_nearest_single_gap :
    binary32.IsNearest (-819223 / 100) 0xC60000EC ∧ (binary32.decode 0xC60000EC).value? = some (-2097211 / 256) ∧
      ∃ t : Decimal, t.value = -819223 / 100 ∧ (binary32.decode 0xC60000EC).display.toList = t.text ∧ t.text = "-8192.23".toList := by
  have hvalue : (binary32.decode 0xC60000EC).value? = some (-2097211 / 256) := by decide +kernel
  have hrounded : (binary32.decode 0xC60000EC).value? =
      some (signed true (roundTo 2 binary32.precision (819223 * 2 ^ 149) 100 / 2 ^ binary32.scale)) := by decide +kernel
  have hnearest : binary32.IsNearest (-819223 / 100) 0xC60000EC := by
    have hsteps := Format.isNearest_of_roundTo (by decide) scale_binary32_le (by decide) hrounded
    have hd : signed true ((819223 * 2 ^ 149 : ℕ) / (100 : ℕ) / 2 ^ binary32.scale) = -819223 / 100 := by decide +kernel
    rwa [hd] at hsteps
  obtain ⟨t, ht, htext, -⟩ := Datum.display_nearest_single (n := -81922300000) (m := -819223) (e := -2) (by norm_num)
    (by norm_num [abs_of_neg]) (by norm_num) (by norm_num) (by decide) hnearest
  have hshown : (binary32.decode 0xC60000EC).display.toList = "-8192.23".toList := by decide +kernel
  exact ⟨hnearest, hvalue, t, ht, htext, htext.symm.trans hshown⟩

end FlowListing.Number
