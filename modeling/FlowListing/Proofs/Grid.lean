import Mathlib
import FlowListing.Number

/-!
# Rounding to a grid

`RoundsTo unit x v` says that `v` is the multiple of `unit` nearest to `x`, a half going to the even multiple. Such a rounding keeps the
order, leaves the grid where it is and moves a number by half a unit at most. `roundTo` rounds to a grid whose unit grows with the
number, and the grids fit together: where the unit changes, both grids hold the power of the base at which it does. So `roundTo` keeps
the order too (`roundTo_mono`), leaves a short number as it is (`roundTo_of_short`), and no short number is nearer than the one that it
gives (`abs_sub_roundTo_le`). Where another is as near, the one that it gives is an even multiple (`exists_even_roundTo_eq`).
-/

namespace FlowListing.Number

/-! ## Nearest multiples -/

/-- The value is the multiple of the unit nearest to `x`; of two that are equally near it is the even multiple. -/
def RoundsTo (unit x value : ℚ) : Prop :=
  ∃ n : ℤ, value = n * unit ∧ |x - value| ≤ unit / 2 ∧ (|x - value| = unit / 2 → Even n)

namespace RoundsTo

variable {unit x y v w : ℚ}

/-- The result is at most half a unit away. -/
theorem abs_sub_le (h : RoundsTo unit x v) : |x - v| ≤ unit / 2 := by
  obtain ⟨n, -, hle, -⟩ := h
  exact hle

/-- A multiple of the unit stays as it is. -/
theorem of_multiple (hunit : 0 < unit) (n : ℤ) : RoundsTo unit (n * unit) (n * unit) := by
  refine ⟨n, rfl, ?_, ?_⟩
  · rw [sub_self, abs_zero]
    linarith
  · intro htie
    rw [sub_self, abs_zero] at htie
    linarith

/-- Rounding keeps the order. Where the results were in the other order they would be neighbours and both numbers one, halfway between
them, so that both results would be even. -/
theorem mono (hunit : 0 < unit) (hv : RoundsTo unit x v) (hw : RoundsTo unit y w) (hxy : x ≤ y) : v ≤ w := by
  obtain ⟨n, rfl, hn, hneven⟩ := hv
  obtain ⟨m, rfl, hm, hmeven⟩ := hw
  by_contra hlt
  have hsucc : m + 1 ≤ n := by
    have hcast : (m : ℚ) < n := lt_of_mul_lt_mul_right (not_le.mp hlt) hunit.le
    exact_mod_cast hcast
  have hgap : (m + 1 : ℚ) * unit ≤ n * unit := by
    have hcast : (m + 1 : ℚ) ≤ n := by exact_mod_cast hsucc
    exact mul_le_mul_of_nonneg_right hcast hunit.le
  rw [abs_le] at hn hm
  have hx : x - n * unit = -(unit / 2) := by linarith
  have hy : y - m * unit = unit / 2 := by linarith
  have hnext : (n : ℚ) * unit = (m + 1 : ℚ) * unit := by linarith
  have hn' := hneven (by rw [hx, abs_neg, abs_of_pos (by linarith)])
  have hm' := hmeven (by rw [hy, abs_of_pos (by linarith)])
  have hnm : n = m + 1 := by exact_mod_cast mul_right_cancel₀ hunit.ne' hnext
  rw [hnm, Int.even_add_one] at hn'
  exact hn' hm'

/-- There is one result. -/
theorem unique (hunit : 0 < unit) (hv : RoundsTo unit x v) (hw : RoundsTo unit x w) : v = w :=
  le_antisymm (hv.mono hunit hw le_rfl) (hw.mono hunit hv le_rfl)

/-- A number stays on its side of a multiple of the unit. -/
theorem le_multiple (hunit : 0 < unit) (h : RoundsTo unit x v) {n : ℤ} (hx : x ≤ n * unit) : v ≤ n * unit :=
  h.mono hunit (of_multiple hunit n) hx

/-- A multiple of the unit that is below a number is below the result. -/
theorem multiple_le (hunit : 0 < unit) (h : RoundsTo unit x v) {n : ℤ} (hx : n * unit ≤ x) : n * unit ≤ v :=
  (of_multiple hunit n).mono hunit h hx

/-- A multiple of the unit less than half a unit away is the nearest. -/
theorem of_abs_sub_lt {n : ℤ} (hn : |x - n * unit| < unit / 2) : RoundsTo unit x (n * unit) := by
  refine ⟨n, rfl, hn.le, ?_⟩
  intro htie
  exact absurd htie hn.ne

/-- A multiple of the unit that is less than half a unit away is the result. -/
theorem eq_of_abs_sub_lt (h : RoundsTo unit x v) {n : ℤ} (hn : |x - n * unit| < unit / 2) : v = n * unit := by
  have hunit : 0 < unit := by linarith [abs_nonneg (x - n * unit)]
  exact h.unique hunit (of_abs_sub_lt hn)

/-- Two multiples of the unit less than a unit apart are the same. -/
theorem multiples_eq {n m : ℤ} (h : |n * unit - m * unit| < unit) : n * unit = m * unit := by
  have hunit : 0 < unit := (abs_nonneg _).trans_lt h
  have hlt : |n - m| < 1 := by
    rw [← sub_mul, abs_mul, abs_of_pos hunit, mul_lt_iff_lt_one_left hunit] at h
    exact_mod_cast h
  rw [sub_eq_zero.mp (Int.abs_lt_one_iff.mp hlt)]

/-- No multiple of the unit is nearer. -/
theorem abs_sub_le_multiple (h : RoundsTo unit x v) (n : ℤ) : |x - v| ≤ |x - n * unit| := by
  rcases lt_or_ge |x - n * unit| (unit / 2) with hnear | hfar
  · rw [h.eq_of_abs_sub_lt hnear]
  · exact h.abs_sub_le.trans hfar

/-- Where another multiple is as near, the number is halfway between the two, and its own multiple is even. -/
theorem even_of_multiple {n m : ℤ} (hunit : 0 < unit) (h : RoundsTo unit x (n * unit)) (hne : m ≠ n)
    (hnear : |x - m * unit| ≤ |x - n * unit|) : Even n := by
  obtain ⟨k, hk, hle, heven⟩ := h
  have hsame : n = k := by exact_mod_cast mul_right_cancel₀ hunit.ne' hk
  have hapart : unit ≤ |m * unit - n * unit| := by
    by_contra hlt
    have hequal := mul_right_cancel₀ hunit.ne' (multiples_eq (not_le.mp hlt))
    exact hne (by exact_mod_cast hequal)
  have htriangle := abs_add_le (m * unit - x) (x - n * unit)
  rw [sub_add_sub_cancel, abs_sub_comm _ x] at htriangle
  rw [hsame]
  exact heven (by linarith)

/-- Rounding does not depend on the scale. -/
theorem scale {factor : ℚ} (hfactor : 0 < factor) (h : RoundsTo unit x v) : RoundsTo (unit * factor) (x * factor) (v * factor) := by
  obtain ⟨n, rfl, hle, heven⟩ := h
  have hdist : |x * factor - n * unit * factor| = |x - n * unit| * factor := by
    rw [← sub_mul, abs_mul, abs_of_pos hfactor]
  refine ⟨n, by ring, ?_, ?_⟩
  · rw [hdist, mul_div_right_comm]
    exact mul_le_mul_of_nonneg_right hle hfactor.le
  · intro htie
    rw [hdist, mul_div_right_comm] at htie
    exact heven (mul_right_cancel₀ hfactor.ne' htie)

/-- Rounding does not depend on the sign. -/
theorem neg (h : RoundsTo unit x v) : RoundsTo unit (-x) (-v) := by
  obtain ⟨n, rfl, hle, heven⟩ := h
  have hdist : |-x - -(n * unit)| = |x - n * unit| := by rw [neg_sub_neg, abs_sub_comm]
  refine ⟨-n, by push_cast; ring, hdist ▸ hle, ?_⟩
  intro htie
  rw [even_neg]
  exact heven (hdist ▸ htie)

end RoundsTo

/-! ## The rounded quotient -/

/-- Rounding a quotient of natural numbers rounds it to a whole number. -/
theorem roundsTo_roundDiv (num : ℕ) {den : ℕ} (hden : 0 < den) : RoundsTo 1 (num / den) (roundDiv num den) := by
  have hpos : (0 : ℚ) < den := by exact_mod_cast hden
  have hsplit : (num : ℚ) / den = (num / den : ℕ) + ((num % den : ℕ) : ℚ) / den := by
    rw [div_eq_iff hpos.ne', add_mul, div_mul_cancel₀ _ hpos.ne']
    exact_mod_cast (Nat.div_add_mod' num den).symm
  have hrest : ((num % den : ℕ) : ℚ) / den < 1 := by
    rw [div_lt_one hpos]
    exact_mod_cast Nat.mod_lt num hden
  unfold roundDiv
  simp only []
  rw [hsplit]
  generalize num / den = quotient
  generalize num % den = rest at hrest
  have hnonneg : (0 : ℚ) ≤ rest / den := by positivity
  split_ifs with hdown hup
  · have hhalf : (rest : ℚ) / den < 1 / 2 := by
      rw [div_lt_div_iff₀ hpos two_pos, one_mul, mul_comm]
      exact_mod_cast hdown
    have hnear : RoundsTo 1 (quotient + (rest : ℚ) / den) ((quotient : ℤ) * 1) := by
      refine RoundsTo.of_abs_sub_lt ?_
      rw [Int.cast_natCast, mul_one, add_sub_cancel_left, abs_of_nonneg hnonneg]
      exact hhalf
    simpa using hnear
  · have hhalf : 1 / 2 < (rest : ℚ) / den := by
      rw [div_lt_div_iff₀ two_pos hpos, one_mul, mul_comm _ 2]
      exact_mod_cast hup
    have hnear : RoundsTo 1 (quotient + (rest : ℚ) / den) ((quotient + 1 : ℤ) * 1) := by
      refine RoundsTo.of_abs_sub_lt ?_
      push_cast
      rw [mul_one, add_sub_add_left_eq_sub, abs_of_neg (by linarith)]
      linarith
    simpa using hnear
  · have hhalf : (rest : ℚ) / den = 1 / 2 := by
      rw [div_eq_div_iff hpos.ne' two_ne_zero, one_mul, mul_comm]
      exact_mod_cast Nat.le_antisymm (Nat.le_of_not_lt hup) (Nat.le_of_not_lt hdown)
    refine ⟨(quotient + quotient % 2 : ℕ), by rw [Int.cast_natCast, mul_one], ?_, ?_⟩
    · have hparity : ((quotient % 2 : ℕ) : ℚ) = 0 ∨ ((quotient % 2 : ℕ) : ℚ) = 1 := by
        exact_mod_cast Nat.mod_two_eq_zero_or_one quotient
      rw [hhalf, Nat.cast_add, add_sub_add_left_eq_sub, abs_le]
      rcases hparity with hparity | hparity
      · rw [hparity]
        norm_num
      · rw [hparity]
        norm_num
    · intro _
      rw [Int.even_coe_nat, Nat.even_iff]
      omega

/-! ## The last place -/

section LastPlace

variable {base digits n m : ℕ}

theorem lastPlace_eq (base digits n : ℕ) : lastPlace base digits n = base ^ (numeralLength base n - digits) := rfl

/-- The last place is not zero. -/
theorem lastPlace_pos (hbase : 1 < base) (digits n : ℕ) : 0 < lastPlace base digits n :=
  Nat.pow_pos (Nat.zero_lt_of_lt hbase)

/-- A number of at most `digits + j` digits has its last place at the power `j` or below. -/
theorem numeralLength_sub_le (hbase : 1 < base) (hdigits : 0 < digits) {j : ℕ} (hn : n < base ^ (digits + j)) :
    numeralLength base n - digits ≤ j := by
  have hlength := (Nat.length_toDigits_le_iff hbase (by omega : 0 < digits + j)).mpr hn
  unfold numeralLength
  omega

/-- The last place of a number with so many digits more divides that power of the base. -/
theorem lastPlace_dvd_pow (hbase : 1 < base) (hdigits : 0 < digits) {j : ℕ} (hn : n < base ^ (digits + j)) :
    lastPlace base digits n ∣ base ^ j :=
  Nat.pow_dvd_pow base (numeralLength_sub_le hbase hdigits hn)

/-- A number is less than so many digits at its last place can count. -/
theorem lt_pow_mul_lastPlace (hbase : 1 < base) (digits n : ℕ) : n < base ^ digits * lastPlace base digits n := by
  have hlt : n < base ^ numeralLength base n :=
    (Nat.length_toDigits_le_iff hbase Nat.length_toDigits_pos).mp le_rfl
  rw [lastPlace_eq, ← pow_add]
  exact hlt.trans_le (Nat.pow_le_pow_right (Nat.zero_lt_of_lt hbase) (by omega))

/-- A number that fills the digits in front of a power of the base has its last place there. -/
theorem numeralLength_sub_eq (hbase : 1 < base) (hdigits : 0 < digits) {j : ℕ} (hlow : base ^ (digits - 1) * base ^ j ≤ n)
    (hhigh : n < base ^ digits * base ^ j) : numeralLength base n - digits = j := by
  refine le_antisymm (numeralLength_sub_le hbase hdigits (by rwa [pow_add])) ?_
  have hlast := hlow.trans_lt (lt_pow_mul_lastPlace hbase digits n)
  rw [lastPlace_eq, ← pow_add, ← pow_add, Nat.pow_lt_pow_iff_right hbase] at hlast
  omega

/-- A number that fills the digits does so with its first digit other than zero. -/
theorem pow_mul_lastPlace_le (hbase : 1 < base) (hn : base ^ (digits - 1) ≤ n) (hdigits : 0 < digits) :
    base ^ (digits - 1) * lastPlace base digits n ≤ n := by
  rw [lastPlace_eq, ← pow_add]
  rcases le_or_gt (numeralLength base n) digits with hshort | hlong
  · rwa [Nat.sub_eq_zero_of_le hshort, add_zero]
  · by_contra hlt
    have hlength := (Nat.length_toDigits_le_iff hbase (by omega)).mpr (not_le.mp hlt)
    unfold numeralLength at hlong hlength
    omega

/-- The last place moves by whole powers of the base. -/
theorem lastPlace_mono (hbase : 1 < base) (h : n ≤ m) :
    lastPlace base digits n = lastPlace base digits m ∨ base * lastPlace base digits n ≤ lastPlace base digits m := by
  have hlength : numeralLength base n ≤ numeralLength base m :=
    (Nat.length_toDigits_le_iff hbase Nat.length_toDigits_pos).mpr
      (h.trans_lt ((Nat.length_toDigits_le_iff hbase Nat.length_toDigits_pos).mp le_rfl))
  rw [lastPlace_eq, lastPlace_eq, ← Nat.pow_succ']
  rcases Nat.eq_or_lt_of_le (Nat.sub_le_sub_right hlength digits) with heq | hlt
  · exact .inl (by rw [heq])
  · exact .inr (Nat.pow_le_pow_right (Nat.zero_lt_of_lt hbase) hlt)

/-- Where it moves, the number fills the digits. -/
theorem pow_le_of_one_lt_lastPlace (hbase : 1 < base) (hdigits : 0 < digits) (h : 1 < lastPlace base digits n) :
    base ^ (digits - 1) ≤ n := by
  by_contra hlt
  have hshort := numeralLength_sub_le hbase hdigits (j := 0)
    ((not_le.mp hlt).trans (Nat.pow_lt_pow_right hbase (by omega)))
  rw [lastPlace_eq, Nat.le_zero.mp hshort] at h
  exact absurd h (by simp)

/-- A short number is its significand times its last place; where the last place has moved, the significand fills the digits. -/
theorem exists_significand (hbase : 1 < base) (hdigits : 0 < digits) (hm : m < base ^ digits) (j : ℕ) :
    ∃ significand, m * base ^ j = significand * lastPlace base digits (m * base ^ j) ∧ significand < base ^ digits ∧
      (1 < lastPlace base digits (m * base ^ j) → base ^ (digits - 1) ≤ significand) := by
  have hlt : m * base ^ j < base ^ (digits + j) := by
    rw [pow_add]
    exact Nat.mul_lt_mul_of_pos_right hm (Nat.pow_pos (Nat.zero_lt_of_lt hbase))
  obtain ⟨significand, hsplit⟩ : lastPlace base digits (m * base ^ j) ∣ m * base ^ j :=
    (lastPlace_dvd_pow hbase hdigits hlt).mul_left m
  have hpos := lastPlace_pos hbase digits (m * base ^ j)
  rw [mul_comm (lastPlace base digits (m * base ^ j))] at hsplit
  refine ⟨significand, hsplit, ?_, ?_⟩
  · have hhigh := lt_pow_mul_lastPlace hbase digits (m * base ^ j)
    exact Nat.lt_of_mul_lt_mul_right (hsplit.symm.trans_lt hhigh)
  · intro hmoved
    have hlow := pow_mul_lastPlace_le hbase (pow_le_of_one_lt_lastPlace hbase hdigits hmoved) hdigits
    exact Nat.le_of_mul_le_mul_right (hlow.trans hsplit.le) hpos

end LastPlace

/-! ## Rounding to digits -/

section RoundTo

variable {base digits num den num' den' : ℕ}

/-- The quotient in front of its integer part. -/
theorem floor_le_div (num den : ℕ) : ((num / den : ℕ) : ℚ) ≤ num / den :=
  Nat.cast_div_le

/-- A quotient is less than one above its whole part. -/
theorem div_lt_floor_add_one (num : ℕ) (hden : 0 < den) : (num : ℚ) / den < (num / den : ℕ) + 1 := by
  have hpos : (0 : ℚ) < den := by exact_mod_cast hden
  rw [div_lt_iff₀ hpos]
  exact_mod_cast (Nat.div_lt_iff_lt_mul hden).mp (Nat.lt_succ_self (num / den))

/-- A quotient is rounded to its last place. -/
theorem roundsTo_roundTo (hbase : 1 < base) (digits num : ℕ) (hden : 0 < den) :
    RoundsTo (lastPlace base digits (num / den)) (num / den) (roundTo base digits num den) := by
  have hunit : (0 : ℚ) < lastPlace base digits (num / den) := by exact_mod_cast lastPlace_pos hbase digits _
  have hpos : (0 : ℚ) < den := by exact_mod_cast hden
  have h := (roundsTo_roundDiv num (Nat.mul_pos hden (lastPlace_pos hbase digits (num / den)))).scale hunit
  have hquotient : (num : ℚ) / (den * lastPlace base digits (num / den) : ℕ) * lastPlace base digits (num / den) = num / den := by
    push_cast
    field_simp
  rw [hquotient, one_mul] at h
  simpa [roundTo] using h

/-- The result is at most the power of the base at which the next unit takes over. -/
theorem roundTo_le (hbase : 1 < base) (digits num : ℕ) (hden : 0 < den) :
    roundTo base digits num den ≤ base ^ digits * lastPlace base digits (num / den) := by
  have hunit : (0 : ℚ) < lastPlace base digits (num / den) := by exact_mod_cast lastPlace_pos hbase digits _
  have hfloor : num / den + 1 ≤ base ^ digits * lastPlace base digits (num / den) := lt_pow_mul_lastPlace hbase digits _
  have hbound : (num : ℚ) / den ≤ (base ^ digits : ℕ) * lastPlace base digits (num / den) := by
    refine (div_lt_floor_add_one num hden).le.trans ?_
    exact_mod_cast hfloor
  rw [← Int.cast_natCast (base ^ digits)] at hbound
  exact_mod_cast (roundsTo_roundTo hbase digits num hden).le_multiple hunit hbound

/-- The result has at most `digits` digits in front of its unit; where it is the next power of the base, one digit in front of zeros. -/
theorem exists_roundTo_eq (hbase : 1 < base) (hdigits : 0 < digits) (num : ℕ) (hden : 0 < den) :
    ∃ m e, m < base ^ digits ∧ e ≤ digits ∧ roundTo base digits num den = m * (lastPlace base digits (num / den) * base ^ e) := by
  obtain ⟨m, hm⟩ : ∃ m, roundTo base digits num den = m * lastPlace base digits (num / den) := ⟨_, rfl⟩
  have hle := roundTo_le hbase digits num hden
  rw [hm] at hle
  rcases Nat.lt_or_eq_of_le (Nat.le_of_mul_le_mul_right hle (lastPlace_pos hbase digits _)) with hlt | hpower
  · exact ⟨m, 0, hlt, Nat.zero_le _, by rw [hm, pow_zero, mul_one]⟩
  · exact ⟨1, digits, Nat.one_lt_pow hdigits.ne' hbase, le_rfl, by rw [hm, hpower, one_mul, mul_comm]⟩

/-- And at least the power at which its own unit did. -/
theorem le_roundTo (hbase : 1 < base) (hdigits : 0 < digits) (hden : 0 < den) (hfull : base ^ (digits - 1) ≤ num / den) :
    base ^ (digits - 1) * lastPlace base digits (num / den) ≤ roundTo base digits num den := by
  have hunit : (0 : ℚ) < lastPlace base digits (num / den) := by exact_mod_cast lastPlace_pos hbase digits _
  have hbound : (base ^ (digits - 1) : ℕ) * (lastPlace base digits (num / den) : ℚ) ≤ num / den := by
    refine le_trans ?_ (floor_le_div num den)
    exact_mod_cast pow_mul_lastPlace_le hbase hfull hdigits
  rw [← Int.cast_natCast (base ^ (digits - 1))] at hbound
  exact_mod_cast (roundsTo_roundTo hbase digits num hden).multiple_le hunit hbound

/-- Rounding to digits moves a number by half a unit at most, and the unit is small beside a number that fills the digits. -/
theorem abs_sub_roundTo_le_max (hbase : 1 < base) (hdigits : 0 < digits) (num : ℕ) (hden : 0 < den) :
    |(num : ℚ) / den - roundTo base digits num den| ≤ max 1 ((num : ℚ) / den / base ^ (digits - 1)) / 2 := by
  refine (roundsTo_roundTo hbase digits num hden).abs_sub_le.trans (div_le_div_of_nonneg_right ?_ two_pos.le)
  rcases le_or_gt (lastPlace base digits (num / den)) 1 with hone | hmoved
  · have hcast : (lastPlace base digits (num / den) : ℚ) ≤ 1 := by exact_mod_cast hone
    exact le_max_of_le_left hcast
  · have hpower : (0 : ℚ) < base ^ (digits - 1) := by
      have hpos : (0 : ℚ) < base := by exact_mod_cast Nat.zero_lt_of_lt hbase
      positivity
    have hlow := pow_mul_lastPlace_le hbase (pow_le_of_one_lt_lastPlace hbase hdigits hmoved) hdigits
    have hcast : (base : ℚ) ^ (digits - 1) * lastPlace base digits (num / den) ≤ (num / den : ℕ) := by exact_mod_cast hlow
    exact le_max_of_le_right ((le_div_iff₀' hpower).mpr (hcast.trans (floor_le_div num den)))

/-- Rounding to digits keeps the order. -/
theorem roundTo_mono (hbase : 1 < base) (hdigits : 0 < digits) (hden : 0 < den) (hden' : 0 < den')
    (h : (num : ℚ) / den ≤ num' / den') : roundTo base digits num den ≤ roundTo base digits num' den' := by
  have hfloor : num / den ≤ num' / den' := by
    have hlt := (floor_le_div num den).trans_lt (h.trans_lt (div_lt_floor_add_one num' hden'))
    exact Nat.le_of_lt_succ (by exact_mod_cast hlt)
  rcases lastPlace_mono hbase hfloor with hsame | hcoarser
  · have hunit : (0 : ℚ) < lastPlace base digits (num' / den') := by exact_mod_cast lastPlace_pos hbase digits _
    have hround := roundsTo_roundTo hbase digits num hden
    rw [hsame] at hround
    exact_mod_cast hround.mono hunit (roundsTo_roundTo hbase digits num' hden') h
  · have hmoved : 1 < lastPlace base digits (num' / den') := by
      have hpos := lastPlace_pos hbase digits (num / den)
      nlinarith
    calc roundTo base digits num den
        ≤ base ^ digits * lastPlace base digits (num / den) := roundTo_le hbase digits num hden
      _ = base ^ (digits - 1) * (base * lastPlace base digits (num / den)) := by
          rw [← mul_assoc, ← pow_succ, Nat.sub_add_cancel hdigits]
      _ ≤ base ^ (digits - 1) * lastPlace base digits (num' / den') := Nat.mul_le_mul_left _ hcoarser
      _ ≤ roundTo base digits num' den' :=
          le_roundTo hbase hdigits hden' (pow_le_of_one_lt_lastPlace hbase hdigits hmoved)

/-- A short number that is finer than the grid of the quotient lies below the power of the base where that grid starts, and so farther
away than the rounded one. -/
theorem abs_sub_roundTo_lt (hbase : 1 < base) (hdigits : 0 < digits) (num : ℕ) (hden : 0 < den) {m j : ℕ} (hm : m < base ^ digits)
    (hj : j < numeralLength base (num / den) - digits) :
    |(num : ℚ) / den - roundTo base digits num den| < |(num : ℚ) / den - (m * base ^ j : ℕ)| := by
  have hround := roundsTo_roundTo hbase digits num hden
  have hunit := lastPlace_eq base digits (num / den)
  set unit := lastPlace base digits (num / den) with hset
  have hlarge : base ^ (digits - 1) ≤ num / den := by
    refine pow_le_of_one_lt_lastPlace hbase hdigits ?_
    rw [← hset, hunit]
    exact Nat.one_lt_pow (by omega) hbase
  have hstart : base ^ (digits - 1) * unit ≤ num / den := pow_mul_lastPlace_le hbase hlarge hdigits
  have hbelow : m * base ^ j < base ^ (digits - 1) * unit := by
    calc m * base ^ j < base ^ digits * base ^ j := Nat.mul_lt_mul_of_pos_right hm (Nat.pow_pos (Nat.zero_lt_of_lt hbase))
      _ = base ^ (digits - 1) * base ^ (j + 1) := by rw [← pow_add, ← pow_add]; congr 1; omega
      _ ≤ base ^ (digits - 1) * unit := by
          rw [hunit]
          exact Nat.mul_le_mul_left _ (Nat.pow_le_pow_right (Nat.zero_lt_of_lt hbase) hj)
  have hnear := hround.abs_sub_le_multiple (base ^ (digits - 1) : ℕ)
  have hfloor := floor_le_div num den
  have hstart' : ((base ^ (digits - 1) : ℕ) : ℚ) * unit ≤ (num / den : ℕ) := by exact_mod_cast hstart
  have hbelow' : ((m * base ^ j : ℕ) : ℚ) < ((base ^ (digits - 1) : ℕ) : ℚ) * unit := by exact_mod_cast hbelow
  rw [Int.cast_natCast, abs_of_nonneg (by linarith : (0 : ℚ) ≤ num / den - ((base ^ (digits - 1) : ℕ) : ℚ) * unit)] at hnear
  rw [abs_of_nonneg (by linarith : (0 : ℚ) ≤ num / den - (m * base ^ j : ℕ))]
  linarith

/-- A number that is not finer than the grid of the quotient lies on it. -/
theorem exists_multiple_of_le (base digits n m : ℕ) {j : ℕ} (hj : numeralLength base n - digits ≤ j) :
    ∃ count : ℤ, ((m * base ^ j : ℕ) : ℚ) = count * lastPlace base digits n := by
  obtain ⟨count, hcount⟩ : lastPlace base digits n ∣ m * base ^ j := (Nat.pow_dvd_pow base hj).mul_left m
  refine ⟨count, ?_⟩
  rw [hcount]
  push_cast
  ring

/-- No short number is nearer to the quotient than the rounded one. -/
theorem abs_sub_roundTo_le (hbase : 1 < base) (hdigits : 0 < digits) (num : ℕ) (hden : 0 < den) {m j : ℕ} (hm : m < base ^ digits) :
    |(num : ℚ) / den - roundTo base digits num den| ≤ |(num : ℚ) / den - (m * base ^ j : ℕ)| := by
  rcases le_or_gt (numeralLength base (num / den) - digits) j with hgrid | hfine
  · obtain ⟨count, hcount⟩ := exists_multiple_of_le base digits (num / den) m hgrid
    rw [hcount]
    exact (roundsTo_roundTo hbase digits num hden).abs_sub_le_multiple count
  · exact (abs_sub_roundTo_lt hbase hdigits num hden hm hfine).le

/-- A number of at most `digits` digits, zeros behind them apart, stays as it is. -/
theorem roundTo_of_short (hbase : 1 < base) (hdigits : 0 < digits) (hden : 0 < den) {m j : ℕ} (hm : m < base ^ digits)
    (h : num = m * base ^ j * den) : roundTo base digits num den = m * base ^ j := by
  have hpos : (0 : ℚ) < den := by exact_mod_cast hden
  have hquotient : (num : ℚ) / den = (m * base ^ j : ℕ) := by
    rw [h, Nat.cast_mul, mul_div_cancel_right₀ _ hpos.ne']
  have hnear := abs_sub_roundTo_le hbase hdigits num hden hm (j := j)
  rw [hquotient, sub_self, abs_zero, abs_nonpos_iff, sub_eq_zero] at hnear
  exact_mod_cast hnear.symm

/-- Where another short number is as near, the rounded one is an even multiple of its unit. -/
theorem exists_even_roundTo_eq (hbase : 1 < base) (hdigits : 0 < digits) (num : ℕ) (hden : 0 < den) {m j : ℕ} (hm : m < base ^ digits)
    (hne : m * base ^ j ≠ roundTo base digits num den)
    (hnear : |(num : ℚ) / den - (m * base ^ j : ℕ)| ≤ |(num : ℚ) / den - roundTo base digits num den|) :
    ∃ n, Even n ∧ roundTo base digits num den = n * lastPlace base digits (num / den) := by
  rcases le_or_gt (numeralLength base (num / den) - digits) j with hgrid | hfine
  · obtain ⟨count, hcount⟩ := exists_multiple_of_le base digits (num / den) m hgrid
    have hround := roundsTo_roundTo hbase digits num hden
    have hunit : (0 : ℚ) < lastPlace base digits (num / den) := by exact_mod_cast lastPlace_pos hbase digits _
    obtain ⟨n, hn⟩ : ∃ n, roundTo base digits num den = n * lastPlace base digits (num / den) := ⟨_, rfl⟩
    have hvalue : (roundTo base digits num den : ℚ) = (n : ℤ) * lastPlace base digits (num / den) := by exact_mod_cast hn
    have hother : count ≠ n := by
      rintro rfl
      rw [← hvalue] at hcount
      exact hne (by exact_mod_cast hcount)
    rw [hvalue] at hround
    rw [hvalue, hcount] at hnear
    exact ⟨n, (Int.even_coe_nat n).mp (hround.even_of_multiple hunit hother hnear), hn⟩
  · exact absurd (abs_sub_roundTo_lt hbase hdigits num hden hm hfine) (not_lt.mpr hnear)

end RoundTo

end FlowListing.Number
