import Mathlib
import FlowListing.Script
import FlowListing.Proofs.BinaryFormat
import FlowListing.Proofs.Walk

/-!
# Numbers in a slot

A slot carries a number in single precision. Every single is a double (`exists_wide`), and the pattern of a number of the format comes
back when the number is encoded (`encode_decode`). Any other double is rounded: it is too large exactly from half a unit above the
largest single on (`encode_eq_none_iff`), because that half goes to the next power of two, and below this its pattern is that of the
nearest single, of two nearest the one with the even significand (`isNearestEven_of_encode`). `Slot.ofReal_correctly_rounded` puts this
together for slots.
-/

namespace FlowListing.Number

attribute [local irreducible] quantumScale quantaPerUnit

/-! ## The overflow threshold -/

/-- Half a unit below a power of two, the quotient is as near to the power as to the number before it, and the power is even. -/
theorem roundsTo_half_below_pow {digits : ℕ} (hdigits : 0 < digits) (j : ℕ) :
    RoundsTo (2 ^ j) ((2 ^ (digits + 1) - 1) * 2 ^ j / 2) (2 ^ digits * 2 ^ j) := by
  have hunit : (0 : ℚ) < 2 ^ j := by positivity
  have hhalf : ((2 : ℚ) ^ (digits + 1) - 1) * 2 ^ j / 2 - 2 ^ digits * 2 ^ j = -(2 ^ j / 2) := by
    rw [pow_succ]
    ring
  refine ⟨2 ^ digits, by push_cast; rfl, ?_, ?_⟩
  · rw [hhalf, abs_neg, abs_of_pos (by positivity)]
  · intro _
    exact Int.even_pow.mpr ⟨even_two, hdigits.ne'⟩

section Threshold

variable {digits den : ℕ}

/-- From there on, the integer part of the quotient fills the digits. -/
theorem le_floor_of_half_below_pow (hdigits : 0 < digits) (num : ℕ) (hden : 0 < den) (j : ℕ)
    (hle : ((2 : ℚ) ^ (digits + 1) - 1) * 2 ^ j / 2 ≤ num / den) : 2 ^ (digits - 1) * 2 ^ j ≤ num / den := by
  have hunit : (0 : ℚ) < 2 ^ j := by positivity
  have hdouble : (2 : ℚ) ^ digits = 2 * 2 ^ (digits - 1) := by rw [← pow_succ', Nat.sub_add_cancel hdigits]
  have hone : 1 * (2 : ℚ) ^ j ≤ 2 ^ digits * 2 ^ j := mul_le_mul_of_nonneg_right (one_le_pow₀ (by norm_num)) hunit.le
  have hreach : (2 : ℚ) ^ (digits - 1) * 2 ^ j < (num / den : ℕ) + 1 := by
    refine lt_of_le_of_lt (le_trans ?_ hle) (div_lt_floor_add_one num hden)
    rw [pow_succ', le_div_iff₀ two_pos]
    rw [hdouble] at hone ⊢
    linarith
  exact Nat.lt_succ_iff.mp (by exact_mod_cast hreach)

/-- A quotient rounds to a power of two, or past it, exactly from half a unit below the power on. There the number before the power is no
nearer, although it lies on the near side. -/
theorem pow_le_roundTo_iff (hdigits : 0 < digits) (num : ℕ) (hden : 0 < den) (j : ℕ) :
    2 ^ (digits + j) ≤ roundTo 2 digits num den ↔ ((2 : ℚ) ^ (digits + 1) - 1) * 2 ^ j / 2 ≤ num / den := by
  constructor
  · intro hle
    have hbefore : 2 ^ digits - 1 < 2 ^ digits := Nat.sub_lt (Nat.two_pow_pos _) one_pos
    have hnear := abs_sub_roundTo_le one_lt_two hdigits num hden hbefore (j := j)
    have hvalue : (((2 ^ digits - 1) * 2 ^ j : ℕ) : ℚ) = (2 ^ digits - 1) * 2 ^ j := by
      rw [Nat.cast_mul, Nat.cast_sub (Nat.one_le_two_pow)]
      push_cast
      rfl
    have hle' : (2 : ℚ) ^ digits * 2 ^ j ≤ roundTo 2 digits num den := by
      rw [← pow_add]
      exact_mod_cast hle
    have hunit : (0 : ℚ) < 2 ^ j := by positivity
    rw [hvalue] at hnear
    rw [pow_succ']
    by_contra hlt
    rw [abs_of_nonpos (by linarith)] at hnear
    rcases abs_cases ((num : ℚ) / den - (2 ^ digits - 1) * 2 ^ j) with ⟨habs, -⟩ | ⟨habs, -⟩
    · rw [habs] at hnear
      linarith
    · rw [habs] at hnear
      linarith
  · intro hle
    rcases le_or_gt (2 ^ (digits + j)) (num / den) with hlarge | hsmall
    · have hone : (1 : ℕ) < 2 ^ digits := Nat.one_lt_two_pow hdigits.ne'
      have hself := roundTo_of_short one_lt_two hdigits one_pos hone (j := digits + j) (mul_one _).symm
      rw [one_mul] at hself
      rw [← hself]
      refine roundTo_mono one_lt_two hdigits one_pos hden ?_
      rw [Nat.cast_one, div_one]
      exact le_trans (by exact_mod_cast hlarge) (floor_le_div num den)
    · -- below the power, the unit is the one that belongs to it
      have hlow := le_floor_of_half_below_pow hdigits num hden j hle
      rw [pow_add] at hsmall ⊢
      have hround := roundsTo_roundTo one_lt_two digits num hden
      rw [lastPlace_eq, numeralLength_sub_eq one_lt_two hdigits hlow hsmall] at hround
      push_cast at hround
      have hmono := (roundsTo_half_below_pow hdigits j).mono (by positivity) hround hle
      exact_mod_cast hmono

end Threshold

namespace Format

variable {f : Format} {negative : Bool} {num den quanta bits : ℕ}

/-! ## Patterns that come back -/

/-- A pattern is made of its sign and its magnitude. -/
theorem withSign_of_lt (h : bits < 2 * f.signBit) : f.withSign (bits / f.signBit % 2 == 1) (bits % f.signBit) = bits := by
  have hsplit := Nat.div_add_mod bits f.signBit
  have hquotient : bits / f.signBit < 2 := Nat.div_lt_of_lt_mul (by rwa [mul_comm])
  generalize bits / f.signBit = quotient at *
  unfold withSign
  interval_cases quotient
  · simpa using hsplit
  · simpa using hsplit

/-- The pattern of a number comes back when the number is encoded. Only a NaN loses its own. -/
theorem encode_decode (hprecision : 0 < f.precision) (hbits : bits < 2 * f.signBit) (hnumber : bits % f.signBit ≤ f.infinityBits) :
    f.encode (f.decode bits) = some bits := by
  have hback := withSign_of_lt hbits
  unfold decode
  simp only
  rcases Nat.lt_or_eq_of_le hnumber with hfinite | hinfinite
  · obtain ⟨m, e, hm, hsteps⟩ := exists_short_stepsOfBits hprecision (bits % f.signBit)
    have hround : roundTo 2 f.precision (f.stepsOfBits (bits % f.signBit) * f.stepQuanta) f.stepQuanta =
        f.stepsOfBits (bits % f.signBit) := by
      rw [hsteps]
      exact roundTo_of_short one_lt_two hprecision stepQuanta_pos hm rfl
    rw [if_pos hfinite, encode]
    simp only [hround, bitsOfSteps_stepsOfBits hprecision]
    rw [if_pos hfinite, hback]
  · rw [hinfinite] at hback
    rw [if_neg (Nat.not_lt.mpr hinfinite.ge), if_pos hinfinite, encode, hback]

/-! ## Rounding to the format -/

/-- The significand of a pattern: its fraction, with the leading one put back unless the exponent field is zero. -/
def significand (f : Format) (bits : ℕ) : ℕ :=
  (if bits % f.signBit < 2 ^ (f.precision - 1) then 0 else 2 ^ (f.precision - 1)) + bits % 2 ^ (f.precision - 1)

/-- The pattern is that of a number nearest to `d`, and if the format has another that is as near, its significand is even. -/
def IsNearestEven (f : Format) (d : ℚ) (bits : ℕ) : Prop :=
  f.IsNearest d bits ∧
    ∀ v y, (f.decode bits).value? = some v → f.Has y → y ≠ v → |y - d| = |v - d| → Even (f.significand bits)

/-- The first significand of a binade is even. -/
theorem even_two_pow (hprecision : 2 ≤ f.precision) : Even (2 ^ (f.precision - 1)) :=
  Nat.even_pow.mpr ⟨even_two, by omega⟩

/-- A pattern with an even magnitude has an even significand: the leading one that is put back is not the last bit. -/
theorem even_significand_withSign (hprecision : 2 ≤ f.precision) (negative : Bool) {magnitude : ℕ} (h : Even magnitude) :
    Even (f.significand (f.withSign negative magnitude)) := by
  have hunit := even_two_pow hprecision
  have hsign : Even f.signBit := Nat.even_pow.mpr ⟨even_two, by omega⟩
  have hbits : Even (f.withSign negative magnitude) := by
    unfold withSign
    split
    · exact hsign.add h
    · exact h
  have hfraction : Even (f.withSign negative magnitude % 2 ^ (f.precision - 1)) := (Even.mod_even_iff hunit).mpr hbits
  unfold significand
  split
  · rwa [zero_add]
  · exact hunit.add hfraction

/-- The pattern of a rounded quotient, in terms of the multiple of the unit that it is. -/
theorem bitsOfSteps_roundTo (hprecision : 0 < f.precision) (hden : 0 < den) {n : ℕ}
    (hn : roundTo 2 f.precision num den = n * lastPlace 2 f.precision (num / den)) :
    f.bitsOfSteps (roundTo 2 f.precision num den) = (numeralLength 2 (num / den) - f.precision) * 2 ^ (f.precision - 1) + n := by
  have hpos := lastPlace_pos one_lt_two f.precision (num / den)
  have hle := roundTo_le one_lt_two f.precision num hden
  rw [hn] at hle ⊢
  refine bitsOfSteps_mul_pow hprecision _ (Nat.le_of_mul_le_mul_right hle hpos) ?_
  intro hmoved
  have hfull := pow_le_of_one_lt_lastPlace one_lt_two hprecision (n := num / den) (Nat.one_lt_pow hmoved one_lt_two)
  have hlow := le_roundTo one_lt_two hprecision hden hfull
  rw [hn] at hlow
  exact Nat.le_of_mul_le_mul_right hlow hpos

/-- A rounded quotient is a number of the format as long as its pattern is finite. -/
theorem decode_roundTo (hprecision : 0 < f.precision) (negative : Bool) (num : ℕ) (hden : 0 < den)
    (hfinite : f.bitsOfSteps (roundTo 2 f.precision num den) < f.infinityBits) :
    f.decode (f.withSign negative (f.bitsOfSteps (roundTo 2 f.precision num den))) =
      .finite negative (roundTo 2 f.precision num den * f.stepQuanta) := by
  obtain ⟨m, e, hm, -, hvalue⟩ := exists_roundTo_eq one_lt_two hprecision num hden
  rw [lastPlace_eq, ← pow_add] at hvalue
  rw [decode_withSign negative hfinite, hvalue, stepsOfBits_bitsOfSteps hprecision hm]

/-- A number of the format that is as near to a quotient as the rounded one, and another, has another magnitude too: with the other sign,
zero would be nearer. -/
theorem ne_roundTo_of_equally_near (hprecision : 0 < f.precision) (hden : 0 < den) {sign : Bool} {steps : ℕ}
    (hne : signed sign (steps / 2 ^ f.scale) ≠ signed negative (roundTo 2 f.precision num den / 2 ^ f.scale))
    (hnear : |signed sign (steps / 2 ^ f.scale) - signed negative (num / den / 2 ^ f.scale)| ≤
      |(num : ℚ) / den - roundTo 2 f.precision num den| / 2 ^ f.scale) : steps ≠ roundTo 2 f.precision num den := by
  rintro rfl
  have hother : sign = !negative := by
    cases sign <;> cases negative
    · exact absurd rfl hne
    · rfl
    · rfl
    · exact absurd rfl hne
  have hquotient : (0 : ℚ) ≤ num / den := by positivity
  have hzero := abs_sub_roundTo_le one_lt_two hprecision num hden (Nat.two_pow_pos f.precision) (j := 0)
  rw [zero_mul, Nat.cast_zero, sub_zero, abs_of_nonneg hquotient] at hzero
  rw [hother, abs_signed_not_sub_eq f negative (Nat.cast_nonneg _) hquotient, div_le_div_iff_of_pos_right (by positivity)] at hnear
  have hnothing : (roundTo 2 f.precision num den : ℚ) = 0 := le_antisymm (by linarith) (Nat.cast_nonneg _)
  apply hne
  rw [hnothing, zero_div, signed, signed, neg_zero, ite_self, ite_self]

/-- The pattern of a rounded quotient is nearest, and even where there are two. -/
theorem isNearestEven_of_roundTo (hprecision : 2 ≤ f.precision) (hscale : f.scale ≤ quantumScale) (negative : Bool) (num : ℕ)
    (hden : 0 < den) (hfinite : f.bitsOfSteps (roundTo 2 f.precision num den) < f.infinityBits) :
    f.IsNearestEven (signed negative (num / den / 2 ^ f.scale))
      (f.withSign negative (f.bitsOfSteps (roundTo 2 f.precision num den))) := by
  have hpositive : 0 < f.precision := by omega
  have hvalue : (f.decode (f.withSign negative (f.bitsOfSteps (roundTo 2 f.precision num den)))).value? =
      some (signed negative (roundTo 2 f.precision num den / 2 ^ f.scale)) := by
    rw [decode_roundTo hpositive negative num hden hfinite, Datum.value?, ofQuanta_steps hscale]
  refine ⟨isNearest_of_roundTo hpositive hscale hden hvalue, ?_⟩
  intro v y hv hy hne hnear
  obtain rfl := Option.some.inj (hvalue.symm.trans hv)
  obtain ⟨sign, m, e, hm, rfl⟩ := hy.exists_short hpositive hscale
  have hcast : (m : ℚ) * 2 ^ e = (m * 2 ^ e : ℕ) := by push_cast; rfl
  rw [hcast] at hne hnear
  rw [abs_signed_sub_eq] at hnear
  have hother := ne_roundTo_of_equally_near hpositive hden hne hnear.le
  have hmagnitude : |(num : ℚ) / den - (m * 2 ^ e : ℕ)| ≤ |(num : ℚ) / den - roundTo 2 f.precision num den| := by
    have hle := le_abs_signed_sub f sign negative (Nat.cast_nonneg (m * 2 ^ e)) (by positivity : (0 : ℚ) ≤ num / den)
    rwa [hnear, div_le_div_iff_of_pos_right (by positivity)] at hle
  obtain ⟨n, heven, hn⟩ := exists_even_roundTo_eq one_lt_two hpositive num hden hm hother hmagnitude
  refine even_significand_withSign hprecision negative ?_
  rw [bitsOfSteps_roundTo hpositive hden hn]
  exact ((even_two_pow hprecision).mul_left _).add heven

/-! ## Encoding -/

/-- A finite number has no pattern exactly from half a unit above the largest number of the format on. -/
theorem encode_eq_none_iff (hprecision : 0 < f.precision) (hscale : f.scale ≤ quantumScale) {room : ℕ}
    (hroom : room + 3 = 2 ^ f.exponentBits) (negative : Bool) (quanta : ℕ) :
    f.encode (.finite negative quanta) = none ↔ (2 ^ (f.precision + 1) - 1) * 2 ^ room / 2 / 2 ^ f.scale ≤ ofQuanta quanta := by
  rw [ofQuanta_eq_div hscale, div_le_div_iff_of_pos_right (by positivity), ← pow_le_roundTo_iff hprecision quanta stepQuanta_pos]
  have hnone : f.encode (.finite negative quanta) = none ↔
      ¬f.bitsOfSteps (roundTo 2 f.precision quanta f.stepQuanta) < f.infinityBits := by
    rw [encode]
    simp
  rw [hnone, not_lt]
  constructor
  · intro hinfinite
    by_contra hlt
    exact absurd (bitsOfSteps_lt_infinityBits hprecision hroom.le (not_le.mp hlt)) (not_lt.mpr hinfinite)
  · exact infinityBits_le_bitsOfSteps hprecision hroom.ge

/-- The pattern of a finite number is that of the nearest number of the format, with the sign of the number. -/
theorem isNearestEven_of_encode (hprecision : 2 ≤ f.precision) (hscale : f.scale ≤ quantumScale)
    (h : f.encode (.finite negative quanta) = some bits) :
    f.IsNearestEven (signed negative (ofQuanta quanta)) bits ∧ bits < 2 * f.signBit ∧ (bits / f.signBit % 2 == 1) = negative := by
  rw [encode] at h
  simp only [Option.ite_none_right_eq_some, Option.some.injEq] at h
  obtain ⟨hfinite, rfl⟩ := h
  have hsign := hfinite.trans infinityBits_lt_signBit
  refine ⟨?_, withSign_lt negative hsign, (withSign_split negative hsign).1⟩
  rw [ofQuanta_eq_div hscale]
  exact isNearestEven_of_roundTo hprecision hscale negative quanta stepQuanta_pos hfinite

/-- Every single is a double. -/
theorem exists_wide (bits : ℕ) : ∃ wide < 2 * binary64.signBit, binary64.decode wide = binary32.decode bits := by
  cases hdecode : binary32.decode bits with
  | nan => exact ⟨0x7FF8000000000000, by decide, by decide⟩
  | infinite negative =>
    exact ⟨binary64.withSign negative binary64.infinityBits, withSign_lt negative infinityBits_lt_signBit,
      decode_withSign_infinityBits negative⟩
  | finite negative quanta =>
    obtain ⟨-, hfinite, hvalue⟩ := eq_of_decode_eq_finite hdecode
    obtain ⟨m, e, hm, hsteps⟩ := exists_short_stepsOfBits (f := binary32) (by decide) (bits % binary32.signBit)
    have hle := stepsOfBits_le (by decide) hfinite
    have hlargest : binary32.largestSteps ≤ 2 ^ 24 * 2 ^ 253 := Nat.mul_le_mul_right _ (Nat.sub_le _ _)
    have hquanta := stepQuanta_eq binary32
    have hgap := quantumScale_sub_scale_binary32
    generalize quantumScale - binary32.scale = gap at hquanta hgap
    rw [hsteps] at hle hvalue
    have hlt : m * 2 ^ (e + gap) < 2 ^ (binary64.precision + 2045) := by
      have hprecision : binary64.precision = 53 := rfl
      rw [pow_add, ← mul_assoc]
      calc m * 2 ^ e * 2 ^ gap ≤ 2 ^ 24 * 2 ^ 253 * 2 ^ gap := Nat.mul_le_mul_right _ (hle.trans hlargest)
        _ = 2 ^ (24 + 253 + gap) := by rw [pow_add, pow_add]
        _ < 2 ^ (binary64.precision + 2045) := Nat.pow_lt_pow_right one_lt_two (by omega)
    obtain ⟨wide, hwide, hdouble⟩ := exists_decode_of_short (f := binary64) (by decide) negative
      (hm.trans (by decide : 2 ^ 24 < 2 ^ 53)) (by decide : 2045 + 3 ≤ 2 ^ 11) hlt
    refine ⟨wide, hwide, ?_⟩
    rw [hdouble, hvalue, stepQuanta_binary64, mul_one, hquanta, pow_add, mul_assoc]

end Format

end FlowListing.Number

namespace FlowListing

open Number

/-- A number that has a pattern is the payload of a slot. -/
theorem Slot.ofReal_eq_ok {x : Datum} {bits : ℕ} (h : binary32.encode x = some bits) : Slot.ofReal x = .ok ⟨0, 0, bits⟩ := by
  rw [Slot.ofReal, h]

/-- A number that has no pattern is too large, and no other is. -/
theorem Slot.ofReal_eq_error_iff {x : Datum} : Slot.ofReal x = .error .realTooLarge ↔ binary32.encode x = none := by
  unfold Slot.ofReal
  cases binary32.encode x with
  | none => simp
  | some bits => simp

/-- Numbers go into slots and come back as single precision has it:

* a payload of 32 bits that is no NaN is read as the number of a double, and the slot made of that number has the payload again;
* a slot cannot be made of a finite double exactly when its magnitude is at least 2 ^ 128 - 2 ^ 103;
* otherwise the slot carries a single at the least distance from the double among all finite singles, with an even significand if
  another is at that distance, and with the sign bit of the double. -/
theorem Slot.ofReal_correctly_rounded :
    (∀ payload : ℕ, payload < 2 ^ 32 → payload % 2 ^ 31 ≤ 0x7F800000 → ∃ wide < 2 ^ 64,
      (Slot.mk 0 0 payload).real = .ok (binary64.decode wide) ∧ Slot.ofReal (binary64.decode wide) = .ok ⟨0, 0, payload⟩) ∧
    ∀ wide d, (binary64.decode wide).value? = some d →
      (Slot.ofReal (binary64.decode wide) = .error .realTooLarge ↔ 2 ^ 128 - 2 ^ 103 ≤ |d|) ∧
      (|d| < 2 ^ 128 - 2 ^ 103 → ∃ payload : ℕ, payload < 2 ^ 32 ∧ Slot.ofReal (binary64.decode wide) = .ok ⟨0, 0, payload⟩ ∧
        binary32.IsNearestEven d payload ∧ payload.testBit 31 = wide.testBit 63) := by
  constructor
  · intro payload hpayload hnumber
    obtain ⟨wide, hwide, hdecode⟩ := Format.exists_wide payload
    have hback := Format.encode_decode (f := binary32) (by decide) hpayload hnumber
    refine ⟨wide, hwide, ?_, ?_⟩
    · have hrange : (0 : ℤ) ≤ payload ∧ (payload : ℤ) < 0x100000000 := ⟨Int.natCast_nonneg _, by exact_mod_cast hpayload⟩
      have hword : (Slot.mk 0 0 payload).word = .ok payload := Slot.word_of_range hrange
      rw [Slot.real, hword, hdecode]
      rfl
    · rw [hdecode]
      exact Slot.ofReal_eq_ok hback
  · intro wide d hvalue
    obtain ⟨negative, quanta, hfinite, rfl⟩ := Datum.exists_of_value? hvalue
    have hthreshold : ((2 : ℚ) ^ (binary32.precision + 1) - 1) * 2 ^ 253 / 2 / 2 ^ binary32.scale = 2 ^ 128 - 2 ^ 103 := by
      have hscale : binary32.scale = 149 := rfl
      have hprecision : binary32.precision = 24 := rfl
      rw [hscale, hprecision]
      norm_num
    have hnone := Format.encode_eq_none_iff (f := binary32) (by decide) scale_binary32_le (by decide : 253 + 3 = 2 ^ 8) negative quanta
    rw [hthreshold] at hnone
    rw [hfinite, abs_signed, abs_of_nonneg (ofQuanta_nonneg quanta), Slot.ofReal_eq_error_iff]
    refine ⟨hnone, ?_⟩
    intro hsmall
    obtain ⟨payload, hencode⟩ := Option.ne_none_iff_exists'.mp (mt hnone.mp (not_le.mpr hsmall))
    obtain ⟨hnearest, hrange, hsign⟩ := Format.isNearestEven_of_encode (by decide) scale_binary32_le hencode
    obtain ⟨hwide, -, -⟩ := Format.eq_of_decode_eq_finite hfinite
    refine ⟨payload, hrange, Slot.ofReal_eq_ok hencode, hnearest, ?_⟩
    rw [Nat.testBit_eq_decide_div_mod_eq, Nat.testBit_eq_decide_div_mod_eq]
    exact hsign.trans hwide

/-- The smallest single with a sign comes back. Halfway between -16777216 and -16777218 the even significand is taken, and the first
double that is too large is halfway between the largest single and 2 ^ 128. -/
theorem Slot.ofReal_correctly_rounded_halves :
    ((Slot.mk 0 0 0x80000001).real = .ok (binary64.decode 0xB6A0000000000000) ∧
      Slot.ofReal (binary64.decode 0xB6A0000000000000) = .ok ⟨0, 0, 0x80000001⟩) ∧
    ((binary64.decode 0xC170000010000000).value? = some (-16777217) ∧
      Slot.ofReal (binary64.decode 0xC170000010000000) = .ok ⟨0, 0, 0xCB800000⟩ ∧ binary32.IsNearestEven (-16777217) 0xCB800000) ∧
    (binary64.decode 0x47EFFFFFF0000000).value? = some (2 ^ 128 - 2 ^ 103) ∧
      Slot.ofReal (binary64.decode 0x47EFFFFFF0000000) = .error .realTooLarge := by
  obtain ⟨hback, hround⟩ := Slot.ofReal_correctly_rounded
  have hreal : (Slot.mk 0 0 0x80000001).real = .ok (binary64.decode 0xB6A0000000000000) := by decide +kernel
  have hhalf : (binary64.decode 0xC170000010000000).value? = some (-16777217) := by decide +kernel
  have hpayload : Slot.ofReal (binary64.decode 0xC170000010000000) = .ok ⟨0, 0, 0xCB800000⟩ := by decide +kernel
  have hlarge : (binary64.decode 0x47EFFFFFF0000000).value? = some (2 ^ 128 - 2 ^ 103) := by decide +kernel
  obtain ⟨wide, -, hwide, hsmallest⟩ := hback 0x80000001 (by decide) (by decide)
  obtain ⟨payload, -, hmade, hnearest, -⟩ := (hround _ _ hhalf).2 (by norm_num [abs_of_neg])
  have hsame : payload = 0xCB800000 := by
    have hslot : (payload : ℤ) = 0xCB800000 := congrArg Slot.payload (Except.ok.inj (hmade.symm.trans hpayload))
    exact_mod_cast hslot
  refine ⟨⟨hreal, ?_⟩, ⟨hhalf, hpayload, hsame ▸ hnearest⟩, hlarge, (hround _ _ hlarge).1.mpr ?_⟩
  · rw [Except.ok.inj (hreal.symm.trans hwide)]
    exact hsmallest
  · exact le_abs_self _

end FlowListing
