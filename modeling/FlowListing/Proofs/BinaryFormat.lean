import Mathlib
import FlowListing.Proofs.ShownValue

/-!
# The numbers of a binary format

A finite number of a binary format is a whole number of its steps with at most `precision` significant bits (`Has.exists_short`), and
every such number up to the largest is one (`has_of_short`). The pattern of the number of steps gives it back, because a shift by
the bits too many leaves a significand whose leading bit is what the exponent field stands for (`bitsOfSteps_mul_pow`). So patterns and
numbers of steps tell each other (`stepsOfBits_bitsOfSteps`, `bitsOfSteps_stepsOfBits`).
-/

namespace FlowListing.Number

/-! ## The scales of the two formats -/

/-- A quantum is no larger than the smallest step of single precision. -/
theorem scale_binary32_le : binary32.scale ≤ quantumScale := by
  decide

/-- The smallest step of single precision is this power of two in quanta. -/
theorem quantumScale_sub_scale_binary32 : quantumScale - binary32.scale = 925 := by
  decide

/-- A quantum is the smallest step of double precision. -/
theorem scale_binary64 : binary64.scale = quantumScale := rfl

/-- The smallest step of double precision is one quantum. -/
theorem stepQuanta_binary64 : binary64.stepQuanta = 1 := by
  decide

namespace Format

attribute [local irreducible] quantumScale quantaPerUnit

variable {f : Format} {m e : ℕ}

/-- The power of two at the precision is twice the one before it. -/
theorem two_pow_precision (hprecision : 0 < f.precision) : 2 ^ f.precision = 2 * 2 ^ (f.precision - 1) := by
  rw [← pow_succ', Nat.sub_add_cancel hprecision]

/-- The significand and the exponent that a pattern has. -/
theorem stepsOfBits_of_split {exponent fraction : ℕ} (hfraction : fraction < 2 ^ (f.precision - 1)) :
    f.stepsOfBits ((exponent + 1) * 2 ^ (f.precision - 1) + fraction) = (2 ^ (f.precision - 1) + fraction) * 2 ^ exponent := by
  have hdiv : ((exponent + 1) * 2 ^ (f.precision - 1) + fraction) / 2 ^ (f.precision - 1) = exponent + 1 := by
    rw [mul_comm, Nat.mul_add_div (Nat.two_pow_pos _), Nat.div_eq_of_lt hfraction, add_zero]
  have hmod : ((exponent + 1) * 2 ^ (f.precision - 1) + fraction) % 2 ^ (f.precision - 1) = fraction := by
    rw [mul_comm, Nat.mul_add_mod, Nat.mod_eq_of_lt hfraction]
  unfold stepsOfBits
  simp only [Nat.pow_eq, hdiv, hmod]
  rw [if_neg (Nat.succ_ne_zero _), Nat.add_sub_cancel]

/-- The pattern of a subnormal number is its count of steps. -/
theorem stepsOfBits_of_lt {bits : ℕ} (h : bits < 2 ^ (f.precision - 1)) : f.stepsOfBits bits = bits := by
  unfold stepsOfBits
  simp only [Nat.pow_eq, Nat.div_eq_of_lt h, Nat.mod_eq_of_lt h, if_true]

/-- The pattern of a number of steps. The leading bit of the significand counts as one more in the exponent field, and so does the carry
of a significand that has become the next power of two. -/
theorem bitsOfSteps_mul_pow (hprecision : 0 < f.precision) {significand : ℕ} (shift : ℕ) (hle : significand ≤ 2 ^ f.precision)
    (hfull : shift ≠ 0 → 2 ^ (f.precision - 1) ≤ significand) :
    f.bitsOfSteps (significand * 2 ^ shift) = shift * 2 ^ (f.precision - 1) + significand := by
  have hdouble := two_pow_precision hprecision
  unfold bitsOfSteps
  simp only [Nat.pow_eq]
  rcases Nat.lt_or_eq_of_le hle with hlt | hcarry
  · have hshift : numeralLength 2 (significand * 2 ^ shift) - f.precision = shift := by
      rcases Nat.eq_zero_or_pos shift with rfl | hmoved
      · exact Nat.le_zero.mp (numeralLength_sub_le one_lt_two hprecision (by rwa [pow_zero, mul_one]))
      · exact numeralLength_sub_eq one_lt_two hprecision (Nat.mul_le_mul_right _ (hfull hmoved.ne'))
          (Nat.mul_lt_mul_of_pos_right hlt (Nat.two_pow_pos shift))
    rw [hshift, Nat.mul_div_cancel _ (Nat.two_pow_pos shift)]
  · have hnext : significand * 2 ^ shift = 2 ^ (f.precision - 1) * 2 ^ (shift + 1) := by
      rw [hcarry, hdouble, pow_succ]
      ring
    have hshift : numeralLength 2 (significand * 2 ^ shift) - f.precision = shift + 1 := by
      refine numeralLength_sub_eq one_lt_two hprecision hnext.ge ?_
      rw [hnext]
      exact Nat.mul_lt_mul_of_pos_right (Nat.pow_lt_pow_right one_lt_two (by omega)) (Nat.two_pow_pos _)
    rw [hshift, hnext, Nat.mul_div_cancel _ (Nat.two_pow_pos _), hcarry, hdouble]
    ring

/-- The pattern of a number of steps gives it back. -/
theorem stepsOfBits_bitsOfSteps (hprecision : 0 < f.precision) (hm : m < 2 ^ f.precision) (e : ℕ) :
    f.stepsOfBits (f.bitsOfSteps (m * 2 ^ e)) = m * 2 ^ e := by
  obtain ⟨significand, hsteps, hhigh, hlow⟩ := exists_significand one_lt_two hprecision hm e
  rw [lastPlace_eq] at hsteps hlow
  generalize numeralLength 2 (m * 2 ^ e) - f.precision = shift at *
  have hfull : shift ≠ 0 → 2 ^ (f.precision - 1) ≤ significand := fun hne => hlow (Nat.one_lt_pow hne one_lt_two)
  rw [hsteps, bitsOfSteps_mul_pow hprecision shift hhigh.le hfull]
  rcases lt_or_ge significand (2 ^ (f.precision - 1)) with hshort | hlong
  · have hzero : shift = 0 := by
      by_contra hne
      exact absurd (hfull hne) (not_le.mpr hshort)
    rw [hzero, zero_mul, zero_add, stepsOfBits_of_lt hshort, pow_zero, mul_one]
  · obtain ⟨fraction, rfl⟩ := Nat.exists_eq_add_of_le hlong
    have hfraction : fraction < 2 ^ (f.precision - 1) := by
      have hdouble := two_pow_precision hprecision
      omega
    rw [← add_assoc, ← Nat.succ_mul, stepsOfBits_of_split hfraction]

/-- And the number of steps of a pattern gives the pattern back. -/
theorem bitsOfSteps_stepsOfBits (hprecision : 0 < f.precision) (bits : ℕ) : f.bitsOfSteps (f.stepsOfBits bits) = bits := by
  have hdouble := two_pow_precision hprecision
  have hfraction : bits % 2 ^ (f.precision - 1) < 2 ^ (f.precision - 1) := Nat.mod_lt _ (Nat.two_pow_pos _)
  have hsplit := Nat.div_add_mod' bits (2 ^ (f.precision - 1))
  generalize bits / 2 ^ (f.precision - 1) = exponent at hsplit
  generalize bits % 2 ^ (f.precision - 1) = fraction at hsplit hfraction
  subst hsplit
  cases exponent with
  | zero =>
    rw [zero_mul, zero_add, stepsOfBits_of_lt hfraction]
    have hsmall := bitsOfSteps_mul_pow hprecision 0 (by omega : fraction ≤ 2 ^ f.precision) (fun hne => absurd rfl hne)
    rwa [pow_zero, mul_one, zero_mul, zero_add] at hsmall
  | succ exponent =>
    rw [stepsOfBits_of_split hfraction, bitsOfSteps_mul_pow hprecision exponent (by omega) (fun _ => Nat.le_add_right _ _), Nat.succ_mul]
    ring

/-- The steps of a pattern have at most `precision` significant bits. -/
theorem exists_short_stepsOfBits (hprecision : 0 < f.precision) (bits : ℕ) :
    ∃ m e : ℕ, m < 2 ^ f.precision ∧ f.stepsOfBits bits = m * 2 ^ e := by
  have hdouble := two_pow_precision hprecision
  have hfraction : bits % 2 ^ (f.precision - 1) < 2 ^ (f.precision - 1) := Nat.mod_lt _ (Nat.two_pow_pos _)
  unfold stepsOfBits
  simp only [Nat.pow_eq]
  split
  · exact ⟨bits % 2 ^ (f.precision - 1), 0, by omega, by rw [pow_zero, mul_one]⟩
  · refine ⟨2 ^ (f.precision - 1) + bits % 2 ^ (f.precision - 1), bits / 2 ^ (f.precision - 1) - 1, by omega, rfl⟩

/-- The largest number of the format in steps: all bits of the significand are set, and the exponent is the last one. -/
def largestSteps (f : Format) : ℕ :=
  (2 ^ f.precision - 1) * 2 ^ (2 ^ f.exponentBits - 3)

/-- No pattern below infinity is more than the largest number. -/
theorem stepsOfBits_le (hprecision : 0 < f.precision) {bits : ℕ} (h : bits < f.infinityBits) : f.stepsOfBits bits ≤ f.largestSteps := by
  have hpos : 0 < 2 ^ (f.precision - 1) := Nat.two_pow_pos _
  have hfraction : bits % 2 ^ (f.precision - 1) < 2 ^ (f.precision - 1) := Nat.mod_lt _ hpos
  have hexponent : bits / 2 ^ (f.precision - 1) < 2 ^ f.exponentBits - 1 := by
    rw [Nat.div_lt_iff_lt_mul hpos]
    exact h
  unfold stepsOfBits largestSteps
  rw [two_pow_precision hprecision]
  simp only [Nat.pow_eq]
  split
  · exact (by omega : _ ≤ 2 * 2 ^ (f.precision - 1) - 1).trans (Nat.le_mul_of_pos_right _ (Nat.two_pow_pos _))
  · exact Nat.mul_le_mul (by omega) (Nat.pow_le_pow_right two_pos (by omega))

/-- Below the next power of two after the largest number, the pattern is that of a finite one. -/
theorem bitsOfSteps_lt_infinityBits (hprecision : 0 < f.precision) {steps room : ℕ} (hroom : room + 3 ≤ 2 ^ f.exponentBits)
    (h : steps < 2 ^ (f.precision + room)) : f.bitsOfSteps steps < f.infinityBits := by
  have hshift := numeralLength_sub_le one_lt_two hprecision h
  have hhigh := lt_pow_mul_lastPlace one_lt_two f.precision steps
  have hdouble := two_pow_precision hprecision
  rw [lastPlace_eq] at hhigh
  unfold bitsOfSteps infinityBits
  simp only [Nat.pow_eq]
  generalize numeralLength 2 steps - f.precision = shift at *
  have hsignificand : steps / 2 ^ shift < 2 * 2 ^ (f.precision - 1) := by
    rw [Nat.div_lt_iff_lt_mul (Nat.two_pow_pos _), ← hdouble]
    exact hhigh
  calc shift * 2 ^ (f.precision - 1) + steps / 2 ^ shift
      < shift * 2 ^ (f.precision - 1) + 2 * 2 ^ (f.precision - 1) := by omega
    _ = (shift + 2) * 2 ^ (f.precision - 1) := by ring
    _ ≤ (2 ^ f.exponentBits - 1) * 2 ^ (f.precision - 1) := Nat.mul_le_mul_right _ (by omega)

/-- From that power on, it is not. -/
theorem infinityBits_le_bitsOfSteps (hprecision : 0 < f.precision) {steps room : ℕ} (hroom : 2 ^ f.exponentBits ≤ room + 3)
    (h : 2 ^ (f.precision + room) ≤ steps) : f.infinityBits ≤ f.bitsOfSteps steps := by
  have hfull : 2 ^ (f.precision - 1) ≤ steps := (Nat.pow_le_pow_right two_pos (by omega)).trans h
  have hlow := pow_mul_lastPlace_le one_lt_two hfull hprecision
  have hhigh := h.trans_lt (lt_pow_mul_lastPlace one_lt_two f.precision steps)
  rw [lastPlace_eq] at hlow hhigh
  rw [← pow_add, Nat.pow_lt_pow_iff_right one_lt_two] at hhigh
  unfold bitsOfSteps infinityBits
  simp only [Nat.pow_eq]
  generalize numeralLength 2 steps - f.precision = shift at *
  have hsignificand : 2 ^ (f.precision - 1) ≤ steps / 2 ^ shift := by
    rwa [Nat.le_div_iff_mul_le (Nat.two_pow_pos _)]
  calc (2 ^ f.exponentBits - 1) * 2 ^ (f.precision - 1)
      ≤ (shift + 1) * 2 ^ (f.precision - 1) := Nat.mul_le_mul_right _ (by omega)
    _ = shift * 2 ^ (f.precision - 1) + 2 ^ (f.precision - 1) := by ring
    _ ≤ shift * 2 ^ (f.precision - 1) + steps / 2 ^ shift := Nat.add_le_add_left hsignificand _

/-- The pattern of infinity leaves the sign bit free. -/
theorem infinityBits_lt_signBit : f.infinityBits < f.signBit := by
  unfold infinityBits signBit
  simp only [Nat.pow_eq]
  rw [pow_add, mul_comm (2 ^ (f.precision - 1))]
  exact Nat.mul_lt_mul_of_pos_right (Nat.sub_lt (Nat.two_pow_pos _) one_pos) (Nat.two_pow_pos _)

/-- The sign and the magnitude of a pattern are those that it was made of. -/
theorem withSign_split (negative : Bool) {magnitude : ℕ} (h : magnitude < f.signBit) :
    (f.withSign negative magnitude / f.signBit % 2 == 1) = negative ∧ f.withSign negative magnitude % f.signBit = magnitude := by
  unfold withSign
  cases negative with
  | false => exact ⟨by rw [if_neg Bool.false_ne_true, Nat.div_eq_of_lt h]; rfl, Nat.mod_eq_of_lt h⟩
  | true =>
    rw [if_pos rfl, Nat.add_div_left _ (Nat.zero_lt_of_lt h), Nat.div_eq_of_lt h, Nat.add_mod_left, Nat.mod_eq_of_lt h]
    exact ⟨rfl, rfl⟩

/-- A pattern with its sign has one bit more. -/
theorem withSign_lt (negative : Bool) {magnitude : ℕ} (h : magnitude < f.signBit) : f.withSign negative magnitude < 2 * f.signBit := by
  unfold withSign
  split <;> omega

/-- A pattern with a sign stands for the number of its steps with that sign. -/
theorem decode_withSign (negative : Bool) {magnitude : ℕ} (h : magnitude < f.infinityBits) :
    f.decode (f.withSign negative magnitude) = .finite negative (f.stepsOfBits magnitude * f.stepQuanta) := by
  obtain ⟨hsign, hmagnitude⟩ := withSign_split (f := f) negative (h.trans infinityBits_lt_signBit)
  unfold decode
  simp only [hsign, hmagnitude]
  rw [if_pos h]

/-- The first pattern that is not finite stands for the infinite number with its sign. -/
theorem decode_withSign_infinityBits (negative : Bool) : f.decode (f.withSign negative f.infinityBits) = .infinite negative := by
  obtain ⟨hsign, hmagnitude⟩ := withSign_split (f := f) negative infinityBits_lt_signBit
  unfold decode
  simp only [hsign, hmagnitude]
  rw [if_neg (lt_irrefl _), if_pos trivial]

/-- The sign and the quanta of a pattern that is decoded as a finite number. -/
theorem eq_of_decode_eq_finite {bits quanta : ℕ} {negative : Bool} (h : f.decode bits = .finite negative quanta) :
    negative = (bits / f.signBit % 2 == 1) ∧ bits % f.signBit < f.infinityBits ∧
      quanta = f.stepsOfBits (bits % f.signBit) * f.stepQuanta := by
  unfold decode at h
  simp only [] at h
  split at h
  · rename_i hlt
    injection h with hsign hquanta
    exact ⟨hsign.symm, hlt, hquanta.symm⟩
  · split at h
    · cases h
    · cases h

/-- A whole number of steps with at most `precision` significant bits has a pattern, as long as it stays below the next power of two
after the largest number. -/
theorem exists_decode_of_short (hprecision : 0 < f.precision) (negative : Bool) (hm : m < 2 ^ f.precision) {room : ℕ}
    (hroom : room + 3 ≤ 2 ^ f.exponentBits) (hlt : m * 2 ^ e < 2 ^ (f.precision + room)) :
    ∃ bits < 2 * f.signBit, f.decode bits = .finite negative (m * 2 ^ e * f.stepQuanta) := by
  have hfinite := bitsOfSteps_lt_infinityBits hprecision hroom hlt
  refine ⟨f.withSign negative (f.bitsOfSteps (m * 2 ^ e)), withSign_lt negative (hfinite.trans infinityBits_lt_signBit), ?_⟩
  rw [decode_withSign negative hfinite, stepsOfBits_bitsOfSteps hprecision hm]

/-! ## Values -/

/-- The format has the number. -/
def Has (f : Format) (x : ℚ) : Prop :=
  ∃ bits < 2 * f.signBit, (f.decode bits).value? = some x

theorem stepQuanta_eq (f : Format) : f.stepQuanta = 2 ^ (quantumScale - f.scale) := rfl

/-- A step is at least one quantum. -/
theorem stepQuanta_pos : 0 < f.stepQuanta :=
  Nat.two_pow_pos _

/-- A number of quanta in steps of the format. -/
theorem ofQuanta_eq_div (hscale : f.scale ≤ quantumScale) (quanta : ℕ) : ofQuanta quanta = quanta / f.stepQuanta / 2 ^ f.scale := by
  have hunit : quantaPerUnit = f.stepQuanta * 2 ^ f.scale := by
    rw [quantaPerUnit_eq, stepQuanta_eq, ← pow_add, Nat.sub_add_cancel hscale]
  rw [ofQuanta, hunit, div_div]
  push_cast
  rfl

/-- A number of steps, counted in quanta, is what the scale of the format makes of it. -/
theorem ofQuanta_steps (hscale : f.scale ≤ quantumScale) (steps : ℕ) : ofQuanta (steps * f.stepQuanta) = steps / 2 ^ f.scale := by
  have hpos : (0 : ℚ) < f.stepQuanta := by exact_mod_cast f.stepQuanta_pos
  rw [ofQuanta_eq_div hscale, Nat.cast_mul, mul_div_cancel_right₀ _ hpos.ne']

/-- A whole number of steps with at most `precision` significant bits is a number of the format, with either sign. -/
theorem has_of_short (hprecision : 0 < f.precision) (hscale : f.scale ≤ quantumScale) (negative : Bool) (hm : m < 2 ^ f.precision)
    (he : e + 3 ≤ 2 ^ f.exponentBits) : f.Has (signed negative (m * 2 ^ e / 2 ^ f.scale)) := by
  have hlt : m * 2 ^ e < 2 ^ (f.precision + e) := by
    rw [pow_add]
    exact Nat.mul_lt_mul_of_pos_right hm (Nat.two_pow_pos _)
  obtain ⟨bits, hbits, hdecode⟩ := exists_decode_of_short hprecision negative hm he hlt
  refine ⟨bits, hbits, ?_⟩
  rw [hdecode, Datum.value?, ofQuanta_steps hscale]
  push_cast
  rfl

/-- And every number of the format is one. -/
theorem Has.exists_short {x : ℚ} (hprecision : 0 < f.precision) (hscale : f.scale ≤ quantumScale) (h : f.Has x) :
    ∃ (negative : Bool) (m e : ℕ), m < 2 ^ f.precision ∧ x = signed negative (m * 2 ^ e / 2 ^ f.scale) := by
  obtain ⟨bits, -, hvalue⟩ := h
  obtain ⟨negative, quanta, hfinite, rfl⟩ := Datum.exists_of_value? hvalue
  obtain ⟨-, -, rfl⟩ := eq_of_decode_eq_finite hfinite
  obtain ⟨m, e, hm, hsteps⟩ := exists_short_stepsOfBits hprecision (bits % f.signBit)
  refine ⟨negative, m, e, hm, ?_⟩
  rw [hsteps, ofQuanta_steps hscale]
  push_cast
  rfl

/-! ## The nearest number -/

/-- The pattern is that of a finite number, and the format has none that is nearer to `d`. -/
def IsNearest (f : Format) (d : ℚ) (bits : ℕ) : Prop :=
  ∃ v, (f.decode bits).value? = some v ∧ ∀ y, f.Has y → |v - d| ≤ |y - d|

/-- No number of the format with the sign of `d` is nearer. -/
theorem IsNearest.exists_finite {d : ℚ} {bits : ℕ} (hprecision : 0 < f.precision) (hscale : f.scale ≤ quantumScale)
    (h : f.IsNearest d bits) : ∃ negative quanta, f.decode bits = .finite negative quanta ∧
      ∀ m e : ℕ, m < 2 ^ f.precision → e + 3 ≤ 2 ^ f.exponentBits →
        |signed negative (ofQuanta quanta) - d| ≤ |(m * 2 ^ e / 2 ^ f.scale - |d|)| := by
  obtain ⟨v, hvalue, hnearest⟩ := h
  obtain ⟨negative, quanta, hfinite, rfl⟩ := Datum.exists_of_value? hvalue
  refine ⟨negative, quanta, hfinite, ?_⟩
  intro m e hm he
  obtain ⟨sign, hsign⟩ := exists_signed_abs d
  calc |signed negative (ofQuanta quanta) - d|
      ≤ |signed sign (m * 2 ^ e / 2 ^ f.scale) - d| := hnearest _ (has_of_short hprecision hscale sign hm he)
    _ = |(signed sign (m * 2 ^ e / 2 ^ f.scale) - signed sign |d|)| := by rw [hsign]
    _ = |(m * 2 ^ e / 2 ^ f.scale - |d|)| := by rw [signed_sub, abs_signed]

/-- The distance of two numbers with one sign, in steps. -/
theorem abs_signed_sub_eq (f : Format) (negative : Bool) (x y : ℚ) :
    |signed negative (x / 2 ^ f.scale) - signed negative (y / 2 ^ f.scale)| = |y - x| / 2 ^ f.scale := by
  have hunit : (0 : ℚ) < 2 ^ f.scale := by positivity
  rw [signed_sub, abs_signed, abs_sub_comm, ← sub_div, abs_div, abs_of_pos hunit]

/-- With different signs it is the sum of the magnitudes. -/
theorem abs_signed_not_sub_eq (f : Format) (negative : Bool) {x y : ℚ} (hx : 0 ≤ x) (hy : 0 ≤ y) :
    |signed (!negative) (x / 2 ^ f.scale) - signed negative (y / 2 ^ f.scale)| = (x + y) / 2 ^ f.scale := by
  have hsum : 0 ≤ x / 2 ^ f.scale + y / 2 ^ f.scale := by positivity
  rw [add_div, ← abs_of_nonneg hsum]
  cases negative with
  | false =>
    rw [← abs_neg]
    congr 1
    simp only [signed, Bool.not_false, if_true, Bool.false_eq_true, if_false]
    ring
  | true =>
    congr 1
    simp only [signed, Bool.not_true, if_true, Bool.false_eq_true, if_false]
    ring

/-- With whatever signs, two numbers are no nearer than their magnitudes. -/
theorem le_abs_signed_sub (f : Format) (sign negative : Bool) {x y : ℚ} (hx : 0 ≤ x) (hy : 0 ≤ y) :
    |y - x| / 2 ^ f.scale ≤ |signed sign (x / 2 ^ f.scale) - signed negative (y / 2 ^ f.scale)| := by
  have hx' : 0 ≤ x / 2 ^ f.scale := by positivity
  have hy' : 0 ≤ y / 2 ^ f.scale := by positivity
  calc |y - x| / 2 ^ f.scale
      = |(x / 2 ^ f.scale - y / 2 ^ f.scale)| := (abs_signed_sub_eq f false x y).symm
    _ = |(|signed sign (x / 2 ^ f.scale)| - |signed negative (y / 2 ^ f.scale)|)| := by
        rw [abs_signed, abs_signed, abs_of_nonneg hx', abs_of_nonneg hy']
    _ ≤ |signed sign (x / 2 ^ f.scale) - signed negative (y / 2 ^ f.scale)| := abs_abs_sub_abs_le_abs_sub _ _

/-- Rounding the steps gives the nearest number. -/
theorem isNearest_of_roundTo (hprecision : 0 < f.precision) (hscale : f.scale ≤ quantumScale) {negative : Bool} {num den bits : ℕ}
    (hden : 0 < den) (h : (f.decode bits).value? = some (signed negative (roundTo 2 f.precision num den / 2 ^ f.scale))) :
    f.IsNearest (signed negative (num / den / 2 ^ f.scale)) bits := by
  refine ⟨_, h, ?_⟩
  intro y hy
  obtain ⟨sign, m, e, hm, rfl⟩ := hy.exists_short hprecision hscale
  have hunit : (0 : ℚ) < 2 ^ f.scale := by positivity
  have hnear := abs_sub_roundTo_le (j := e) one_lt_two hprecision num hden hm
  push_cast at hnear
  calc |signed negative (roundTo 2 f.precision num den / 2 ^ f.scale) - signed negative (num / den / 2 ^ f.scale)|
      = |(num : ℚ) / den - roundTo 2 f.precision num den| / 2 ^ f.scale := abs_signed_sub_eq f negative _ _
    _ ≤ |(num : ℚ) / den - m * 2 ^ e| / 2 ^ f.scale := div_le_div_of_nonneg_right hnear hunit.le
    _ ≤ |signed sign (m * 2 ^ e / 2 ^ f.scale) - signed negative (num / den / 2 ^ f.scale)| :=
        le_abs_signed_sub f sign negative (by positivity) (by positivity)

end Format

end FlowListing.Number
