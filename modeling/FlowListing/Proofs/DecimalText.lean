import Mathlib
import FlowListing.Proofs.NumberText

/-!
# Decimal texts

`ofText?` reads a decimal text as a number. A `Decimal` is a text in canonical form: an integer part without superfluous zeros, a point,
and two places or more, of which the last is not zero when there are more than two. Each number with a sign has at most one
(`Decimal.eq_of_magnitude_eq`), and `Decimal.ofPlaces` is the one that a listing shows of a count of places.
`Decimal.significantAtMost_iff` tells from the number how many of the digits are significant.
-/

namespace FlowListing.Number

/-! ## Strings of digits -/

/-- The text holds decimal digits only. -/
def IsDigits (text : List Char) : Prop :=
  ∀ c ∈ text, c.isDigit = true

/-- What a string of digits counts. -/
def digitsValue (digits : List Char) : ℕ :=
  Nat.ofDigitChars 10 digits 0

section Digits

variable {a b digits : List Char} {c : Char}

/-- A string of digits counts its first part times a power of ten, and its second part. -/
theorem digitsValue_append (a b : List Char) : digitsValue (a ++ b) = digitsValue a * 10 ^ b.length + digitsValue b := by
  rw [digitsValue, Nat.ofDigitChars_append, Nat.ofDigitChars_eq_ofDigitChars_zero, mul_comm]
  rfl

/-- A string of digits counts its first digit times a power of ten, and the rest. -/
theorem digitsValue_cons (c : Char) (digits : List Char) :
    digitsValue (c :: digits) = (c.toNat - '0'.toNat) * 10 ^ digits.length + digitsValue digits := by
  have happend := digitsValue_append [c] digits
  simpa [digitsValue, Nat.ofDigitChars_cons] using happend

@[simp] theorem digitsValue_replicate_zero (n : ℕ) : digitsValue (List.replicate n '0') = 0 := by
  simp [digitsValue]

@[simp] theorem digitsValue_toDigits (n : ℕ) : digitsValue (Nat.toDigits 10 n) = n :=
  Nat.ofDigitChars_ten_toDigits

/-- The numeral of a number is made of digits. -/
theorem isDigits_toDigits (n : ℕ) : IsDigits (Nat.toDigits 10 n) :=
  fun _ hc => Nat.isDigit_of_mem_toDigits (by decide) (by decide) hc

/-- Digits and more digits are digits. -/
theorem IsDigits.append (ha : IsDigits a) (hb : IsDigits b) : IsDigits (a ++ b) := by
  intro c hc
  rcases List.mem_append.mp hc with hc | hc
  · exact ha c hc
  · exact hb c hc

/-- Both parts of a string of digits are digits. -/
theorem IsDigits.of_append (h : IsDigits (a ++ b)) : IsDigits a ∧ IsDigits b :=
  ⟨fun c hc => h c (List.mem_append_left b hc), fun c hc => h c (List.mem_append_right a hc)⟩

theorem isDigits_cons : IsDigits (c :: digits) ↔ c.isDigit = true ∧ IsDigits digits :=
  List.forall_mem_cons

/-- A digit counts at most nine, and only zero counts nothing. -/
theorem digit_bounds (h : c.isDigit = true) : c.toNat - '0'.toNat < 10 ∧ '0'.toNat ≤ c.toNat := by
  rw [Char.isDigit_iff_toNat] at h
  have hzero : '0'.toNat = 48 := rfl
  have hnine : '9'.toNat = 57 := rfl
  omega

/-- A string of digits counts less than the power of ten at its length. -/
theorem digitsValue_lt (h : IsDigits digits) : digitsValue digits < 10 ^ digits.length := by
  induction digits with
  | nil => decide
  | cons c digits ih =>
    obtain ⟨hc, hdigits⟩ := isDigits_cons.mp h
    have hfirst := (digit_bounds hc).1
    have hrest := ih hdigits
    rw [digitsValue_cons, List.length_cons, pow_succ]
    nlinarith

/-- Strings of the same length that count the same are the same: the first digit and the rest are quotient and remainder. -/
theorem eq_of_digitsValue_eq (ha : IsDigits a) (hb : IsDigits b) (hlength : a.length = b.length) (h : digitsValue a = digitsValue b) :
    a = b := by
  induction a generalizing b with
  | nil => exact (List.length_eq_zero_iff.mp hlength.symm).symm
  | cons c a ih =>
    cases b with
    | nil => simp at hlength
    | cons d b =>
      obtain ⟨hc, ha⟩ := isDigits_cons.mp ha
      obtain ⟨hd, hb⟩ := isDigits_cons.mp hb
      have hlength : a.length = b.length := by simpa using hlength
      have hltA := digitsValue_lt ha
      have hltB := digitsValue_lt hb
      rw [digitsValue_cons, digitsValue_cons, hlength, mul_comm _ (10 ^ b.length), mul_comm _ (10 ^ b.length)] at h
      rw [hlength] at hltA
      have hdiv := congrArg (· / 10 ^ b.length) h
      have hmod := congrArg (· % 10 ^ b.length) h
      simp only [Nat.mul_add_div (Nat.pow_pos (by decide : 0 < 10)), Nat.mul_add_mod, Nat.div_eq_of_lt, Nat.mod_eq_of_lt, hltA, hltB,
        add_zero] at hdiv hmod
      have hboundC := (digit_bounds hc).2
      have hboundD := (digit_bounds hd).2
      rw [ih ha hb hlength hmod, Char.toNat_inj.mp (by omega : c.toNat = d.toNat)]

/-- A string that counts nothing holds zeros only. -/
theorem eq_replicate_of_digitsValue_eq_zero (h : IsDigits digits) (hzero : digitsValue digits = 0) :
    digits = List.replicate digits.length '0' := by
  refine eq_of_digitsValue_eq h ?_ (by simp) (by simp [hzero])
  intro c hc
  rw [List.eq_of_mem_replicate hc]
  rfl

/-- The leading zeros of a string are a repetition. -/
theorem takeWhile_eq_replicate (digits : List Char) :
    digits.takeWhile (· == '0') = List.replicate (digits.takeWhile (· == '0')).length '0' := by
  refine List.eq_replicate_of_mem ?_
  intro c hc
  simpa using List.mem_takeWhile_imp (p := (· == '0')) hc

/-- Leading zeros do not count. -/
theorem digitsValue_dropWhile (digits : List Char) : digitsValue (digits.dropWhile (· == '0')) = digitsValue digits := by
  nth_rewrite 2 [← List.takeWhile_append_dropWhile (p := (· == '0')) (l := digits)]
  rw [digitsValue_append, takeWhile_eq_replicate, digitsValue_replicate_zero, zero_mul, zero_add]

/-- A first digit other than zero is worth a power of ten. -/
theorem pow_le_digitsValue (hc : c.isDigit = true) (hne : c ≠ '0') (digits : List Char) :
    10 ^ digits.length ≤ digitsValue (c :: digits) := by
  have hbound := (digit_bounds hc).2
  have hpos : 1 ≤ c.toNat - '0'.toNat := by
    have hcode : c.toNat ≠ '0'.toNat := fun hcode => hne (Char.toNat_inj.mp hcode)
    omega
  rw [digitsValue_cons]
  nlinarith [Nat.pow_pos (n := digits.length) (by decide : 0 < 10)]

/-- A string without superfluous zeros is the numeral of what it counts. -/
theorem toDigits_digitsValue (h : IsDigits digits) (hne : digits ≠ []) (htight : digits.head? = some '0' → digits = ['0']) :
    Nat.toDigits 10 (digitsValue digits) = digits := by
  obtain ⟨c, rest, rfl⟩ := List.exists_cons_of_ne_nil hne
  obtain ⟨hc, -⟩ := isDigits_cons.mp h
  refine eq_of_digitsValue_eq (isDigits_toDigits _) h ?_ (digitsValue_toDigits _)
  by_cases hzero : c = '0'
  · rw [htight (by rw [hzero]; rfl)]
    rfl
  · refine le_antisymm ?_ ?_
    · exact (Nat.length_toDigits_le_iff (by decide) (by simp)).mpr (digitsValue_lt h)
    · by_contra hshort
      rw [not_le, List.length_cons, Nat.lt_succ_iff] at hshort
      have hlow := pow_le_digitsValue hc hzero rest
      have hlength := Nat.length_toDigits_pos (b := 10) (n := digitsValue (c :: rest))
      have hhigh := (Nat.length_toDigits_le_iff (by decide) (by omega)).mp hshort
      omega

/-- A numeral has no superfluous zeros. -/
theorem toDigits_tight (n : ℕ) (h : (Nat.toDigits 10 n).head? = some '0') : Nat.toDigits 10 n = ['0'] := by
  obtain ⟨c, rest, hdigits⟩ := List.exists_cons_of_ne_nil (Nat.toDigits_ne_nil (n := n) (b := 10))
  have hc : c = '0' := by
    rw [hdigits] at h
    exact Option.some.inj h
  subst hc
  cases rest with
  | nil => exact hdigits
  | cons d rest =>
    have hrest : IsDigits (d :: rest) := (isDigits_cons.mp (hdigits ▸ isDigits_toDigits n)).2
    have hvalue : digitsValue (d :: rest) = n := by
      rw [← digitsValue_toDigits n, hdigits, digitsValue_cons '0', Nat.sub_self, zero_mul, zero_add]
    have hlength := (Nat.length_toDigits_le_iff (by decide) (Nat.succ_pos _)).mpr (hvalue ▸ digitsValue_lt hrest)
    rw [hdigits] at hlength
    simp at hlength

end Digits

/-! ## Reading -/

/-- A magnitude with a sign. -/
def signed (negative : Bool) (magnitude : ℚ) : ℚ :=
  if negative then -magnitude else magnitude

/-- A sign does not change the magnitude. -/
theorem abs_signed (negative : Bool) (magnitude : ℚ) : |signed negative magnitude| = |magnitude| := by
  cases negative
  · rfl
  · exact abs_neg magnitude

/-- A number is its magnitude with a sign. -/
theorem exists_signed_abs (x : ℚ) : ∃ negative, signed negative |x| = x := by
  rcases abs_choice x with habs | habs
  · exact ⟨false, habs⟩
  · exact ⟨true, by rw [habs, signed, if_pos rfl, neg_neg]⟩

/-- A number nearer to another than zero is has its sign. -/
theorem signed_abs_of_abs_sub_lt {negative : Bool} {magnitude x : ℚ} (hmagnitude : 0 ≤ magnitude)
    (h : |signed negative magnitude - x| < |x|) : signed negative |x| = x := by
  cases negative with
  | false =>
    have hpos : 0 < x := by
      by_contra hle
      rw [not_lt] at hle
      rw [abs_of_nonpos hle, signed, if_neg Bool.false_ne_true, abs_of_nonneg (by linarith)] at h
      linarith
    exact abs_of_pos hpos
  | true =>
    have hneg : x < 0 := by
      by_contra hle
      rw [not_lt] at hle
      rw [abs_of_nonneg hle, signed, if_pos rfl, abs_of_nonpos (by linarith)] at h
      linarith
    rw [abs_of_neg hneg, signed, if_pos rfl, neg_neg]

/-- Signs come out of a difference. -/
theorem signed_sub (negative : Bool) (a b : ℚ) : signed negative a - signed negative b = signed negative (a - b) := by
  cases negative
  · rfl
  · exact neg_sub_neg a b |>.trans (neg_sub a b).symm

/-- The number that a text without a sign denotes: digits, a point and digits. -/
def unsigned? (text : List Char) : Option ℚ :=
  match text.dropWhile Char.isDigit with
  | '.' :: places =>
    let whole := text.takeWhile Char.isDigit
    if whole ≠ [] ∧ places ≠ [] ∧ places.all Char.isDigit then some (digitsValue (whole ++ places) / 10 ^ places.length) else none
  | _ => none

/-- The number that a decimal text denotes. -/
def ofText? : List Char → Option ℚ
  | '-' :: text => (unsigned? text).map (- ·)
  | text => unsigned? text

/-! ## Canonical texts -/

/-- A decimal text in canonical form. -/
structure Decimal where
  negative : Bool
  whole : List Char
  places : List Char
  whole_digits : IsDigits whole
  places_digits : IsDigits places
  whole_ne_nil : whole ≠ []
  whole_tight : whole.head? = some '0' → whole = ['0']
  least_le : leastPlaces ≤ places.length
  places_tight : leastPlaces < places.length → places.getLast? ≠ some '0'

namespace Decimal

def text (d : Decimal) : List Char :=
  (if d.negative then ['-'] else []) ++ (d.whole ++ '.' :: d.places)

/-- The number without its sign. -/
def magnitude (d : Decimal) : ℚ :=
  digitsValue (d.whole ++ d.places) / 10 ^ d.places.length

def value (d : Decimal) : ℚ :=
  signed d.negative d.magnitude

/-- A magnitude is not negative. -/
theorem magnitude_nonneg (d : Decimal) : 0 ≤ d.magnitude := by
  unfold magnitude
  positivity

/-- The magnitude of a decimal is that of its value. -/
theorem abs_value (d : Decimal) : |d.value| = d.magnitude := by
  rw [value, abs_signed, abs_of_nonneg d.magnitude_nonneg]

/-- The text of a decimal without its sign reads as its magnitude. -/
theorem unsigned?_eq (d : Decimal) : unsigned? (d.whole ++ '.' :: d.places) = some d.magnitude := by
  have hdrop : (d.whole ++ '.' :: d.places).dropWhile Char.isDigit = '.' :: d.places := by
    rw [List.dropWhile_append_of_pos d.whole_digits]
    rfl
  have htake : (d.whole ++ '.' :: d.places).takeWhile Char.isDigit = d.whole := by
    rw [List.takeWhile_append_of_pos d.whole_digits]
    simp
  have hne : d.places ≠ [] := by
    intro h
    have hleast := d.least_le
    rw [h] at hleast
    exact absurd hleast (by decide)
  unfold unsigned?
  rw [hdrop]
  simp only [htake]
  rw [if_pos ⟨d.whole_ne_nil, hne, List.all_eq_true.mpr d.places_digits⟩]
  rfl

/-- A canonical text denotes its value. -/
theorem ofText?_text (d : Decimal) : ofText? d.text = some d.value := by
  unfold text value signed
  cases hsign : d.negative with
  | true => simp [ofText?, d.unsigned?_eq]
  | false =>
    obtain ⟨c, rest, hwhole⟩ := List.exists_cons_of_ne_nil d.whole_ne_nil
    have hc : c.isDigit = true := d.whole_digits c (by simp [hwhole])
    have hminus : c ≠ '-' := by
      rintro rfl
      exact absurd hc (by decide)
    have hread := d.unsigned?_eq
    rw [hwhole] at hread ⊢
    simp only [Bool.false_eq_true, if_false, List.nil_append, List.cons_append] at hread ⊢
    unfold ofText?
    split
    · rename_i heq
      exact absurd (List.cons.inj heq).1 hminus
    · exact hread

/-- The integer part and the places are what the number has before and after its point. -/
theorem digitsValue_whole (d : Decimal) : digitsValue d.whole = digitsValue (d.whole ++ d.places) / 10 ^ d.places.length := by
  rw [digitsValue_append, mul_comm, Nat.mul_add_div (Nat.pow_pos (by decide)), Nat.div_eq_of_lt (digitsValue_lt d.places_digits),
    add_zero]

/-- The places are the remainder of all the digits. -/
theorem digitsValue_places (d : Decimal) : digitsValue d.places = digitsValue (d.whole ++ d.places) % 10 ^ d.places.length := by
  rw [digitsValue_append, mul_comm, Nat.mul_add_mod, Nat.mod_eq_of_lt (digitsValue_lt d.places_digits)]

/-- A decimal has no more places than its number can be written with: otherwise the last digit, which is the remainder by ten, would be a
zero. -/
theorem places_length_le {d : Decimal} {count short : ℕ} (hleast : leastPlaces ≤ short) (h : d.magnitude = count / 10 ^ short) :
    d.places.length ≤ short := by
  by_contra hlong
  have hne : d.places ≠ [] := by
    intro hnil
    rw [hnil] at hlong
    exact hlong (Nat.zero_le _)
  have hmul : digitsValue (d.whole ++ d.places) = count * 10 ^ (d.places.length - short) := by
    have hpow : (10 : ℚ) ^ d.places.length = 10 ^ short * 10 ^ (d.places.length - short) := by
      rw [← pow_add, Nat.add_sub_of_le (by omega)]
    have hcast : (digitsValue (d.whole ++ d.places) : ℚ) = count * 10 ^ (d.places.length - short) := by
      rw [magnitude, div_eq_div_iff (by positivity) (by positivity), hpow] at h
      have hshort : (10 : ℚ) ^ short ≠ 0 := by positivity
      refine mul_right_cancel₀ hshort ?_
      rw [h]
      ring
    exact_mod_cast hcast
  refine d.places_tight (by omega) ?_
  obtain ⟨init, last, hsplit⟩ : ∃ init last, d.places = init ++ [last] := ⟨_, _, (List.dropLast_append_getLast hne).symm⟩
  have hdigits := d.places_digits
  rw [hsplit] at hdigits
  have hlast := (digit_bounds (hdigits.of_append.2 last (by simp))).1
  have hten : digitsValue (d.whole ++ d.places) % 10 = 0 := by
    rw [hmul, ← Nat.succ_pred_eq_of_pos (by omega : 0 < d.places.length - short), pow_succ, ← mul_assoc]
    exact Nat.mul_mod_left _ _
  rw [hsplit, ← List.append_assoc, digitsValue_append] at hten
  have hzero : digitsValue [last] = 0 := by
    have hlt := digitsValue_lt hdigits.of_append.2
    simp only [List.length_cons, List.length_nil] at hten hlt
    omega
  have hlast := eq_replicate_of_digitsValue_eq_zero hdigits.of_append.2 hzero
  rw [hsplit, List.getLast?_concat]
  exact congrArg some (List.cons.inj hlast).1

/-- A number and a sign have one canonical text. -/
theorem eq_of_magnitude_eq {d e : Decimal} (hsign : d.negative = e.negative) (h : d.magnitude = e.magnitude) : d = e := by
  have hlength : d.places.length = e.places.length :=
    le_antisymm (places_length_le e.least_le h) (places_length_le d.least_le h.symm)
  have hcount : digitsValue (d.whole ++ d.places) = digitsValue (e.whole ++ e.places) := by
    unfold magnitude at h
    rw [hlength, div_left_inj' (by positivity)] at h
    exact_mod_cast h
  have hwhole : d.whole = e.whole := by
    rw [← toDigits_digitsValue d.whole_digits d.whole_ne_nil d.whole_tight,
      ← toDigits_digitsValue e.whole_digits e.whole_ne_nil e.whole_tight, digitsValue_whole, digitsValue_whole, hcount, hlength]
  have hplaces : d.places = e.places := by
    refine eq_of_digitsValue_eq d.places_digits e.places_digits hlength ?_
    rw [digitsValue_places, digitsValue_places, hcount, hlength]
  cases d
  cases e
  subst hsign hwhole hplaces
  rfl

/-- A number other than zero has one canonical text. -/
theorem eq_of_value_eq {d e : Decimal} (hne : d.value ≠ 0) (h : d.value = e.value) : d = e := by
  have hmagnitude : d.magnitude = e.magnitude := by rw [← d.abs_value, h, e.abs_value]
  refine eq_of_magnitude_eq ?_ hmagnitude
  have hpos : d.magnitude ≠ 0 := by
    intro hzero
    exact hne (by unfold value signed; simp [hzero])
  unfold value signed at h
  rw [← hmagnitude] at h
  cases hd : d.negative <;> cases he : e.negative
  · rfl
  · simp only [hd, he, if_true, Bool.false_eq_true, if_false] at h
    exact absurd (self_eq_neg.mp h) hpos
  · simp only [hd, he, if_true, Bool.false_eq_true, if_false] at h
    exact absurd (neg_eq_self.mp h) hpos
  · rfl

end Decimal

/-! ## What a listing shows -/

/-- Trimming takes zeros away from the end and nothing else. -/
theorem exists_trimPlaces {digits : List Char} (h : leastPlaces ≤ digits.length) :
    ∃ zeros, digits = trimPlaces digits ++ List.replicate zeros '0' := by
  have hsplit := List.takeWhile_append_dropWhile (p := (· == '0')) (l := digits.reverse)
  have hzeros := takeWhile_eq_replicate digits.reverse
  unfold trimPlaces
  generalize digits.reverse.takeWhile (· == '0') = ending at *
  generalize digits.reverse.dropWhile (· == '0') = rest at *
  have hdigits : digits = rest.reverse ++ List.replicate ending.length '0' := by
    rw [← List.reverse_reverse digits, ← hsplit, List.reverse_append, hzeros]
    simp
  refine ⟨ending.length - (leastPlaces - rest.length), ?_⟩
  rw [List.rightpad, List.append_assoc, List.replicate_append_replicate, List.length_reverse]
  have hlength := congrArg List.length hdigits
  simp only [List.length_append, List.length_reverse, List.length_replicate] at hlength
  rw [Nat.add_sub_of_le (by omega)]
  exact hdigits

/-- Trimmed places that are more than the least number do not end in a zero. -/
theorem getLast?_trimPlaces {digits : List Char} (h : leastPlaces < (trimPlaces digits).length) :
    (trimPlaces digits).getLast? ≠ some '0' := by
  unfold trimPlaces at h ⊢
  rw [List.length_rightpad] at h
  have hfull : leastPlaces - (digits.reverse.dropWhile (· == '0')).reverse.length = 0 := by omega
  rw [List.rightpad, hfull, List.replicate_zero, List.append_nil, List.getLast?_reverse]
  have hhead := List.head?_dropWhile_not (· == '0') digits.reverse
  intro hzero
  rw [hzero] at hhead
  simp at hhead

/-- The digits after the point before any are trimmed. -/
def placeDigits (count : ℕ) : List Char :=
  (Nat.toDigits 10 (count % Nat.pow 10 mostPlaces)).leftpad mostPlaces '0'

/-- There is a digit for each place. -/
theorem length_placeDigits (count : ℕ) : (placeDigits count).length = mostPlaces := by
  have hlt : count % 10 ^ mostPlaces < 10 ^ mostPlaces := Nat.mod_lt _ (by decide)
  rw [placeDigits, List.length_leftpad]
  exact max_eq_left ((Nat.length_toDigits_le_iff (by decide) (by decide)).mpr hlt)

/-- The digits of the places count what is left over from the whole. -/
theorem digitsValue_placeDigits (count : ℕ) : digitsValue (placeDigits count) = count % 10 ^ mostPlaces := by
  rw [placeDigits, List.leftpad, digitsValue_append, digitsValue_replicate_zero, digitsValue_toDigits, zero_mul, zero_add]
  rfl

/-- The places are made of digits. -/
theorem isDigits_placeDigits (count : ℕ) : IsDigits (placeDigits count) := by
  refine IsDigits.append ?_ (isDigits_toDigits _)
  intro c hc
  rw [List.eq_of_mem_replicate hc]
  rfl

namespace Decimal

/-- The text that a listing shows of a count of units of the last place. -/
def ofPlaces (negative : Bool) (count : ℕ) : Decimal where
  negative := negative
  whole := Nat.toDigits 10 (count / Nat.pow 10 mostPlaces)
  places := trimPlaces (placeDigits count)
  whole_digits := isDigits_toDigits _
  places_digits := by
    intro c hc
    rcases mem_trimPlaces hc with hc | rfl
    · exact isDigits_placeDigits count c hc
    · rfl
  whole_ne_nil := Nat.toDigits_ne_nil
  whole_tight := toDigits_tight _
  least_le := by
    rw [trimPlaces, List.length_rightpad]
    exact le_max_left _ _
  places_tight := getLast?_trimPlaces

theorem text_ofPlaces (negative : Bool) (count : ℕ) :
    (ofPlaces negative count).text = (if negative then ['-'] else []) ++ placesText count := rfl

/-- The digits of the text, with the zeros that were taken away, count the places. -/
theorem exists_zeros_ofPlaces (negative : Bool) (count : ℕ) :
    ∃ zeros, (ofPlaces negative count).places.length + zeros = mostPlaces ∧
      digitsValue ((ofPlaces negative count).whole ++ (ofPlaces negative count).places) * 10 ^ zeros = count := by
  have hleast : leastPlaces ≤ (placeDigits count).length := by
    rw [length_placeDigits]
    decide
  obtain ⟨zeros, hzeros⟩ := exists_trimPlaces hleast
  have hlength := congrArg List.length hzeros
  have hvalue := congrArg (fun places => digitsValue (Nat.toDigits 10 (count / 10 ^ mostPlaces) ++ places)) hzeros
  rw [length_placeDigits, List.length_append, List.length_replicate] at hlength
  simp only [← List.append_assoc] at hvalue
  rw [digitsValue_append, digitsValue_placeDigits, length_placeDigits, digitsValue_toDigits, Nat.div_add_mod',
    digitsValue_append _ (List.replicate _ _), digitsValue_replicate_zero, List.length_replicate, add_zero] at hvalue
  exact ⟨zeros, hlength.symm, hvalue.symm⟩

/-- The magnitude of the decimal of a count is the count in its unit. -/
theorem magnitude_ofPlaces (negative : Bool) (count : ℕ) : (ofPlaces negative count).magnitude = count / 10 ^ mostPlaces := by
  obtain ⟨zeros, hlength, hcount⟩ := exists_zeros_ofPlaces negative count
  have hcast : (digitsValue ((ofPlaces negative count).whole ++ (ofPlaces negative count).places) : ℚ) * 10 ^ zeros = count := by
    exact_mod_cast hcount
  rw [magnitude, div_eq_div_iff (by positivity) (by positivity), ← hcast, ← hlength, pow_add]
  ring

/-- The value of the decimal of a count is the count in its unit, with its sign. -/
theorem value_ofPlaces (negative : Bool) (count : ℕ) : (ofPlaces negative count).value = signed negative (count / 10 ^ mostPlaces) := by
  rw [value, magnitude_ofPlaces]
  rfl

end Decimal

/-! ## Significant digits -/

/-- The digits of a text from the first on that is not zero. -/
def leadingDigits (text : List Char) : List Char :=
  (text.filter Char.isDigit).dropWhile (· == '0')

/-- From the first digit on that is not zero, all digits after so many are zeros. -/
def SignificantAtMost (count : ℕ) (text : List Char) : Prop :=
  ∀ c ∈ (leadingDigits text).drop count, c = '0'

/-- A number has at most so many significant digits: it is a shorter one followed by zeros. -/
def IsShort (count n : ℕ) : Prop :=
  ∃ m j : ℕ, m < 10 ^ count ∧ n = m * 10 ^ j

/-- Zeros behind a number make no digit of it significant. -/
theorem isShort_mul_pow_iff {count n : ℕ} (zeros : ℕ) : IsShort count (n * 10 ^ zeros) ↔ IsShort count n := by
  constructor
  · rintro ⟨m, j, hm, h⟩
    rcases le_total zeros j with hle | hle
    · refine ⟨m, j - zeros, hm, Nat.eq_of_mul_eq_mul_right (Nat.pow_pos (by decide : 0 < 10) (n := zeros)) ?_⟩
      rw [h, mul_assoc, ← pow_add, Nat.sub_add_cancel hle]
    · refine ⟨n, 0, lt_of_le_of_lt ?_ hm, by simp⟩
      have hmul : n * 10 ^ (zeros - j) = m := by
        refine Nat.eq_of_mul_eq_mul_right (Nat.pow_pos (by decide : 0 < 10) (n := j)) ?_
        rw [mul_assoc, ← pow_add, Nat.sub_add_cancel hle, h]
      rw [← hmul]
      exact Nat.le_mul_of_pos_right n (Nat.pow_pos (by decide))
  · rintro ⟨m, j, hm, rfl⟩
    exact ⟨m, j + zeros, hm, by rw [pow_add, mul_assoc]⟩

/-- A string of digits without leading zeros that counts a short number has no more digits than that behind the first so many. -/
theorem length_drop_le_of_short {digits : List Char} {count m j : ℕ} (h : IsDigits digits) (hhead : digits.head? ≠ some '0')
    (hm : m < 10 ^ count) (hvalue : digitsValue digits = m * 10 ^ j) : (digits.drop count).length ≤ j := by
  cases digits with
  | nil => simp
  | cons c tail =>
    have hlow := pow_le_digitsValue (isDigits_cons.mp h).1 (by simpa using hhead) tail
    have hhigh : m * 10 ^ j < 10 ^ (count + j) := by
      rw [pow_add]
      exact Nat.mul_lt_mul_of_pos_right hm (Nat.pow_pos (by decide))
    have hlt := (Nat.pow_lt_pow_iff_right (by decide : 1 < 10)).mp ((hvalue ▸ hlow).trans_lt hhigh)
    rw [List.length_drop, List.length_cons]
    omega

/-- The digits of a string behind the first so many are zeros exactly if it counts a short number: what they count is the remainder by a
power of ten. -/
theorem forall_drop_eq_zero_iff {digits : List Char} (h : IsDigits digits) (count : ℕ) :
    (∀ c ∈ (digits.dropWhile (· == '0')).drop count, c = '0') ↔ IsShort count (digitsValue digits) := by
  have hhead := List.head?_dropWhile_not (· == '0') digits
  have hrest : IsDigits (digits.dropWhile (· == '0')) := by
    rw [← List.takeWhile_append_dropWhile (p := (· == '0')) (l := digits)] at h
    exact h.of_append.2
  rw [← digitsValue_dropWhile]
  generalize digits.dropWhile (· == '0') = rest at *
  have hparts : digitsValue rest = digitsValue (rest.take count) * 10 ^ (rest.drop count).length + digitsValue (rest.drop count) := by
    rw [← digitsValue_append, List.take_append_drop]
  have hboth := hrest
  rw [← List.take_append_drop count rest] at hboth
  constructor
  · intro hdrop
    refine ⟨digitsValue (rest.take count), (rest.drop count).length, ?_, ?_⟩
    · exact (digitsValue_lt hboth.of_append.1).trans_le (Nat.pow_le_pow_right (by decide) (List.length_take_le _ _))
    · rw [hparts]
      nth_rewrite 2 [List.eq_replicate_of_mem hdrop]
      rw [digitsValue_replicate_zero, add_zero]
  · rintro ⟨m, j, hm, hshort⟩
    have hlength : (rest.drop count).length ≤ j := by
      refine length_drop_le_of_short hrest ?_ hm hshort
      intro hzero
      rw [hzero] at hhead
      simp at hhead
    have hzero : digitsValue (rest.drop count) = 0 := by
      have hmod := congrArg (· % 10 ^ (rest.drop count).length) hparts
      simp only [Nat.mul_add_mod', Nat.mod_eq_of_lt (digitsValue_lt hboth.of_append.2)] at hmod
      rw [← hmod, hshort]
      exact Nat.mod_eq_zero_of_dvd ((Nat.pow_dvd_pow 10 hlength).mul_left m)
    rw [eq_replicate_of_digitsValue_eq_zero hboth.of_append.2 hzero]
    intro c hc
    exact List.eq_of_mem_replicate hc

namespace Decimal

/-- The leading digits of a text are those of the decimal, without its leading zeros. -/
theorem leadingDigits_text (d : Decimal) : leadingDigits d.text = (d.whole ++ d.places).dropWhile (· == '0') := by
  have hwhole : d.whole.filter Char.isDigit = d.whole := List.filter_eq_self.mpr d.whole_digits
  have hplaces : d.places.filter Char.isDigit = d.places := List.filter_eq_self.mpr d.places_digits
  have hpoint : ('.' :: d.places).filter Char.isDigit = d.places := by
    rw [List.filter_cons_of_neg (by decide), hplaces]
  unfold leadingDigits text
  rw [List.filter_append, List.filter_append, hwhole, hpoint]
  cases d.negative <;> rfl

/-- The text of a count has at most so many significant digits exactly if the count has. -/
theorem significantAtMost_iff (negative : Bool) (places count : ℕ) :
    SignificantAtMost count (ofPlaces negative places).text ↔ IsShort count places := by
  obtain ⟨zeros, -, hplaces⟩ := exists_zeros_ofPlaces negative places
  have hdigits := (ofPlaces negative places).whole_digits.append (ofPlaces negative places).places_digits
  rw [SignificantAtMost, leadingDigits_text, forall_drop_eq_zero_iff hdigits, ← isShort_mul_pow_iff zeros, hplaces]

end Decimal

end FlowListing.Number
