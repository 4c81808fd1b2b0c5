/-!
# Numbers

All rounding here is to nearest, a half going to the even neighbour. `roundDiv` rounds a quotient of natural numbers to an integer;
`roundTo` rounds it to a number of significant digits in a base. Base two gives the significands of the binary formats, base ten the
significant digits of a decimal text.

A finite number of the double format is a whole number of *quanta*, the smallest positive double, two to the minus 1074. `Datum` keeps
that whole number, so that every later step is arithmetic on natural numbers. `Format.decode` reads the bits of an interchange format
and `Format.encode` writes them.

A listing shows a number with two to seven places (`Datum.display`). The number is first rounded to the seven significant digits that a
single-precision number can hold, that decimal is read back as a double, and the double is shown to seven places; zeros past the second
place are dropped.
-/

namespace FlowListing.Number

/-! ## Rounding a quotient to digits of a base -/

/-- The quotient of `num` by `den`, rounded to the nearest integer; a half goes to the even neighbour. -/
def roundDiv (num den : Nat) : Nat :=
  let quotient := num / den
  let twice := 2 * (num % den)
  if twice < den then quotient
  else if den < twice then quotient + 1
  else quotient + quotient % 2

/-- How many digits the numeral of `n` has in the base; zero has one digit. -/
def numeralLength (base n : Nat) : Nat :=
  (Nat.toDigits base n).length

/-- The unit in the last place of a quotient with integer part `n` that keeps `digits` significant digits in the base: the
least power of the base that leaves at most `digits` digits. A short integer part is kept whole, so the unit is one. -/
def lastPlace (base digits n : Nat) : Nat :=
  Nat.pow base (numeralLength base n - digits)

/-- The quotient of `num` by `den` as an integer with at most `digits` significant digits in the base, followed by zeros. A
quotient whose integer part is shorter than that is rounded to an integer. -/
def roundTo (base digits num den : Nat) : Nat :=
  let unit := lastPlace base digits (num / den)
  roundDiv num (den * unit) * unit

/-! ## Binary floating-point numbers as exact values -/

/-- A number as the binary formats know it. The sign of a zero is part of the number; all NaNs are one. -/
inductive Datum where
  | nan
  | infinite (negative : Bool)
  | finite (negative : Bool) (quanta : Nat)
  deriving DecidableEq, Repr

/-- The quantum is one over two to this power. -/
def quantumScale : Nat := 1074

/-- Quanta in one. -/
def quantaPerUnit : Nat := Nat.pow 2 quantumScale

/-- A binary interchange format: significant bits, the leading one included, and bits of the exponent field. -/
structure Format where
  precision : Nat
  exponentBits : Nat
  deriving DecidableEq, Repr

/-- Single precision. -/
def binary32 : Format := ⟨24, 8⟩

/-- Double precision. -/
def binary64 : Format := ⟨53, 11⟩

namespace Format

/-- The smallest positive number of the format is one over two to this power. -/
def scale (f : Format) : Nat :=
  Nat.pow 2 (f.exponentBits - 1) + f.precision - 3

/-- Quanta in the smallest positive number of the format. -/
def stepQuanta (f : Format) : Nat :=
  Nat.pow 2 (quantumScale - f.scale)

/-- The first pattern, sign apart, that is not finite: the exponent field all ones, the fraction zero. -/
def infinityBits (f : Format) : Nat :=
  (Nat.pow 2 f.exponentBits - 1) * Nat.pow 2 (f.precision - 1)

/-- The sign bit. -/
def signBit (f : Format) : Nat :=
  Nat.pow 2 (f.precision - 1 + f.exponentBits)

/-- The number of steps that a finite pattern, sign apart, stands for. A pattern with exponent field zero counts its
fraction; any other counts its fraction with the leading one put back, doubled once for each exponent above one. -/
def stepsOfBits (f : Format) (bits : Nat) : Nat :=
  let fraction := bits % Nat.pow 2 (f.precision - 1)
  let exponent := bits / Nat.pow 2 (f.precision - 1)
  if exponent = 0 then fraction else (Nat.pow 2 (f.precision - 1) + fraction) * Nat.pow 2 (exponent - 1)

/-- The pattern, sign apart, of a number of steps that has at most `precision` significant bits. -/
def bitsOfSteps (f : Format) (steps : Nat) : Nat :=
  let shift := numeralLength 2 steps - f.precision
  shift * Nat.pow 2 (f.precision - 1) + steps / Nat.pow 2 shift

/-- The number that a bit pattern stands for. -/
def decode (f : Format) (bits : Nat) : Datum :=
  let negative := bits / f.signBit % 2 == 1
  let magnitude := bits % f.signBit
  if magnitude < f.infinityBits then .finite negative (f.stepsOfBits magnitude * f.stepQuanta)
  else if magnitude = f.infinityBits then .infinite negative
  else .nan

/-- The pattern of a sign and a magnitude. -/
def withSign (f : Format) (negative : Bool) (magnitude : Nat) : Nat :=
  if negative then f.signBit + magnitude else magnitude

/-- The bit pattern nearest to a number, a half going to the even significand; nothing when a finite number rounds past
the largest finite one. NaN becomes the quiet NaN without a sign. -/
def encode (f : Format) : Datum → Option Nat
  | .nan => some (f.infinityBits + Nat.pow 2 (f.precision - 2))
  | .infinite negative => some (f.withSign negative f.infinityBits)
  | .finite negative quanta =>
    let magnitude := f.bitsOfSteps (roundTo 2 f.precision quanta f.stepQuanta)
    if magnitude < f.infinityBits then some (f.withSign negative magnitude) else none

end Format

/-! ## The decimal text of a number -/

/-- Significant digits kept of a number. -/
def significantDigits : Nat := 7

/-- The most places shown after the point. -/
def mostPlaces : Nat := 7

/-- The fewest places shown after the point. -/
def leastPlaces : Nat := 2

/-- A decimal is counted in units of one over ten to this power. One quantum is about 4.9 million such units, so each number
but zero has at least seven digits in them. -/
def decimalScale : Nat := 330

/-- A number of quanta, rounded to the significant digits, in decimal units. -/
def toSignificant (quanta : Nat) : Nat :=
  roundTo 10 significantDigits (quanta * Nat.pow 10 decimalScale) quantaPerUnit

/-- The double nearest to a number of decimal units, in quanta. -/
def ofDecimalUnits (units : Nat) : Nat :=
  roundTo 2 binary64.precision (units * quantaPerUnit) (Nat.pow 10 decimalScale)

/-- A number of quanta, rounded to the places shown: how often it holds one unit of the last place. -/
def toPlaces (quanta : Nat) : Nat :=
  roundDiv (quanta * Nat.pow 10 mostPlaces) quantaPerUnit

/-- What a listing shows of a number of quanta, counted in units of the last place. -/
def shownPlaces (quanta : Nat) : Nat :=
  toPlaces (ofDecimalUnits (toSignificant quanta))

/-- Digits after the point with the zeros at the end dropped, down to the fewest places shown. -/
def trimPlaces (digits : List Char) : List Char :=
  (digits.reverse.dropWhile (· == '0')).reverse.rightpad leastPlaces '0'

/-- The text of a count of units of the last place: an integer part, a point and the trimmed places. -/
def placesText (count : Nat) : List Char :=
  Nat.toDigits 10 (count / Nat.pow 10 mostPlaces) ++
    '.' :: trimPlaces ((Nat.toDigits 10 (count % Nat.pow 10 mostPlaces)).leftpad mostPlaces '0')

/-- The text of a number. The sign is written whenever the number has one, also before a zero. -/
def Datum.display : Datum → String
  | .nan => "NaN"
  | .infinite negative => if negative then "-Infinity" else "Infinity"
  | .finite negative quanta =>
    String.ofList ((if negative then ['-'] else []) ++ placesText (shownPlaces quanta))

end FlowListing.Number
