/-
# Double-precision numbers

A finite number is a significand times a power of two.  A decimal reads as the
nearest number, and of two equally near ones as the one with the even
significand.  A number is written with the fewest digits that read back as the
same number, without an exponent and always with a point.

The work is done on natural numbers: to compare `a * 2 ^ x` with `b * 10 ^ y`
both sides are multiplied until no exponent is negative.
-/

namespace ErrorAccessors

/-- The size of a double-precision number. -/
inductive Magnitude where
  /-- The significand times two to the exponent. -/
  | finite (significand : Nat) (exponent : Int)
  | infinite
  | notANumber
deriving DecidableEq, Repr, Inhabited

/-- A double-precision number. -/
structure Binary64 where
  isNegative : Bool
  magnitude : Magnitude
deriving DecidableEq, Repr, Inhabited

namespace Binary64

/-- The least exponent of a number. -/
def leastExponent : Int := -1074

/-- The greatest exponent of a number. -/
def greatestExponent : Int := 971

/-- The least significand with all 53 bits, `2 ^ 52`. -/
def fullSignificand : Nat := 0x10000000000000

/-- The quotient rounded to the nearest number, and to the even one of two
equally near ones. -/
def divideToEven (value divisor : Nat) : Nat :=
  let quotient := value / divisor
  let rest := value % divisor
  if 2 * rest < divisor then quotient
  else if divisor < 2 * rest then quotient + 1
  else if quotient % 2 = 0 then quotient else quotient + 1

/-- The two sides of a comparison of `value * 2 ^ binary` with
`other * 10 ^ decimal` without negative exponents. -/
def aligned (value : Nat) (binary : Int) (other : Nat) (decimal : Int) : Nat × Nat :=
  (value * Nat.pow 2 binary.toNat * Nat.pow 10 (-decimal).toNat,
    other * Nat.pow 10 decimal.toNat * Nat.pow 2 (-binary).toNat)

/-- The magnitude nearest to the positive fraction `value / divisor`. -/
def nearestTo (value divisor : Nat) : Magnitude :=
  let estimate : Int := (Nat.log2 value : Int) - Nat.log2 divisor
  let (power, given) := aligned divisor estimate value 0
  -- The leading bit of the fraction is at the estimate or one below.
  let leading := if given < power then estimate - 1 else estimate
  let exponent := max leastExponent (leading - 52)
  let significand :=
    divideToEven (value * Nat.pow 2 (-exponent).toNat) (divisor * Nat.pow 2 exponent.toNat)
  let (significand, exponent) :=
    if significand = 2 * fullSignificand then (fullSignificand, exponent + 1)
    else (significand, exponent)
  if greatestExponent < exponent then .infinite else .finite significand exponent

/-- The magnitude nearest to `digits * 10 ^ exponent`.  Far outside the range
of numbers the power is not computed. -/
def ofDecimal (digits : Nat) (exponent : Int) : Magnitude :=
  let length : Int := (toString digits).length
  if digits = 0 ∨ length + exponent < -330 then .finite 0 leastExponent
  else if 310 < length + exponent then .infinite
  else nearestTo (digits * Nat.pow 10 exponent.toNat) (Nat.pow 10 (-exponent).toNat)

/-- Whether `digits * 10 ^ exponent` reads as a number.  The numbers that read
as it reach half way to its neighbours; the lower neighbour of a power of two
is nearer. -/
def readsAs (significand : Nat) (binary : Int) (digits : Nat) (exponent : Int) : Bool :=
  let below := if significand = fullSignificand ∧ leastExponent < binary then 1 else 2
  let (low, decimalLow) := aligned (4 * significand - below) (binary - 2) digits exponent
  let (high, decimalHigh) := aligned (4 * significand + 2) (binary - 2) digits exponent
  if significand % 2 = 0 then low ≤ decimalLow && decimalHigh ≤ high
  else low < decimalLow && decimalHigh < high

/-- The multiple of a power of ten next to a number that reads as it, if one of
the two neighbours does.  The nearer one is taken, and the greater of two
equally near ones. -/
def onGrid? (significand : Nat) (binary exponent : Int) : Option Nat :=
  let (value, unit) := aligned significand binary 1 exponent
  let lower := value / unit
  let lowerReads := lower ≠ 0 && readsAs significand binary lower exponent
  let upperReads := readsAs significand binary (lower + 1) exponent
  if lowerReads && (!upperReads || 2 * (value % unit) < unit) then some lower
  else if upperReads then some (lower + 1)
  else none

/-- The fewest digits, with their power of ten, that read as a positive
number: the coarsest grid with a hit. -/
def shortest (significand : Nat) (binary : Int) : Nat × Int :=
  let exponents := (List.range 660).map fun (step : Nat) => (310 : Int) - step
  (exponents.findSome? fun exponent =>
    (onGrid? significand binary exponent).map fun digits => (digits, exponent)).getD (0, 0)

/-- Digits times a power of ten, written without an exponent. -/
def positional (digits : Nat) (exponent : Int) : String :=
  let written := (toString digits).toList
  if 0 ≤ exponent then String.ofList (written ++ List.replicate exponent.toNat '0') ++ ".0"
  else
    let places := (-exponent).toNat
    let padded := List.replicate (places + 1 - written.length) '0' ++ written
    let whole := padded.length - places
    String.ofList (padded.take whole ++ '.' :: padded.drop whole)

/-- The text of a magnitude. -/
def magnitudeText : Magnitude → String
  | .finite significand exponent =>
    if significand = 0 then "0.0"
    else
      let (digits, power) := shortest significand exponent
      positional digits power
  | .infinite => "inf.0"
  | .notANumber => "NaN.0"

/-- The text of a number.  What is not a number has no sign. -/
def text (number : Binary64) : String :=
  if number.isNegative ∧ number.magnitude ≠ .notANumber then "-" ++ magnitudeText number.magnitude
  else magnitudeText number.magnitude

end Binary64

end ErrorAccessors
