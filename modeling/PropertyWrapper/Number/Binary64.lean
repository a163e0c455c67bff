/-!
# Non-negative binary floating point numbers

A number of the 64-bit binary format without its sign: a significand below `2 ^ 53` times a power of
two, or infinity. A decimal is read as the nearest such number, and a tie goes to the even
significand.
-/

namespace PropertyWrapper.Number

/-- A quotient rounded to the nearest natural number, a tie going to the even one. -/
def roundDiv (num den : Nat) : Nat :=
  let quotient := num / den
  let remainder := num % den
  if den < 2 * remainder || (2 * remainder == den && quotient % 2 == 1) then quotient + 1
  else quotient

/-- The numerator and denominator of `digits * base ^ exponent`. -/
def scaled (base digits : Nat) (exponent : Int) : Nat × Nat :=
  if exponent < 0 then (digits, Nat.pow base exponent.natAbs)
  else (digits * Nat.pow base exponent.natAbs, 1)

/-- How many decimal digits a number has; zero has one. -/
def decimalLength (n : Nat) : Nat := (Nat.toDigits 10 n).length

/-- A non-negative number of the 64-bit binary format. -/
inductive Binary64 where
  /-- The number `significand * 2 ^ exponent`. -/
  | finite (significand : Nat) (exponent : Int)
  /-- What is too large for any finite number. -/
  | infinity
deriving DecidableEq, Repr, Inhabited

namespace Binary64

/-- The number of bits of a significand. -/
def precision : Nat := 53

/-- The least exponent of a finite number. -/
def leastExponent : Int := -1074

/-- The greatest exponent of a finite number. -/
def greatestExponent : Int := 971

/-- The exponent at which the quotient `num / den` has a significand of full precision, but never less
than the least one. -/
def exponentOf (num den : Nat) : Int :=
  let guess : Int := (num.log2 : Int) - (den.log2 : Int) - 52
  let enough :=
    if guess < 0 then den * Nat.pow 2 52 ≤ num * Nat.pow 2 guess.natAbs
    else den * Nat.pow 2 guess.natAbs * Nat.pow 2 52 ≤ num
  max (if enough then guess else guess - 1) leastExponent

/-- The number nearest to the positive quotient `num / den`. -/
def ofQuotient (num den : Nat) : Binary64 :=
  let exponent := exponentOf num den
  let significand :=
    if exponent < 0 then roundDiv (num * Nat.pow 2 exponent.natAbs) den
    else roundDiv num (den * Nat.pow 2 exponent.natAbs)
  let (significand, exponent) :=
    if significand = Nat.pow 2 precision then (Nat.pow 2 (precision - 1), exponent + 1)
    else (significand, exponent)
  if greatestExponent < exponent then .infinity else .finite significand exponent

/-- The number nearest to the decimal `digits * 10 ^ exponent`. -/
def ofDecimal (digits : Nat) (exponent : Int) : Binary64 :=
  let magnitude := (decimalLength digits : Int) + exponent
  if digits = 0 || magnitude < -400 then .finite 0 leastExponent
  else if 400 < magnitude then .infinity
  else
    let (num, den) := scaled 10 digits exponent
    ofQuotient num den

end Binary64

end PropertyWrapper.Number
