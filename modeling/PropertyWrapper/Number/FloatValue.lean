import PropertyWrapper.Number.Shortest

/-!
# Signed floating point values

A number of the 64-bit binary format with its sign, or a value that is not a number.
-/

namespace PropertyWrapper.Number

/-- A floating point value. -/
inductive FloatValue where
  | number (negative : Bool) (magnitude : Binary64)
  /-- A value that is not a number. It equals only itself: values that were computed apart from each
  other have different marks. -/
  | notANumber (mark : Option Nat := none)
deriving DecidableEq, Repr

namespace FloatValue

/-- Values are positional for exponents from -4 to 15, and a whole number keeps a point and a zero. -/
def format : FloatFormat :=
  { leastPositional := -4, firstScientific := 16, marksWhole := true, infinity := "inf" }

/-- The text of a value. -/
def text : FloatValue → String
  | .number negative magnitude => (if negative then "-" else "") ++ magnitude.text format
  | .notANumber _ => "nan"

/-- Zero. -/
def zero : FloatValue := .number false (.finite 0 Binary64.leastExponent)

/-- The value of opposite sign. -/
def negate : FloatValue → FloatValue
  | .number negative magnitude => .number (!negative) magnitude
  | .notANumber mark => .notANumber mark

/-- The value nearest to a fraction. -/
def ofFraction (num : Int) (den : Nat) : FloatValue :=
  if num = 0 then .zero else .number (num < 0) (.ofQuotient num.natAbs den)

/-- A finite number as a fraction with a sign. -/
def signedFraction (negative : Bool) (significand : Nat) (exponent : Int) : Int × Nat :=
  let (num, den) := scaled 2 significand exponent
  (if negative then -(num : Int) else num, den)

/-- The sum of two values, rounded. -/
def add : FloatValue → FloatValue → FloatValue
  | .number n (.finite s e), .number n' (.finite s' e') =>
    let (num, den) := signedFraction n s e
    let (num', den') := signedFraction n' s' e'
    ofFraction (num * den' + num' * den) (den * den')
  | .number n .infinity, .number n' .infinity =>
    if n = n' then .number n .infinity else .notANumber
  | .number n .infinity, .number _ (.finite _ _) => .number n .infinity
  | .number _ (.finite _ _), .number n .infinity => .number n .infinity
  | .notANumber _, _ | _, .notANumber _ => .notANumber

/-- The product of two values, rounded. -/
def mul : FloatValue → FloatValue → FloatValue
  | .number n (.finite s e), .number n' (.finite s' e') =>
    let (num, den) := signedFraction n s e
    let (num', den') := signedFraction n' s' e'
    if num * num' = 0 then .number (n != n') (.finite 0 Binary64.leastExponent)
    else ofFraction (num * num') (den * den')
  | .number n .infinity, .number n' (.finite s _) | .number n (.finite s _), .number n' .infinity =>
    if s = 0 then .notANumber else .number (n != n') .infinity
  | .number n .infinity, .number n' .infinity => .number (n != n') .infinity
  | .notANumber _, _ | _, .notANumber _ => .notANumber

/-- Whether a value is zero, of either sign. -/
def isZero : FloatValue → Bool
  | .number _ (.finite 0 _) => true
  | _ => false

/-- The integer that a value equals, if there is one. -/
def integer? : FloatValue → Option Int
  | .number negative (.finite significand exponent) =>
    let (num, den) := scaled 2 significand exponent
    if num % den = 0 then
      some (if negative then -((num / den : Nat) : Int) else ((num / den : Nat) : Int))
    else none
  | _ => none

end FloatValue

end PropertyWrapper.Number
