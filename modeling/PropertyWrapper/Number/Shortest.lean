import PropertyWrapper.Number.Binary64

/-!
# The shortest decimal of a binary number

A binary number is written with the fewest decimal digits that read back as the same number; of
several such decimals the nearest is taken, and a tie goes to the even digit.
-/

namespace PropertyWrapper.Number

/-! ## Digits -/

/-- The reals that read back as a number, given by integer ends over one denominator. -/
structure Interval where
  low : Nat
  value : Nat
  high : Nat
  den : Nat
  /-- Whether the two ends themselves read back as the number. -/
  closed : Bool

/-- The reals whose nearest binary number is `significand * 2 ^ exponent`: half a step to each side,
and only a quarter of the upper step below a power of two. -/
def Interval.around (significand : Nat) (exponent : Int) : Interval :=
  let below :=
    if significand = Nat.pow 2 (Binary64.precision - 1) && Binary64.leastExponent < exponent then 1 else 2
  let (unit, den) := scaled 2 1 (exponent - 2)
  { low := (4 * significand - below) * unit
    value := 4 * significand * unit
    high := (4 * significand + 2) * unit
    den
    closed := significand % 2 == 0 }

/-- Whether the decimal `digits * 10 ^ exponent` lies in an interval. -/
def Interval.admits (i : Interval) (digits : Nat) (exponent : Int) : Bool :=
  let (num, den) := scaled 10 digits exponent
  let (low, middle, high) := (i.low * den, num * i.den, i.high * den)
  if i.closed then low ≤ middle && middle ≤ high else low < middle && middle < high

/-- The least power of ten above the value of an interval. -/
def Interval.magnitude (i : Interval) : Int :=
  let guess : Int := (decimalLength i.value : Int) - (decimalLength i.den : Int)
  let (power, powerDen) := scaled 10 1 guess
  if i.value * powerDen < power * i.den then guess else guess + 1

/-- The nearest admitted decimal on the grid of multiples of `10 ^ exponent`, if there is one. -/
def Interval.onGrid (i : Interval) (exponent : Int) : Option Nat :=
  let (num, den) :=
    if exponent < 0 then (i.value * Nat.pow 10 exponent.natAbs, i.den)
    else (i.value, i.den * Nat.pow 10 exponent.natAbs)
  let below := num / den
  let nearest := roundDiv num den
  let other := if nearest = below then below + 1 else below
  if i.admits nearest exponent then some nearest
  else if i.admits other exponent then some other
  else none

/-- The first grid of at most `count` more digits on which an interval has a decimal. -/
def Interval.shortestFrom (i : Interval) (magnitude : Int) : Nat → Nat → Nat × Int
  | 0, width => ((i.onGrid (magnitude - width)).getD 0, magnitude - width)
  | count + 1, width =>
    match i.onGrid (magnitude - width) with
    | some digits => (digits, magnitude - width)
    | none => i.shortestFrom magnitude count (width + 1)

/-- A decimal without the zeros at the end of its digits. -/
def dropZeros : Nat → Nat × Int → Nat × Int
  | 0, decimal => decimal
  | count + 1, (digits, exponent) =>
    if digits != 0 && digits % 10 == 0 then dropZeros count (digits / 10, exponent + 1)
    else (digits, exponent)

/-- The shortest digits and the power of ten that scales them, for a positive finite number. -/
def shortestDigits (significand : Nat) (exponent : Int) : Nat × Int :=
  let interval := Interval.around significand exponent
  dropZeros 20 (interval.shortestFrom interval.magnitude 17 1)

/-! ## Text -/

/-- How a floating point number is written. -/
structure FloatFormat where
  /-- The least exponent of ten that is written positionally. -/
  leastPositional : Int
  /-- The first exponent of ten that is written after an `e`. -/
  firstScientific : Int
  /-- Whether a number without a fraction is marked by a point and a zero. -/
  marksWhole : Bool
  /-- The text of infinity. -/
  infinity : String

/-- An exponent after its sign, in at least two digits. -/
def exponentText (exponent : Int) : String :=
  let digits := toString exponent.natAbs
  (if exponent < 0 then "e-" else "e+") ++ (if digits.length < 2 then "0" ++ digits else digits)

/-- Digits with a point after the first `places` of them; zeros fill what is missing. -/
def positional (format : FloatFormat) (digits : List Char) (places : Int) : String :=
  if places ≤ 0 then
    "0." ++ String.ofList (List.replicate places.natAbs '0' ++ digits)
  else
    let whole := digits.take places.natAbs
    let whole := whole ++ List.replicate (places.natAbs - whole.length) '0'
    let fraction := digits.drop places.natAbs
    if fraction.isEmpty then String.ofList whole ++ (if format.marksWhole then ".0" else "")
    else String.ofList whole ++ "." ++ String.ofList fraction

/-- Digits in scientific notation, the point after the first of them. -/
def scientific (digits : List Char) (exponent : Int) : String :=
  let mantissa :=
    match digits with
    | first :: second :: rest => String.ofList (first :: '.' :: second :: rest)
    | _ => String.ofList digits
  mantissa ++ exponentText exponent

/-- The text of a number in a format. -/
def Binary64.text (format : FloatFormat) : Binary64 → String
  | .infinity => format.infinity
  | .finite 0 _ => if format.marksWhole then "0.0" else "0"
  | .finite (significand + 1) exponent =>
    let (digits, scale) := shortestDigits (significand + 1) exponent
    let characters := Nat.toDigits 10 digits
    let magnitude : Int := (characters.length : Int) + scale
    if magnitude - 1 < format.leastPositional || format.firstScientific ≤ magnitude - 1 then
      scientific characters (magnitude - 1)
    else positional format characters magnitude

end PropertyWrapper.Number
