import PropertyWrapper.Document.Scalar
import PropertyWrapper.Document.Token
import PropertyWrapper.Text.Blank
import PropertyWrapper.Text.Digit
import PropertyWrapper.Text.LowerCase

/-!
# Written numbers and dates of documents

Which plain scalars denote integers, floating point numbers and dates, and what they denote. Underscores
between digits are ignored, and digits joined by colons are places in base sixty.
-/

namespace PropertyWrapper.Document

open Number Text

/-! ## Forms -/

/-- A sign in front of characters, and what stands behind it. -/
def splitSign : List Char → Bool × List Char
  | '-' :: rest => (true, rest)
  | '+' :: rest => (false, rest)
  | chars => (false, chars)

/-- Whether a character is a decimal digit or an underscore. -/
def isDigitOrMark (c : Char) : Bool := c.isDigit || c = '_'

/-- Whether characters are one or more of a class. -/
def isRun (p : Char → Bool) (chars : List Char) : Bool := !chars.isEmpty && chars.all p

/-- Whether characters are a digit of a class followed by digits and underscores. -/
def isDigits (p : Char → Bool) : List Char → Bool
  | [] => false
  | c :: rest => p c && rest.all isDigitOrMark

/-- Whether characters are a place in base sixty. -/
def isSixtieth : List Char → Bool
  | [a] => a.isDigit
  | [a, b] => '0' ≤ a && a ≤ '5' && b.isDigit
  | _ => false

/-- Whether characters are places in base sixty behind a first number. -/
def isSexagesimal (p : Char → Bool) (chars : List Char) : Bool :=
  match splitAt ':' chars with
  | first :: second :: rest => isDigits p first && (second :: rest).all isSixtieth
  | _ => false

/-- Whether a digit is not zero. -/
def isNonZero (c : Char) : Bool := c.isDigit && c ≠ '0'

/-- Whether characters denote an integer. -/
def isIntegerText (chars : List Char) : Bool :=
  let body := (splitSign chars).2
  match body with
  | '0' :: 'b' :: rest => isRun (fun c => c = '0' || c = '1' || c = '_') rest
  | '0' :: 'x' :: rest => isRun (fun c => isDigitOrMark c || ('a' ≤ c && c ≤ 'f') || ('A' ≤ c && c ≤ 'F')) rest
  | '0' :: rest => rest.all fun c => ('0' ≤ c && c ≤ '7') || c = '_'
  | _ => isDigits isNonZero body || isSexagesimal isNonZero body

/-- Whether characters are an exponent, or nothing. -/
def isExponent : List Char → Bool
  | [] => true
  | e :: sign :: digits =>
    (e = 'e' || e = 'E') && (sign = '-' || sign = '+') && isRun Char.isDigit digits
  | _ => false

/-- Whether characters denote a floating point number. -/
def isFloatText (chars : List Char) : Bool :=
  let body := (splitSign chars).2
  let whole := body.takeWhile (· ≠ '.')
  match body.dropWhile (· ≠ '.') with
  | [] => false
  | _ :: fraction =>
    let digits := fraction.takeWhile isDigitOrMark
    let rest := fraction.dropWhile isDigitOrMark
    if whole.isEmpty then
      [".inf", ".Inf", ".INF"].contains (String.ofList body)
        || [".nan", ".NaN", ".NAN"].contains (String.ofList chars)
        || (chars.head? = some '.' && isDigits Char.isDigit digits && isExponent rest)
    else
      (isDigits Char.isDigit whole && isExponent rest)
        || (isSexagesimal Char.isDigit whole && rest.isEmpty)

/-! ## Values -/

/-- The number written in digits of a base. -/
def inBase (base : Nat) (digits : List Char) : Nat :=
  digits.foldl
    (fun total c =>
      let digit :=
        if c.isDigit then c.toNat - '0'.toNat
        else if 'a' ≤ c && c ≤ 'f' then c.toNat - 'a'.toNat + 10
        else c.toNat - 'A'.toNat + 10
      total * base + digit)
    0

/-- A number with a sign. -/
def signed (negative : Bool) (n : Nat) : Int := if negative then -(n : Int) else n

/-- The error about characters that are no integer of a base. -/
def badInteger (base : Nat) (chars : List Char) : DocumentError :=
  .badScalar ("invalid literal for int() with base " ++ toString base ++ ": "
    ++ quoted (String.ofList chars))

/-- Whether a character is a digit of a base. -/
def isDigitOf (base : Nat) (c : Char) : Bool :=
  if base = 16 then c.isDigit || ('a' ≤ c && c ≤ 'f') || ('A' ≤ c && c ≤ 'F')
  else c.isDigit && c.toNat < '0'.toNat + base

/-- The letter that marks a base behind a zero. -/
def baseLetter? (base : Nat) : Option Char :=
  [(2, 'b'), (8, 'o'), (16, 'x')].lookup base

/-- What stands behind the mark of a base, if there is one. -/
def dropBaseMark (base : Nat) : List Char → List Char
  | '0' :: c :: rest => if baseLetter? base = some c.toLower then rest else '0' :: c :: rest
  | chars => chars

/-- The integer in digits of a base, with an optional sign and mark of the base and with blanks around
it. Decimal digits may be of any script, and only so many can be converted. -/
def integerIn (base : Nat) (chars : List Char) : Except DocumentError Int :=
  let (negative, body) := splitSign (trimmed (chars.map asciiDigit))
  let digits := dropBaseMark base body
  let count := (digits.takeWhile (isDigitOf base)).length
  if base = 10 && digitLimit < count then .error (.badScalar (digitLimitMessage (some count)))
  else if isRun (isDigitOf base) digits then .ok (signed negative (inBase base digits))
  else .error (badInteger base chars)

/-- Places in base sixty, the highest first. -/
def inBaseSixty (places : List Int) : Int := places.foldl (fun total place => total * 60 + place) 0

/-- The integer that characters denote: binary, hexadecimal or octal behind a zero, in base sixty, or
decimal. -/
def integerValue (chars : List Char) : Except DocumentError Int := do
  let chars := chars.filter (· ≠ '_')
  if chars.isEmpty then throw .emptyNumber
  let (negative, body) := splitSign chars
  let magnitude ←
    match body with
    | [] => throw .emptyNumber
    | ['0'] => pure 0
    | '0' :: 'b' :: digits => integerIn 2 digits
    | '0' :: 'x' :: digits => integerIn 16 digits
    | '0' :: _ => integerIn 8 body
    | _ =>
      if body.contains ':' then inBaseSixty <$> (splitAt ':' body).mapM (integerIn 10)
      else integerIn 10 body
  return if negative then -magnitude else magnitude

/-- The digits before and behind a point, as one number and how many are behind it. -/
def decimalParts? (chars : List Char) : Option (Nat × Nat) :=
  let whole := chars.takeWhile (· ≠ '.')
  let fraction := (chars.dropWhile (· ≠ '.')).drop 1
  if isRun Char.isDigit (whole ++ fraction) then
    some (inBase 10 (whole ++ fraction), fraction.length)
  else none

/-- The exponent behind a mantissa. -/
def exponent? : List Char → Option Int
  | [] => some 0
  | _ :: rest =>
    let (negative, digits) := splitSign rest
    if isRun Char.isDigit digits then some (signed negative (inBase 10 digits)) else none

/-- The magnitude of an unsigned decimal with an optional exponent. -/
def decimalMagnitude? (chars : List Char) : Option Binary64 := do
  let (digits, places) ← decimalParts? (chars.takeWhile (· ≠ 'e'))
  let exponent ← exponent? (chars.dropWhile (· ≠ 'e'))
  return .ofDecimal digits (exponent - places)

/-- The floating point value in lower-case characters, with an optional sign and blanks around it. -/
def floatIn (chars : List Char) : Except DocumentError FloatValue :=
  let (negative, body) := splitSign (trimmed (chars.map asciiDigit))
  if ["inf", "infinity"].contains (String.ofList body) then .ok (.number negative .infinity)
  else if String.ofList body = "nan" then .ok .notANumber
  else
    match decimalMagnitude? body with
    | some magnitude => .ok (.number negative magnitude)
    | none =>
      .error (.badScalar ("could not convert string to float: " ++ quoted (String.ofList chars)))

/-- Places in base sixty, the lowest first and worth `unit`, on top of a sum. Each product and each sum
is rounded. -/
def addSixtieths (sum : FloatValue) (unit : Nat) :
    List FloatValue → Except DocumentError FloatValue
  | [] => .ok sum
  | place :: places =>
    match FloatValue.ofFraction unit 1 with
    | .number _ .infinity => .error (.overflow "int too large to convert to float")
    | factor => addSixtieths (sum.add (place.mul factor)) (unit * 60) places

/-- Places in base sixty, the highest first. -/
def floatInBaseSixty (places : List FloatValue) : Except DocumentError FloatValue :=
  addSixtieths .zero 1 places.reverse

/-- The word for what is not a number. -/
def notANumberWord : List Char := ['.', 'n', 'a', 'n']

/-- The characters of a floating point number in their plain form, without underscores and in lower
case. -/
def plainFloat (chars : List Char) : List Char := lowerCase (chars.filter (· ≠ '_'))

/-- Whether characters are the word for what is not a number, possibly with a sign. -/
def isNotANumberWord (chars : List Char) : Bool := (splitSign (plainFloat chars)).2 = notANumberWord

/-- The floating point value that characters denote. -/
def floatValue (chars : List Char) : Except DocumentError FloatValue := do
  let chars := plainFloat chars
  if chars.isEmpty then throw .emptyNumber
  let (negative, body) := splitSign chars
  let value ←
    if body = ['.', 'i', 'n', 'f'] then pure (.number false .infinity)
    else if body = notANumberWord then pure .notANumber
    else if body.contains ':' then floatInBaseSixty (← (splitAt ':' body).mapM floatIn)
    else floatIn body
  return if negative then value.negate else value

/-! ## Dates -/

/-- Between one and a number of digits at the start of characters. -/
def digits? (least most : Nat) (chars : List Char) : Option (List Char × List Char) :=
  let digits := (chars.take most).takeWhile Char.isDigit
  if least ≤ digits.length then some (digits, chars.drop digits.length) else none

/-- What stands behind a character. -/
def after? (c : Char) : List Char → Option (List Char)
  | [] => none
  | first :: rest => if first = c then some rest else none

/-- Whether a character is a space or a tab. -/
def isSpaceOrTab (c : Char) : Bool := c = ' ' || c = '\t'

/-- The written parts of a date and a time. -/
structure Stamp where
  year : List Char
  month : List Char
  day : List Char
  /-- The hour, minute, second and fraction, and the offset of the clock in seconds. -/
  time : Option (List Char × List Char × List Char × List Char × Option Int)

/-- The offset of a clock at the end of a time. -/
def offset? (chars : List Char) : Option (Option Int) :=
  match chars.dropWhile isSpaceOrTab with
  | [] => if chars.isEmpty then some none else none
  | ['Z'] => some (some 0)
  | sign :: rest => do
    if sign = '-' || sign = '+' then
      let (hours, rest) ← digits? 1 2 rest
      let minutes ←
        match rest with
        | [] => some []
        | _ => do
          let (minutes, rest) ← digits? 2 2 (← after? ':' rest)
          if rest.isEmpty then some minutes else none
      let seconds := (inBase 10 hours * 60 + inBase 10 minutes) * 60
      return some (signed (sign = '-') seconds)
    else none

/-- The parts of a date, with or without a time. -/
def stamp? (chars : List Char) : Option Stamp := do
  let (year, rest) ← digits? 4 4 chars
  let (month, rest) ← digits? 1 2 (← after? '-' rest)
  let (day, rest) ← digits? 1 2 (← after? '-' rest)
  match rest with
  | [] => return { year, month, day, time := none }
  | c :: others =>
    let rest ←
      if c = 'T' || c = 't' then some others
      else if isSpaceOrTab c then some (others.dropWhile isSpaceOrTab)
      else none
    let (hour, rest) ← digits? 1 2 rest
    let (minute, rest) ← digits? 2 2 (← after? ':' rest)
    let (second, rest) ← digits? 2 2 (← after? ':' rest)
    let (fraction, rest) :=
      match rest with
      | '.' :: rest => (rest.takeWhile Char.isDigit, rest.dropWhile Char.isDigit)
      | _ => ([], rest)
    let offset ← offset? rest
    return { year, month, day, time := some (hour, minute, second, fraction, offset) }

/-- Whether characters denote a date: without a time, month and day have two digits each. -/
def isDateText (chars : List Char) : Bool :=
  match stamp? chars with
  | none => false
  | some stamp => stamp.time.isSome || (stamp.month.length = 2 && stamp.day.length = 2)

/-- Whether a year has a leap day. -/
def isLeapYear (year : Nat) : Bool := year % 4 = 0 && (year % 100 ≠ 0 || year % 400 = 0)

/-- The number of days of a month. -/
def daysIn (year month : Nat) : Nat :=
  if month = 2 then (if isLeapYear year then 29 else 28)
  else if [4, 6, 9, 11].contains month then 30
  else 31

/-- A day of the calendar, if it exists. -/
def checkedDate (year month day : Nat) : Except DocumentError Date :=
  if year = 0 then .error (.badScalar "year 0 is out of range")
  else if month = 0 || 12 < month then .error (.badScalar "month must be in 1..12")
  else if day = 0 || daysIn year month < day then
    .error (.badScalar "day is out of range for month")
  else .ok { year, month, day }

/-- An offset of a clock, which must be less than a day. -/
def checkedOffset (offset : Int) : Except DocumentError Int :=
  if offset.natAbs < 86400 then .ok offset
  else
    .error (.badScalar
      ("offset must be a timedelta strictly between -timedelta(hours=24) and "
        ++ "timedelta(hours=24), not " ++ durationLiteral offset ++ "."))

/-- The date or moment that the written parts denote. -/
def Stamp.value (stamp : Stamp) : Except DocumentError Scalar := do
  let number := inBase 10
  match stamp.time with
  | none =>
    return .date (← checkedDate (number stamp.year) (number stamp.month) (number stamp.day))
  | some (hour, minute, second, fraction, offset) =>
    let offset ← offset.mapM checkedOffset
    let date ← checkedDate (number stamp.year) (number stamp.month) (number stamp.day)
    if 23 < number hour then throw (.badScalar "hour must be in 0..23")
    if 59 < number minute then throw (.badScalar "minute must be in 0..59")
    if 59 < number second then throw (.badScalar "second must be in 0..59")
    let places := fraction.take 6
    return .moment {
      date
      hour := number hour
      minute := number minute
      second := number second
      microsecond := number places * Nat.pow 10 (6 - places.length)
      offset }

/-- The date or moment that characters denote. -/
def dateValue (chars : List Char) : Except DocumentError Scalar :=
  match stamp? chars with
  | some stamp => stamp.value
  | none => .error .notATime

end PropertyWrapper.Document
