import PropertyWrapper.Number.DigitLimit
import PropertyWrapper.Number.FloatValue
import PropertyWrapper.Text.Loose

/-!
# Scalars

The values of a document that have no parts, with two written forms: one in which texts stand between
quotes, and a plain one.
-/

namespace PropertyWrapper.Document

open Number Text

/-! ## Dates -/

/-- A day of the calendar. -/
structure Date where
  year : Nat
  month : Nat
  day : Nat
deriving DecidableEq, Repr

/-- A moment of a day, with the offset of its clock in seconds if that is known. -/
structure Moment where
  date : Date
  hour : Nat
  minute : Nat
  second : Nat
  microsecond : Nat
  offset : Option Int
deriving DecidableEq, Repr

/-- A number in decimal digits, filled up with zeros to a width. -/
def padded (width n : Nat) : String :=
  let digits := Nat.toDigits 10 n
  String.ofList (List.replicate (width - digits.length) '0' ++ digits)

/-- The plain form of a date. -/
def Date.text (date : Date) : String :=
  padded 4 date.year ++ "-" ++ padded 2 date.month ++ "-" ++ padded 2 date.day

/-- The numbers of a date. -/
def Date.parts (date : Date) : List Nat := [date.year, date.month, date.day]

/-- The quoted form of a date. -/
def Date.literal (date : Date) : String :=
  "datetime.date(" ++ String.intercalate ", " (date.parts.map toString) ++ ")"

/-- The plain form of an offset: sign, hours and minutes. -/
def offsetText (offset : Int) : String :=
  let minutes := offset.natAbs / 60
  (if offset < 0 then "-" else "+") ++ padded 2 (minutes / 60) ++ ":" ++ padded 2 (minutes % 60)

/-- The quoted form of a duration; a negative one is a negative number of days and a rest. -/
def durationLiteral (duration : Int) : String :=
  let days := duration.fdiv 86400
  let seconds := duration.fmod 86400
  let dayPart := if days = 0 then [] else ["days=" ++ toString days]
  let secondPart := if seconds = 0 then [] else ["seconds=" ++ toString seconds]
  let parts := if duration = 0 then ["0"] else dayPart ++ secondPart
  "datetime.timedelta(" ++ String.intercalate ", " parts ++ ")"

/-- The quoted form of an offset. -/
def offsetLiteral (offset : Int) : String :=
  if offset = 0 then "datetime.timezone.utc"
  else "datetime.timezone(" ++ durationLiteral offset ++ ")"

/-- The plain form of a moment; a fraction of a second is written only if it is not zero. -/
def Moment.text (moment : Moment) : String :=
  moment.date.text ++ " " ++ padded 2 moment.hour ++ ":" ++ padded 2 moment.minute ++ ":"
    ++ padded 2 moment.second
    ++ (if moment.microsecond = 0 then "" else "." ++ padded 6 moment.microsecond)
    ++ moment.offset.elim "" offsetText

/-- The quoted form of a moment; zero seconds and fractions at the end are left out. -/
def Moment.literal (moment : Moment) : String :=
  let fine :=
    if moment.microsecond ≠ 0 then [moment.second, moment.microsecond]
    else if moment.second ≠ 0 then [moment.second]
    else []
  "datetime.datetime("
    ++ String.intercalate ", "
      ((moment.date.parts ++ [moment.hour, moment.minute] ++ fine).map toString)
    ++ moment.offset.elim "" (fun offset => ", tzinfo=" ++ offsetLiteral offset) ++ ")"

/-! ## Scalars -/

/-- A value without parts. -/
inductive Scalar where
  | null
  | bool (value : Bool)
  | int (value : Int)
  | float (value : FloatValue)
  | text (value : String)
  /-- A text with lone surrogates. -/
  | brokenText (value : Points)
  | bytes (value : List Nat)
  | date (value : Date)
  | moment (value : Moment)
deriving DecidableEq, Repr

namespace Scalar

/-- A text as a scalar. -/
def ofLoose : LooseText → Scalar
  | .whole value => .text value
  | .broken value _ => .brokenText value

/-- The text of code points. -/
def ofPoints (value : Points) : Scalar := ofLoose (.ofPoints value)

/-- Whether a scalar is an integer with too many digits to be written. -/
def isTooLong : Scalar → Bool
  | .int value => exceedsDigitLimit value.natAbs
  | _ => false

/-- The form in which a scalar stands inside a larger text, with texts between quotes. -/
def literal : Scalar → String
  | .null => "None"
  | .bool value => if value then "True" else "False"
  | .int value => toString value
  | .float value => value.text
  | .text value => quoted value
  | .brokenText value => quotedPoints value
  | .bytes value => quotedBytes value
  | .date value => value.literal
  | .moment value => value.literal

/-- The plain form of a scalar. -/
def plain : Scalar → LooseText
  | .text value => value
  | .brokenText value => .ofPoints value
  | .date value => value.text
  | .moment value => value.text
  | scalar => scalar.literal

/-- Whether a scalar counts as true: all but null, false, zero and what is empty. -/
def isTruthy : Scalar → Bool
  | .null => false
  | .bool value => value
  | .int value => value ≠ 0
  | .float value => !value.isZero
  | .text value => value ≠ ""
  | .brokenText value => !value.isEmpty
  | .bytes value => !value.isEmpty
  | .date _ => true
  | .moment _ => true

end Scalar

end PropertyWrapper.Document
