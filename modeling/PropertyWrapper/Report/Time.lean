import PropertyWrapper.Document.Scalar

/-!
# Times of reports

A report names the time at which it was written, in the calendar and on the clock of zero longitude.
-/

namespace PropertyWrapper.Report

open Document

/-- The days from the first of March of the year zero to the first of January 1970. -/
def daysToEpoch : Nat := 719468

/-- The date a number of days after the first of January 1970. Years start in March here, so that a
leap day is the last day of a year. -/
def dateOfDays (days : Nat) : Date :=
  let total := days + daysToEpoch
  let era := total / 146097
  let dayOfEra := total % 146097
  let yearOfEra := (dayOfEra - dayOfEra / 1460 + dayOfEra / 36524 - dayOfEra / 146096) / 365
  let dayOfYear := dayOfEra - (365 * yearOfEra + yearOfEra / 4 - yearOfEra / 100)
  let monthFromMarch := (5 * dayOfYear + 2) / 153
  let month := if monthFromMarch < 10 then monthFromMarch + 3 else monthFromMarch - 9
  { year := era * 400 + yearOfEra + (if month ≤ 2 then 1 else 0)
    month
    day := dayOfYear - (153 * monthFromMarch + 2) / 5 + 1 }

/-- The written time a number of seconds after the start of 1970. -/
def timeText (seconds : Nat) : String :=
  let date := dateOfDays (seconds / 86400)
  let rest := seconds % 86400
  date.text ++ "T" ++ padded 2 (rest / 3600) ++ ":" ++ padded 2 (rest / 60 % 60) ++ ":"
    ++ padded 2 (rest % 60) ++ "Z"

end PropertyWrapper.Report
