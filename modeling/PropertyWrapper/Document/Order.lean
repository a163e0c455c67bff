import PropertyWrapper.Document.Number
import PropertyWrapper.Sorting.Stable

/-!
# Order of scalars

Scalars are equal as keys when they denote the same number or the same instant, whatever their written
form. Numbers are ordered by value, whatever their type, and texts, bytes, dates and moments each among
themselves. All other pairs have no order, and a list with such a pair cannot be sorted.
-/

namespace PropertyWrapper.Document

open Number Sorting Text

/-! ## Numbers -/

/-- Where a number stands on the line of numbers. -/
inductive Rank where
  | below
  | fraction (num : Int) (den : Nat)
  | above
deriving DecidableEq, Repr

/-- Which of two ranks comes first. -/
def Rank.compare : Rank → Rank → Ordering
  | .fraction a b, .fraction c d => Ord.compare (a * d) (c * b)
  | .below, .below | .above, .above => .eq
  | .below, _ | _, .above => .lt
  | .above, _ | _, .below => .gt

/-- The rank of a floating point value; what is not a number has none. -/
def floatRank? : FloatValue → Option Rank
  | .number negative (.finite significand exponent) =>
    let (num, den) := FloatValue.signedFraction negative significand exponent
    some (.fraction num den)
  | .number negative .infinity => some (if negative then .below else .above)
  | .notANumber _ => none

/-! ## Dates -/

/-- The days before a year. -/
def daysBeforeYear (year : Nat) : Nat :=
  let past := year - 1
  past * 365 + past / 4 - past / 100 + past / 400

/-- The days from the start of the calendar to a date. -/
def Date.ordinal (date : Date) : Nat :=
  (List.range (date.month - 1)).foldl (fun days month => days + daysIn date.year (month + 1))
    (daysBeforeYear date.year + date.day)

/-- The microseconds from the start of the calendar to a moment on a clock without offset. -/
def Moment.instant (moment : Moment) : Int :=
  let seconds := ((moment.date.ordinal * 24 + moment.hour) * 60 + moment.minute) * 60 + moment.second
  ((seconds : Int) - moment.offset.getD 0) * 1000000 + moment.microsecond

/-! ## Scalars -/

/-- Whether two moments are equal. Clocks without offset show the same numbers, and those with one the
same instant. -/
def Moment.same (a b : Moment) : Bool :=
  a.offset.isSome = b.offset.isSome && a.instant = b.instant

namespace Scalar

/-- The integer that a scalar equals: truth values are zero and one. -/
def integer? : Scalar → Option Int
  | .bool value => some (if value then 1 else 0)
  | .int value => some value
  | .float value => value.integer?
  | _ => none

/-- Whether two scalars are the same key of a mapping. -/
def sameKey (a b : Scalar) : Bool :=
  match a, b with
  | .moment a, .moment b => a.same b
  | _, _ =>
    match a.integer?, b.integer? with
    | some m, some n => m = n
    | _, _ => a = b

/-- The code points of a text. -/
def points? : Scalar → Option Points
  | .text value => some (points value)
  | .brokenText value => some value
  | _ => none

/-- The rank of a number; what is no number at all is no case of this order. -/
def rank? : Scalar → Option (Option Rank)
  | .bool value => some (some (.fraction (if value then 1 else 0) 1))
  | .int value => some (some (.fraction value 1))
  | .float value => some (floatRank? value)
  | _ => none

/-- Which of two scalars comes first, if they have an order. A value that is not a number comes
neither before nor behind another number. -/
def compare? (a b : Scalar) : Option Ordering :=
  match a.rank?, b.rank? with
  | some (some a), some (some b) => some (a.compare b)
  | some _, some _ => some .eq
  | _, _ =>
    match a, b with
    | .null, .null => some .eq
    | .text a, .text b => some (compare a b)
    | .text a, .brokenText b => some (compare (points a) b)
    | .brokenText a, .text b => some (compare a (points b))
    | .brokenText a, .brokenText b => some (compare a b)
    | .bytes a, .bytes b => some (compare a b)
    | .date a, .date b => some (compare a.ordinal b.ordinal)
    | .moment a, .moment b =>
      if a.offset.isSome = b.offset.isSome then some (compare a.instant b.instant) else none
    | _, _ => none

end Scalar

/-- Which of two paths comes first: the first difference decides, also when it has no order, and a path
comes before those that go on behind it. -/
def comparePaths? : List Scalar → List Scalar → Option Ordering
  | [], [] => some .eq
  | [], _ :: _ => some .lt
  | _ :: _, [] => some .gt
  | a :: as, b :: bs => if a.sameKey b then comparePaths? as bs else a.compare? b

/-- The elements of a list by their paths, elements with one path in their order; none if two of them
have no order. -/
def sortByPath? {α : Type} (path : α → List Scalar) (xs : List α) : Option (List α) :=
  if xs.all fun a => xs.all fun b => (comparePaths? (path a) (path b)).isSome then
    some (sortStably (fun a b => comparePaths? (path a) (path b) != some .gt) xs)
  else none

end PropertyWrapper.Document
