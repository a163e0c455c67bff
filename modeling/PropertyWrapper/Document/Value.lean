import PropertyWrapper.Document.Scalar

/-!
# Values of documents

A value is a scalar or is built from other values. The keys of a mapping are scalars. Where a
collection contains itself, the inner one is only hinted at.
-/

namespace PropertyWrapper.Document

/-- A value of a document. -/
inductive Value where
  | scalar (value : Scalar)
  | sequence (items : List Value)
  /-- Keys and values in document order. -/
  | mapping (entries : List (Scalar × Value))
  /-- A set, in the order of its slots. -/
  | set (members : List Scalar)
  /-- A sequence of pairs of any values. -/
  | pairs (items : List (Value × Value))
  /-- A collection that this is inside of. -/
  | again (isMapping : Bool)
deriving Inhabited

namespace Value

/-- Texts between two brackets, separated by commas. -/
def bracketed (opening closing : String) (texts : List String) : String :=
  opening ++ String.intercalate ", " texts ++ closing

mutual

/-- The form of a value in which texts stand between quotes. -/
def literal : Value → String
  | .scalar value => value.literal
  | .sequence items => bracketed "[" "]" (literals items)
  | .mapping entries => bracketed "\x7b" "\x7d" (entryLiterals entries)
  | .set [] => "set()"
  | .set (first :: rest) => bracketed "\x7b" "\x7d" ((first :: rest).map Scalar.literal)
  | .pairs items => bracketed "[" "]" (pairLiterals items)
  | .again isMapping => if isMapping then "\x7b...\x7d" else "[...]"

/-- The quoted forms of several values. -/
def literals : List Value → List String
  | [] => []
  | value :: rest => value.literal :: literals rest

/-- The quoted forms of the entries of a mapping. -/
def entryLiterals : List (Scalar × Value) → List String
  | [] => []
  | entry :: rest => entryLiteral entry :: entryLiterals rest

/-- The quoted form of an entry of a mapping. -/
def entryLiteral : Scalar × Value → String
  | (key, value) => key.literal ++ ": " ++ value.literal

/-- The quoted forms of several pairs. -/
def pairLiterals : List (Value × Value) → List String
  | [] => []
  | pair :: rest => pairLiteral pair :: pairLiterals rest

/-- The quoted form of a pair. -/
def pairLiteral : Value × Value → String
  | (first, second) => bracketed "(" ")" [first.literal, second.literal]

end

mutual

/-- Whether a value holds an integer with too many digits to be written. -/
def hasLongInteger : Value → Bool
  | .scalar value => value.isTooLong
  | .sequence items => haveLongInteger items
  | .mapping entries => entriesHaveLongInteger entries
  | .set members => members.any Scalar.isTooLong
  | .pairs items => pairsHaveLongInteger items
  | .again _ => false

/-- Whether one of several values holds such an integer. -/
def haveLongInteger : List Value → Bool
  | [] => false
  | value :: rest => value.hasLongInteger || haveLongInteger rest

/-- Whether one of several entries holds such an integer. -/
def entriesHaveLongInteger : List (Scalar × Value) → Bool
  | [] => false
  | entry :: rest => entryHasLongInteger entry || entriesHaveLongInteger rest

/-- Whether an entry holds such an integer. -/
def entryHasLongInteger : Scalar × Value → Bool
  | (key, value) => key.isTooLong || value.hasLongInteger

/-- Whether one of several pairs holds such an integer. -/
def pairsHaveLongInteger : List (Value × Value) → Bool
  | [] => false
  | pair :: rest => pairHasLongInteger pair || pairsHaveLongInteger rest

/-- Whether a pair holds such an integer. -/
def pairHasLongInteger : Value × Value → Bool
  | (first, second) => first.hasLongInteger || second.hasLongInteger

end

/-- The plain form of a value: a scalar stands for itself. -/
def plain : Value → Text.LooseText
  | .scalar value => value.plain
  | value => value.literal

/-- Whether a value counts as true: neither a false scalar nor empty. -/
def isTruthy : Value → Bool
  | .scalar value => value.isTruthy
  | .sequence items => !items.isEmpty
  | .mapping entries => !entries.isEmpty
  | .set members => !members.isEmpty
  | .pairs items => !items.isEmpty
  | .again _ => true

end Value

end PropertyWrapper.Document
