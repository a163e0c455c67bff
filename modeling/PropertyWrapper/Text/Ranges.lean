/-!
# Tables of code point ranges

A property of the Unicode standard is stored as the list of its maximal ranges, each given by its
first and last code point.
-/

namespace PropertyWrapper.Text

/-- A table of code point ranges, both ends included. -/
abbrev Ranges := List (Nat × Nat)

/-- Whether a code point lies in one of the ranges of a table. -/
def Ranges.contains (table : Ranges) (point : Nat) : Bool :=
  table.any fun range => range.1 ≤ point && point ≤ range.2

/-- The last code point of the standard. -/
def lastPoint : Nat := 0x10ffff

/-- Whether a code point is one of those reserved for pairs of 16-bit units. -/
def isSurrogate (point : Nat) : Bool := 0xd800 ≤ point && point ≤ 0xdfff

end PropertyWrapper.Text
