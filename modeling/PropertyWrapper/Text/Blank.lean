import PropertyWrapper.Text.Ranges

/-!
# Blank characters

The characters that count as white space when a name in a list is trimmed: bidirectional types
"whitespace", "paragraph separator" and "segment separator", and general category "space".
-/

namespace PropertyWrapper.Text

/-- All ranges of blank code points. -/
def blankRanges : Ranges := [
    (0x9, 0xd), (0x1c, 0x20), (0x85, 0x85), (0xa0, 0xa0), (0x1680, 0x1680), (0x2000, 0x200a),
    (0x2028, 0x2029), (0x202f, 0x202f), (0x205f, 0x205f), (0x3000, 0x3000)
  ]

/-- Whether a character is blank. -/
def isBlank (c : Char) : Bool := blankRanges.contains c.toNat

/-- Characters without the blank ones at their two ends. -/
def trimmed (chars : List Char) : List Char :=
  ((chars.dropWhile isBlank).reverse.dropWhile isBlank).reverse

/-- A text without the blank characters at its two ends. -/
def trim (text : String) : String := String.ofList (trimmed text.toList)

/-- The parts of a text between the occurrences of a separating character. -/
def splitAt (separator : Char) : List Char → List (List Char)
  | [] => [[]]
  | c :: rest =>
    match splitAt separator rest with
    | [] => [[c]]
    | part :: parts => if c = separator then [] :: part :: parts else (c :: part) :: parts

end PropertyWrapper.Text
