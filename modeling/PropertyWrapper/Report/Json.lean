import PropertyWrapper.Text.Loose

/-!
# JSON text

Values are written with an indentation of two spaces for each level, one item a line, and in ASCII
only: every other character is an escape of its UTF-16 units.
-/

namespace PropertyWrapper.Report

open Text

/-- A JSON value without fractions; the members of an object are in writing order. -/
inductive Json where
  | null
  | bool (value : Bool)
  | int (value : Int)
  | text (value : LooseText)
  | array (items : List Json)
  | object (members : List (String × Json))

/-! ## Texts -/

/-- The UTF-16 units of a code point. -/
def utf16Units (point : Nat) : List Nat :=
  if point < 0x10000 then [point]
  else [0xd800 + (point - 0x10000) / 0x400, 0xdc00 + (point - 0x10000) % 0x400]

/-- The letter of a short escape. -/
def shortEscape? (point : Nat) : Option Char :=
  if point = doubleQuote.toNat then some doubleQuote
  else if point = backslash.toNat then some backslash
  else if point = 0xa then some 'n'
  else if point = 0xd then some 'r'
  else if point = 0x9 then some 't'
  else if point = 0x8 then some 'b'
  else if point = 0xc then some 'f'
  else none

/-- A code point as it stands in a JSON text. -/
def escapeUnits (point : Nat) : List Char :=
  match shortEscape? point with
  | some letter => [backslash, letter]
  | none =>
    if 0x20 ≤ point && point < 0x7f then [Char.ofNat point]
    else (utf16Units point).flatMap fun unit => backslash :: 'u' :: hexDigits 4 unit

/-- A text between double quotes. -/
def jsonText (text : LooseText) : String :=
  String.ofList (doubleQuote :: text.points.flatMap escapeUnits ++ [doubleQuote])

/-! ## Layout -/

/-- A line feed and the indentation of a level. -/
def lineAt (depth : Nat) : String := "\n" ++ String.ofList (List.replicate (2 * depth) ' ')

/-- Items between brackets, one a line; without items the brackets stand together. -/
def block (opening closing : String) (depth : Nat) : List String → String
  | [] => opening ++ closing
  | items =>
    opening ++ lineAt (depth + 1) ++ String.intercalate ("," ++ lineAt (depth + 1)) items
      ++ lineAt depth ++ closing

mutual

/-- The text of a value that stands at a level. -/
def Json.render (depth : Nat) : Json → String
  | .null => "null"
  | .bool value => if value then "true" else "false"
  | .int value => toString value
  | .text value => jsonText value
  | .array items => block "[" "]" depth (renderItems (depth + 1) items)
  | .object members => block "\x7b" "\x7d" depth (renderMembers (depth + 1) members)

/-- The texts of the items of an array. -/
def renderItems (depth : Nat) : List Json → List String
  | [] => []
  | item :: rest => item.render depth :: renderItems depth rest

/-- The texts of the members of an object. -/
def renderMembers (depth : Nat) : List (String × Json) → List String
  | [] => []
  | entry :: rest => renderMember depth entry :: renderMembers depth rest

/-- The text of a member of an object. -/
def renderMember (depth : Nat) : String × Json → String
  | (name, value) => jsonText name ++ ": " ++ value.render depth

end

/-- The text of a value. -/
def Json.pretty (value : Json) : String := value.render 0

end PropertyWrapper.Report
