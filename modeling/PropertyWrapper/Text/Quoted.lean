import PropertyWrapper.Text.Printable

/-!
# Quoted text

The written form of a text or of bytes between quotes. A text is a list of code points, so that it
can hold a lone surrogate; whatever is not printable is written as an escape, and every written form
therefore consists of printable characters only.
-/

namespace PropertyWrapper.Text

/-- A text as its code points; unlike `String` it may hold lone surrogates. -/
abbrev Points := List Nat

/-- The code points of a string. -/
def points (text : String) : Points := text.toList.map Char.toNat

/-- The character of a code point; a lone surrogate becomes the replacement character. -/
def charOf (point : Nat) : Char := if isSurrogate point then '\ufffd' else Char.ofNat point

/-- The string of code points, as far as strings can hold them. -/
def stringOf (text : Points) : String := String.ofList (text.map charOf)

/-- The single quote. -/
def singleQuote : Char := '\x27'

/-- The double quote. -/
def doubleQuote : Char := '\x22'

/-- The backslash. -/
def backslash : Char := '\x5c'

/-! ## Escapes -/

/-- The value of a hexadecimal digit. -/
def hexValue? (c : Char) : Option Nat :=
  if c.isDigit then some (c.toNat - '0'.toNat)
  else if 'a' ≤ c && c ≤ 'f' then some (c.toNat - 'a'.toNat + 10)
  else if 'A' ≤ c && c ≤ 'F' then some (c.toNat - 'A'.toNat + 10)
  else none

/-- The number written by hexadecimal digits. -/
def hexNumber? (digits : List Char) : Option Nat :=
  digits.foldlM (fun value c => (hexValue? c).map (value * 16 + ·)) 0

/-- A number in lower-case hexadecimal digits, filled up with zeros to a width. -/
def hexDigits (width n : Nat) : List Char :=
  let digits := Nat.toDigits 16 n
  List.replicate (width - digits.length) '0' ++ digits

/-- The escape of a code point: a letter for tab, line feed and carriage return, a doubled backslash,
and hexadecimal digits of the least sufficient width for all others. -/
def escapePoint (point : Nat) : List Char :=
  if point = 0x5c then [backslash, backslash]
  else if point = 0x9 then [backslash, 't']
  else if point = 0xa then [backslash, 'n']
  else if point = 0xd then [backslash, 'r']
  else if point < 0x100 then backslash :: 'x' :: hexDigits 2 point
  else if point < 0x10000 then backslash :: 'u' :: hexDigits 4 point
  else backslash :: 'U' :: hexDigits 8 point

/-- A code point as it stands in quoted text, apart from the quote itself. -/
def writePoint (point : Nat) : List Char :=
  if point = 0x5c || !isPrintable point then escapePoint point else [Char.ofNat point]

/-! ## Choice of the quote -/

/-- The quote around a text: single, unless the text holds a single quote and no double one. -/
def quoteFor (text : Points) : Char :=
  if text.contains singleQuote.toNat && !text.contains doubleQuote.toNat then doubleQuote
  else singleQuote

/-- The characters between the quotes, where the quote itself is escaped. -/
def quotedBody (quote : Char) (text : Points) : List Char :=
  text.flatMap fun point =>
    if point = quote.toNat then [backslash, quote] else writePoint point

/-- A text between quotes. -/
def quotedPoints (text : Points) : String :=
  let quote := quoteFor text
  String.ofList (quote :: quotedBody quote text ++ [quote])

/-- A string between quotes. -/
def quoted (text : String) : String := quotedPoints (points text)

/-! ## Bytes -/

/-- A byte as it stands between quotes: printable ASCII as itself, all else escaped. -/
def writeByte (quote : Char) (byte : Nat) : List Char :=
  if byte = quote.toNat then [backslash, quote]
  else if byte < 0x80 && byte != 0x5c && isPrintable byte then [Char.ofNat byte]
  else escapePoint byte

/-- Bytes between quotes, marked by a leading `b`. -/
def quotedBytes (bytes : List Nat) : String :=
  let quote := quoteFor bytes
  String.ofList ('b' :: quote :: bytes.flatMap (writeByte quote) ++ [quote])

end PropertyWrapper.Text
