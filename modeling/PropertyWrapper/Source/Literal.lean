import PropertyWrapper.Number.DigitLimit
import PropertyWrapper.Number.Shortest
import PropertyWrapper.Source.Tree

/-!
# Written literals

How constants are written: numbers in decimal, texts between the quotes that need the fewest escapes.
Inside a formatted literal and for documentation texts the quote is chosen from a list of candidates,
and each piece of text narrows that list.
-/

namespace PropertyWrapper.Source

open PropertyWrapper.Number PropertyWrapper.Text

/-! ## Numbers -/

/-- Floating point literals are positional for exponents from -4 to 15, a whole number keeps a point
and a zero, and infinity is an overflowing literal. -/
def floatLiteral : FloatFormat :=
  { leastPositional := -4, firstScientific := 16, marksWhole := true, infinity := "1e309" }

/-- Imaginary literals differ from floating point ones in that a whole number has no point. -/
def imaginaryLiteral : FloatFormat := { floatLiteral with marksWhole := false }

/-! ## Quotes -/

/-- A quote at the ends of a literal: one or three times the same mark. -/
structure Quote where
  mark : Char
  triple : Bool
deriving DecidableEq, Repr

/-- The characters of a quote. -/
def Quote.characters (quote : Quote) : List Char :=
  List.replicate (if quote.triple then 3 else 1) quote.mark

/-- The quotes of documentation texts, in order of preference. -/
def tripleQuotes : List Quote := [⟨doubleQuote, true⟩, ⟨singleQuote, true⟩]

/-- All quotes, in order of preference. -/
def allQuotes : List Quote := [⟨singleQuote, false⟩, ⟨doubleQuote, false⟩] ++ tripleQuotes

/-- Whether a list of characters occurs inside another one. -/
def occursIn (needle : List Char) : List Char → Bool
  | [] => needle.isEmpty
  | c :: rest => needle.isPrefixOf (c :: rest) || occursIn needle rest

/-- A code point between flexible quotes: line feeds and tabs may stand as themselves. -/
def writeFlexible (escapeLayout : Bool) (point : Nat) : List Char :=
  if !escapeLayout && (point = 0xa || point = 0x9) then [Char.ofNat point] else writePoint point

/-- The characters of a text and the candidates among which its quote remains to be chosen. A raw line
feed needs a triple quote, and a quote that occurs in the text is dropped. When no candidate remains
the text is written as between ordinary quotes. A quote is preferred when its mark differs from the
last character, which is otherwise escaped. -/
def narrowQuotes (candidates : List Quote) (escapeLayout : Bool) (text : Points) :
    List Char × List Quote :=
  let body := text.flatMap (writeFlexible escapeLayout)
  let possible := if body.contains '\n' then candidates.filter Quote.triple else candidates
  let possible := possible.filter fun quote => !occursIn quote.characters body
  if possible.isEmpty then
    let mark := quoteFor text
    (quotedBody mark text, [((candidates.find? fun quote => quote.mark == mark).getD ⟨mark, false⟩)])
  else
    match body.getLast? with
    | none => (body, possible)
    | some last =>
      let (clashing, clear) := possible.partition fun quote => quote.mark == last
      if clear.isEmpty then (body.dropLast ++ [backslash, last], clashing)
      else (body, clear ++ clashing)

/-- A text between the preferred one of some candidate quotes. -/
def flexiblyQuoted (candidates : List Quote) (text : Points) : String :=
  let (body, possible) := narrowQuotes candidates false text
  let quote := (possible.head?.getD ⟨singleQuote, false⟩).characters
  String.ofList (quote ++ body ++ quote)

/-- The parts of a formatted literal between one quote, each part narrowing the choice; layout
characters are escaped in the parts that are literal text. There is none when a part leaves no
candidate. -/
def quoteParts? (candidates : List Quote) : List (Points × Bool) → Option (List Char × Quote)
  | [] => candidates.head?.map ([], ·)
  | (text, isLiteral) :: rest =>
    let (body, possible) := narrowQuotes candidates isLiteral text
    if possible.any candidates.contains then
      (quoteParts? possible rest).map fun (bodies, quote) => (body ++ bodies, quote)
    else none

/-- The parts of a formatted literal between the quote that they agree on, or else between three single
quotes with every single quote in them escaped. -/
def quotedParts (parts : List (Points × Bool)) : String :=
  let (body, quote) := (quoteParts? allQuotes parts).getD
    (parts.flatMap fun part => quotedBody singleQuote part.1, ⟨singleQuote, true⟩)
  String.ofList (quote.characters ++ body ++ quote.characters)

/-! ## Constants -/

/-- The mark of a text literal. -/
def textMark (marked : Bool) : String := if marked then "u" else ""

/-- Whether a constant is an integer with too many digits to be written. -/
def Constant.isTooLong : Constant → Bool
  | .int value => exceedsDigitLimit value
  | _ => false

/-- A constant as it is written in an expression; inside a replacement field backslashes are avoided. -/
def Constant.text (inField : Bool) : Constant → String
  | .none => "None"
  | .bool true => "True"
  | .bool false => "False"
  | .ellipsis => "..."
  | .int value => toString value
  | .float value => value.text floatLiteral
  | .imaginary value => value.text imaginaryLiteral ++ "j"
  | .str marked value =>
    textMark marked ++ (if inField then flexiblyQuoted allQuotes value else quotedPoints value)
  | .bytes value => quotedBytes value

/-- Whether a constant is an integer or a truth value, after which a point would be read as part of a
number. -/
def Constant.isIntegral : Constant → Bool
  | .int _ | .bool _ => true
  | _ => false

end PropertyWrapper.Source
