import PropertyWrapper.Source.Token

/-!
# Values of text literals

Adjacent text literals form one value: escapes are replaced by what they stand for, and formatted
literals are cut into literal text and replacement fields. Replacement fields hold expressions, so the
reading of an expression is a parameter here. A result of `none` says that the literals are malformed.
-/

namespace PropertyWrapper.Source

open PropertyWrapper.Text

/-! ## Escapes -/

/-- Whether a character is an octal digit. -/
def isOctal (c : Char) : Bool := '0' ≤ c && c ≤ '7'

/-- The value of an octal digit. -/
def octalValue (c : Char) : Nat := c.toNat - '0'.toNat

/-- The code points that escapes of one letter stand for. -/
def letterEscapes : List (Char × Nat) := [
    ('\x5c', 0x5c), ('\x27', 0x27), ('\x22', 0x22), ('a', 0x7), ('b', 0x8), ('f', 0xc), ('n', 0xa),
    ('r', 0xd), ('t', 0x9), ('v', 0xb)
  ]

/-- How many hexadecimal digits follow the letter of an escape; only texts have the wide escapes. -/
def escapeWidth (isText : Bool) : Char → Option Nat
  | 'x' => some 2
  | 'u' => if isText then some 4 else none
  | 'U' => if isText then some 8 else none
  | _ => none

/-- What the characters behind a backslash stand for, and the rest. An unknown escape leaves the
backslash standing, an incomplete one is malformed, and so are escapes by character name. -/
def escapeValue (isText : Bool) : List Char → Option (List Nat × List Char)
  | [] => some ([0x5c], [])
  | '\n' :: rest => some ([], rest)
  | c :: rest =>
    if isOctal c then
      let digits := c :: (rest.take 2).takeWhile isOctal
      let value := digits.foldl (fun value c => value * 8 + octalValue c) 0
      some ([if isText then value else value % 0x100], rest.drop (digits.length - 1))
    else
      match escapeWidth isText c, letterEscapes.lookup c with
      | some width, _ =>
        if rest.length < width then none
        else do
          let point ← hexNumber? (rest.take width)
          if lastPoint < point then none else some ([point], rest.drop width)
      | none, some point => some ([point], rest)
      | none, none => if isText && c = 'N' then none else some ([0x5c], c :: rest)

/-- The code points or bytes between the quotes of a literal with its escapes replaced; bytes consist
of ASCII characters. The fuel bounds the number of steps. -/
def unescape (isText : Bool) : Nat → List Char → Option (List Nat)
  | 0, _ | _, [] => some []
  | fuel + 1, c :: rest =>
    if c = '\\' then do
      let (points, rest) ← escapeValue isText rest
      return points ++ (← unescape isText fuel rest)
    else if !isText && 0x80 ≤ c.toNat then none
    else (unescape isText fuel rest).map (c.toNat :: ·)

/-- The text of a literal that is not formatted. -/
def literalText (raw : Bool) (body : List Char) : Option Points :=
  if raw then some (body.map Char.toNat) else unescape true (2 * body.length) body

/-- The bytes of a literal. -/
def literalBytes (raw : Bool) (body : List Char) : Option (List Nat) :=
  if raw then
    if body.all fun c => c.toNat < 0x80 then some (body.map Char.toNat) else none
  else unescape false (2 * body.length) body

/-! ## Replacement fields -/

/-- Where literal text inside a formatted literal ends. -/
inductive LiteralEnd where
  /-- Behind a doubled brace, which stands for one. -/
  | doubled
  /-- In front of a brace. -/
  | brace
  /-- At the end of the literal. -/
  | finish
  /-- At a closing brace that stands alone. -/
  | loneBrace
deriving DecidableEq, Repr

/-- Literal text up to the next brace. A doubled brace counts as one, except in the format of a
replacement field. -/
def scanLiteral (raw nested : Bool) : List Char → List Char × LiteralEnd × List Char
  | [] => ([], .finish, [])
  | '\\' :: c :: rest =>
    if raw || c = '\x7b' || c = '\x7d' then
      let (text, stop, rest) := scanLiteral raw nested (c :: rest)
      ('\\' :: text, stop, rest)
    else
      let (text, stop, rest) := scanLiteral raw nested rest
      ('\\' :: c :: text, stop, rest)
  | c :: rest =>
    if c = '\x7b' || c = '\x7d' then
      if nested then ([], .brace, c :: rest)
      else
        match rest with
        | d :: rest' =>
          if d = c then ([c], .doubled, rest')
          else if c = '\x7d' then ([], .loneBrace, c :: rest)
          else ([], .brace, c :: rest)
        | [] => if c = '\x7d' then ([], .loneBrace, [c]) else ([], .brace, [c])
    else
      let (text, stop, rest) := scanLiteral raw nested rest
      (c :: text, stop, rest)

/-- The closing bracket of an opening one, as characters. -/
def closingBracket? : Char → Option Char
  | '(' => some ')'
  | '[' => some ']'
  | '\x7b' => some '\x7d'
  | _ => none

/-- The characters of the expression of a replacement field and the rest, which starts at the
character that ends the expression. The first `skip` characters belong to it in any case; `quote` is
the open quote inside the expression, if any, with whether it is a triple one; `awaited` holds the
brackets that remain to be closed. -/
def scanField (skip : Nat) (quote : Option (Char × Bool)) (awaited : List Char) :
    List Char → Option (List Char × List Char)
  | [] => none
  | c :: rest =>
    let keep (skip : Nat) (quote : Option (Char × Bool)) (awaited : List Char) :=
      (scanField skip quote awaited rest).map fun (text, rest) => (c :: text, rest)
    if 0 < skip then keep (skip - 1) quote awaited
    else if c = '\\' then none
    else
      match quote with
      | some (mark, true) =>
        if c = mark && [mark, mark].isPrefixOf rest then keep 2 none awaited
        else keep 0 quote awaited
      | some (mark, false) => keep 0 (if c = mark then none else quote) awaited
      | none =>
        if c = '\x27' || c = '\x22' then
          if [c, c].isPrefixOf rest then keep 2 (some (c, true)) awaited
          else keep 0 (some (c, false)) awaited
        else
          match closingBracket? c, awaited with
          | some closing, _ => keep 0 none (closing :: awaited)
          | none, [] =>
            if c = '#' || c = ')' || c = ']' then none
            else if rest.head? = some '=' && (c = '!' || c = '=' || c = '<' || c = '>') then
              keep 1 none []
            else if c = '!' || c = '=' || c = ':' || c = '\x7d' then some ([], c :: rest)
            else keep 0 none []
          | none, closing :: outer =>
            if c = '#' then none
            else if c = ')' || c = ']' || c = '\x7d' then
              if c = closing then keep 0 none outer else none
            else keep 0 none awaited

/-- Whether a character may stand around the expression of a replacement field. -/
def isFieldBlank (c : Char) : Bool :=
  c = ' ' || c = '\t' || c = '\n' || c = '\x0c'

/-- Whether a character is skipped after the sign that repeats an expression as text. -/
def isSignBlank (c : Char) : Bool := isFieldBlank c || c = '\r' || c = '\x0b'

/-- The conversion named by a letter. -/
def conversion? : Char → Option Conversion
  | 's' => some .str
  | 'r' => some .repr
  | 'a' => some .ascii
  | _ => none

/-- A conversion after an exclamation mark, if there is one. -/
def scanConversion : List Char → Option (Option Conversion × List Char)
  | '!' :: c :: rest => (conversion? c).map fun conversion => (some conversion, rest)
  | '!' :: [] => none
  | rest => some (none, rest)

/-- How deep formats may hold replacement fields. -/
def formatDepth : Nat := 2

/-- The parts of a formatted literal, or of the format of a field at some depth, and the rest, which is
empty or starts at a brace. The fuel bounds the number of parts. -/
def formatParts (expression : List Char → Option Expr) (raw : Bool) :
    Nat → Nat → List Char → Option (List FormatPart × List Char)
  | 0, _, _ => none
  | fuel + 1, depth, characters => do
    let (text, stop, rest) := scanLiteral raw (depth != 0) characters
    let literal ← literalText raw text
    let lead := if literal.isEmpty then [] else [FormatPart.text literal]
    match stop, rest with
    | .loneBrace, _ => none
    | .finish, _ => return (lead, rest)
    | .doubled, _ =>
      let (parts, rest) ← formatParts expression raw fuel depth rest
      return (lead ++ parts, rest)
    | .brace, '\x7b' :: rest =>
      if formatDepth ≤ depth then none
      else
        let (source, rest) ← scanField 0 none [] rest
        if source.all isFieldBlank then none
        else
          let value ← expression source
          let (echo, rest) :=
            match rest with
            | '=' :: tail =>
              let blanks := tail.takeWhile isSignBlank
              (some (source ++ '=' :: blanks), tail.dropWhile isSignBlank)
            | _ => (none, rest)
          let (conversion, rest) ← scanConversion rest
          let (spec, rest) ←
            match rest with
            | ':' :: tail => do
              let (spec, rest) ← formatParts expression raw fuel (depth + 1) tail
              pure (some spec, rest)
            | _ => pure (none, rest)
          match rest with
          | '\x7d' :: rest =>
            let conversion :=
              if echo.isSome && conversion.isNone && spec.isNone then some .repr else conversion
            let echo := (echo.map fun text => [FormatPart.text (text.map Char.toNat)]).getD []
            let (parts, rest) ← formatParts expression raw fuel depth rest
            return (lead ++ echo ++ .field value conversion spec :: parts, rest)
          | _ => none
    | .brace, _ => return (lead, rest)

/-- Adjacent literal texts joined into one. -/
def joinTexts : List FormatPart → List FormatPart
  | [] => []
  | .text a :: rest =>
    match joinTexts rest with
    | .text b :: rest => .text (a ++ b) :: rest
    | rest => .text a :: rest
  | part :: rest => part :: joinTexts rest

/-! ## Adjacent literals -/

/-- The parts of one literal among several that form a formatted text. -/
def literalParts (expression : List Char → Option Expr) (literal : TextLiteral) :
    Option (List FormatPart) :=
  if literal.formatted then
    match formatParts expression literal.raw (literal.body.length + 1) 0 literal.body with
    | some (parts, []) => some parts
    | _ => none
  else (literalText literal.raw literal.body).map fun text =>
    if text.isEmpty then [] else [.text text]

/-- The expression that adjacent literals form: bytes, a formatted text or a plain text. Bytes do not
mix with texts. -/
def literalExpr (expression : List Char → Option Expr) (pos : Position)
    (literals : List TextLiteral) : Option Expr :=
  if literals.any TextLiteral.bytes then
    if literals.all TextLiteral.bytes then do
      let bytes ← literals.mapM fun literal => literalBytes literal.raw literal.body
      return .constant pos (.bytes bytes.flatten)
    else none
  else if literals.any TextLiteral.formatted then do
    let parts ← literals.mapM (literalParts expression)
    return .formatted pos (joinTexts parts.flatten)
  else do
    let texts ← literals.mapM fun literal => literalText literal.raw literal.body
    let marked := (literals.head?.map TextLiteral.marked).getD false
    return .constant pos (.str marked texts.flatten)

end PropertyWrapper.Source
