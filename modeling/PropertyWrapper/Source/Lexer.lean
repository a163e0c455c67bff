import PropertyWrapper.Number.DigitLimit
import PropertyWrapper.Source.Token
import PropertyWrapper.Text.Identifier
import PropertyWrapper.Text.Newline

/-!
# Reading tokens

A source is cut into tokens from left to right. Line ends inside brackets and after a backslash do not
count; elsewhere each line is compared with the enclosing indentations, which gives the tokens for the
start and end of blocks.
-/

namespace PropertyWrapper.Source

open PropertyWrapper.Number PropertyWrapper.Text

/-! ## Positions -/

/-- The position behind a character. -/
def Position.after (pos : Position) (c : Char) : Position :=
  if c = '\n' then ⟨pos.line + 1, 0⟩ else ⟨pos.line, pos.column + c.utf8Size⟩

/-- The position behind some characters. -/
def Position.afterAll (pos : Position) (characters : List Char) : Position :=
  characters.foldl Position.after pos

/-- The position some columns further on the same line. -/
def Position.forward (pos : Position) (columns : Nat) : Position :=
  ⟨pos.line, pos.column + columns⟩

/-! ## Words -/

/-- Whether a character is taken into a word before the word is checked. -/
def isWordCharacter (c : Char) : Bool := isAsciiStart c || c.isDigit || 0x80 ≤ c.toNat

/-- The token of a word. -/
def wordToken (word : List Char) : TokenKind :=
  if isIdentifier word then
    let text := String.ofList word
    match reservedWords.lookup text with
    | some reserved => .reserved reserved
    | none => .name text
  else .fault .badIdentifier

/-- The letters in front of a quote that make it a text literal. -/
def literalMarks : List String := ["", "r", "u", "b", "f", "br", "rb", "fr", "rf"]

/-! ## Numbers -/

/-- The characters of a number that were read, how many there were, and the rest. -/
structure Digits where
  digits : List Char
  count : Nat
  rest : List Char

/-- Digits with single underscores between them, after a first digit; `none` when an underscore is not
followed by a digit. -/
def digitTail (isDigit : Char → Bool) : List Char → Option Digits
  | [] => some ⟨[], 0, []⟩
  | ['_'] => none
  | '_' :: d :: rest =>
    if isDigit d then
      (digitTail isDigit rest).map fun tail => ⟨d :: tail.digits, tail.count + 2, tail.rest⟩
    else none
  | d :: rest =>
    if isDigit d then
      (digitTail isDigit rest).map fun tail => ⟨d :: tail.digits, tail.count + 1, tail.rest⟩
    else some ⟨[], 0, d :: rest⟩

/-- Digits of which the first has to be there. -/
def digitRun (isDigit : Char → Bool) : List Char → Option Digits
  | d :: rest =>
    if isDigit d then
      (digitTail isDigit rest).map fun tail => ⟨d :: tail.digits, tail.count + 1, tail.rest⟩
    else none
  | [] => none

/-- The value of a digit in an alphabet of at most sixteen digits. -/
def digitValue (c : Char) : Nat :=
  if c.isDigit then c.toNat - '0'.toNat
  else if 'a' ≤ c && c ≤ 'f' then c.toNat - 'a'.toNat + 10
  else c.toNat - 'A'.toNat + 10

/-- The number that digits denote in a base. -/
def digitsValue (base : Nat) (digits : List Char) : Nat :=
  digits.foldl (fun value d => value * base + digitValue d) 0

/-- The reserved words that may follow a number without a blank. -/
def wordsAfterNumber : List (List Char) :=
  ["and", "else", "for", "if", "in", "is", "or", "not"].map String.toList

/-- Whether a number may end in front of some characters. -/
def numberMayEnd (rest : List Char) : Bool :=
  match rest with
  | [] => true
  | c :: _ => !isWordCharacter c || wordsAfterNumber.any (·.isPrefixOf rest)

/-- A number that was read: its token, its length and the rest; or the fault that it has. -/
abbrev NumberResult := Except LexicalFault (TokenKind × Nat × List Char)

/-- A number once its last character is read. -/
def endNumber (kind : NumberKind) (token : TokenKind) (count : Nat) (rest : List Char) :
    NumberResult :=
  if numberMayEnd rest then .ok (token, count, rest) else .error (.badNumber kind)

/-- An integer in one of the alphabets marked by a letter after a zero. -/
def radixNumber (kind : NumberKind) (base : Nat) (isDigit : Char → Bool) (rest : List Char) :
    NumberResult :=
  let (skipped, rest) :=
    match rest with
    | '_' :: rest => (1, rest)
    | rest => (0, rest)
  match digitRun isDigit rest with
  | none => .error (.badNumber kind)
  | some run =>
    if (run.rest.head?.map Char.isDigit).getD false then .error (.badNumber kind)
    else
      endNumber kind (.number (.int (digitsValue base run.digits))) (2 + skipped + run.count) run.rest

/-- The end of a floating point number: an imaginary mark or nothing. -/
def endFloat (digits : List Char) (scale : Int) (count : Nat) (rest : List Char) : NumberResult :=
  let value := Binary64.ofDecimal (digitsValue 10 digits) scale
  match rest with
  | c :: rest' =>
    if c = 'j' || c = 'J' then endNumber .imaginary (.number (.imaginary value)) (count + 1) rest'
    else endNumber .decimal (.number (.float value)) count rest
  | [] => .ok (.number (.float value), count, [])

/-- The exponent after its mark: sign, digits and length, if it is one. -/
def exponentPart (rest : List Char) : Option (Option (Int × Nat × List Char)) :=
  let signed (negative : Bool) (rest : List Char) : Option (Option (Int × Nat × List Char)) :=
    match digitRun Char.isDigit rest with
    | none => none
    | some run =>
      let value : Int := digitsValue 10 run.digits
      some (some (if negative then -value else value, run.count + 1, run.rest))
  match rest with
  | '+' :: rest => signed false rest
  | '-' :: rest => signed true rest
  | d :: _ =>
    if d.isDigit then
      (digitRun Char.isDigit rest).map fun run => some (digitsValue 10 run.digits, run.count, run.rest)
    else some none
  | [] => some none

/-- A floating point number from behind its fraction, that is, its exponent if it has one. -/
def afterFraction (digits : List Char) (places count : Nat) (rest : List Char) : NumberResult :=
  let scale : Int := -(places : Int)
  match rest with
  | c :: tail =>
    if c = 'e' || c = 'E' then
      match exponentPart tail with
      | none => .error (.badNumber .decimal)
      | some none =>
        let value := Binary64.ofDecimal (digitsValue 10 digits) scale
        endNumber .decimal (.number (.float value)) count rest
      | some (some (exponent, length, rest)) =>
        endFloat digits (scale + exponent) (count + 1 + length) rest
    else endFloat digits scale count rest
  | [] => endFloat digits scale count []

/-- A number from behind its point. -/
def afterPoint (whole : List Char) (count : Nat) (rest : List Char) : NumberResult :=
  match rest with
  | d :: _ =>
    if d.isDigit then
      match digitRun Char.isDigit rest with
      | none => .error (.badNumber .decimal)
      | some run =>
        afterFraction (whole ++ run.digits) run.digits.length (count + run.count) run.rest
    else afterFraction whole 0 count rest
  | [] => afterFraction whole 0 count []

/-- The token of an integer with given decimal digits. -/
def decimalToken (digits : List Char) : TokenKind :=
  if digitLimit < digits.length && digits.head? != some '0' then .stray
  else .number (.int (digitsValue 10 digits))

/-- Zeros in front of other digits. -/
def hasSuperfluousZeros (digits : List Char) : Bool :=
  digits.head? = some '0' && digits.any (· != '0')

/-- A number from behind its leading decimal digits. An integer must not have superfluous zeros in
front; but a word that starts like an exponent may follow such digits directly, and then they are a
floating point number. -/
def afterWhole (digits : List Char) (count : Nat) (rest : List Char) : NumberResult :=
  let integer : NumberResult :=
    if hasSuperfluousZeros digits then .error .leadingZeros
    else endNumber .decimal (decimalToken digits) count rest
  match rest with
  | '.' :: tail => afterPoint digits (count + 1) tail
  | c :: tail =>
    if c = 'e' || c = 'E' then
      match exponentPart tail with
      | some none =>
        if hasSuperfluousZeros digits then afterFraction digits 0 count rest else integer
      | _ => afterFraction digits 0 count rest
    else if c = 'j' || c = 'J' then afterFraction digits 0 count rest
    else integer
  | [] => integer

/-- A number at the start of some characters, of which the first is a digit, or a point in front of a
digit. -/
def scanNumber (characters : List Char) : NumberResult :=
  match characters with
  | '.' :: rest => afterPoint [] 1 rest
  | '0' :: mark :: rest =>
    if mark = 'x' || mark = 'X' then
      let isDigit := fun c : Char =>
        c.isDigit || ('a' ≤ c && c ≤ 'f') || ('A' ≤ c && c ≤ 'F')
      radixNumber .hexadecimal 16 isDigit rest
    else if mark = 'o' || mark = 'O' then
      radixNumber .octal 8 (fun c => '0' ≤ c && c ≤ '7') rest
    else if mark = 'b' || mark = 'B' then
      radixNumber .binary 2 (fun c => c = '0' || c = '1') rest
    else
      match digitRun Char.isDigit characters with
      | none => .error (.badNumber .decimal)
      | some run => afterWhole run.digits run.count run.rest
  | _ =>
    match digitRun Char.isDigit characters with
    | none => .error (.badNumber .decimal)
    | some run => afterWhole run.digits run.count run.rest

/-! ## Text literals -/

/-- The characters up to a closing mark and the rest; or, when it is missing on its line, how many
line ends were passed. -/
def singleBody (mark : Char) : Nat → List Char → Except Nat (List Char × List Char)
  | passed, [] => .error passed
  | passed, '\\' :: c :: rest =>
    (singleBody mark (if c = '\n' then passed + 1 else passed) rest).map fun (body, rest) =>
      ('\\' :: c :: body, rest)
  | passed, c :: rest =>
    if c = mark then .ok ([], rest)
    else if c = '\n' then .error passed
    else (singleBody mark passed rest).map fun (body, rest) => (c :: body, rest)

/-- The characters up to a closing triple mark and the rest, if it is there. -/
def tripleBody (mark : Char) : List Char → Option (List Char × List Char)
  | [] => none
  | '\\' :: c :: rest => (tripleBody mark rest).map fun (body, rest) => ('\\' :: c :: body, rest)
  | a :: rest =>
    if a = mark && [mark, mark].isPrefixOf rest then some ([], rest.drop 2)
    else (tripleBody mark rest).map fun (body, rest) => (a :: body, rest)

/-- A text literal from its opening mark on: its body, all its characters and the rest. -/
def scanText (line : Nat) (mark : Char) (rest : List Char) :
    Except LexicalFault (List Char × List Char × List Char) :=
  if [mark, mark].isPrefixOf rest then
    match tripleBody mark (rest.drop 2) with
    | some (body, rest) =>
      let fence := [mark, mark, mark]
      .ok (body, fence ++ body ++ fence, rest)
    | none => .error (.unterminatedTriple (line + (rest.count '\n' - 1)))
  else
    match singleBody mark 0 rest with
    | .ok (body, rest) => .ok (body, mark :: body ++ [mark], rest)
    | .error passed => .error (.unterminatedText (line + passed))

/-! ## Symbols -/

/-- All symbols by their spelling, longer ones before their beginnings. -/
def symbolTable : List (List Char × Symbol) :=
  [ ("**=", .augmented .pow), ("//=", .augmented .floorDiv), (">>=", .augmented .rightShift),
    ("<<=", .augmented .leftShift), ("...", .ellipsis), ("**", .op .pow), ("//", .op .floorDiv),
    (">>", .op .rightShift), ("<<", .op .leftShift), ("->", .arrow), (":=", .walrus),
    ("==", .equal), ("!=", .notEqual), ("<=", .lessEqual), (">=", .greaterEqual),
    ("+=", .augmented .add), ("-=", .augmented .sub), ("*=", .augmented .mul),
    ("/=", .augmented .div), ("%=", .augmented .mod), ("@=", .augmented .matMul),
    ("&=", .augmented .bitAnd), ("|=", .augmented .bitOr), ("^=", .augmented .bitXor),
    ("(", .lparen), (")", .rparen), ("[", .lbracket), ("]", .rbracket), ("\x7b", .lbrace),
    ("\x7d", .rbrace), (":", .colon), (",", .comma), (";", .semicolon), (".", .dot),
    ("=", .assign), ("<", .less), (">", .greater), ("~", .tilde), ("+", .op .add), ("-", .op .sub),
    ("*", .op .mul), ("/", .op .div), ("%", .op .mod), ("@", .op .matMul), ("&", .op .bitAnd),
    ("|", .op .bitOr), ("^", .op .bitXor) ].map fun (text, symbol) => (text.toList, symbol)

/-- The symbol at the start of some characters and its length. -/
def scanSymbol (characters : List Char) : Option (Symbol × Nat) :=
  (symbolTable.find? fun entry => entry.1.isPrefixOf characters).map fun entry =>
    (entry.2, entry.1.length)

/-- The closing bracket of an opening one. -/
def closingOf : Symbol → Option Char
  | .lparen => some ')'
  | .lbracket => some ']'
  | .lbrace => some '\x7d'
  | _ => none

/-- The opening bracket of a closing one. -/
def openingFor : Char → Char
  | ')' => '('
  | ']' => '['
  | _ => '\x7b'

/-- The largest number of brackets open at once. -/
def bracketLimit : Nat := 200

/-- The number of indentations at once, the outermost one included, that is not exceeded. -/
def indentLimit : Nat := 100

/-! ## Indentation -/

/-- The width of the blanks at the start of a line, once with tabs to multiples of eight and once with
tabs of width one. -/
structure Indent where
  width : Nat
  narrow : Nat
deriving DecidableEq, Repr

/-- The blanks at the start of a line with the rest of the line and its position. A backslash at the
end of such blanks joins the next line, and the blanks in front of the first backslash then decide. -/
def scanIndent (indent joined : Indent) (pos : Position) :
    List Char → Except LexicalFault (Indent × Position × List Char)
  | ' ' :: rest => scanIndent ⟨indent.width + 1, indent.narrow + 1⟩ joined (pos.after ' ') rest
  | '\t' :: rest =>
    scanIndent ⟨(indent.width / 8 + 1) * 8, indent.narrow + 1⟩ joined (pos.after '\t') rest
  | '\x0c' :: rest => scanIndent ⟨0, 0⟩ joined (pos.after '\x0c') rest
  | ['\\', '\n'] => .error .continuationAtEnd
  | '\\' :: '\n' :: rest =>
    let joined := if joined.width = 0 then ⟨indent.width, indent.width⟩ else joined
    scanIndent indent joined (pos.after '\n') rest
  | '\\' :: _ => .error .strayContinuation
  | rest => .ok (if joined.width = 0 then indent else joined, pos, rest)

/-- The tokens by which a line is indented differently from the one before, and the indentations that
enclose it; the innermost indentation comes first and the outermost has width zero. -/
def indentTokens (indents : List Indent) (indent : Indent) :
    Except LexicalFault (List TokenKind × List Indent) :=
  let current := indents.head?.getD ⟨0, 0⟩
  if indent.width = current.width then
    if indent.narrow = current.narrow then .ok ([], indents) else .error .inconsistentTabs
  else if current.width < indent.width then
    if indentLimit ≤ indents.length then .error .tooManyIndents
    else if indent.narrow ≤ current.narrow then .error .inconsistentTabs
    else .ok ([.indent], indent :: indents)
  else
    let kept := indents.dropWhile fun outer => indent.width < outer.width
    let dedents := List.replicate (indents.length - kept.length) TokenKind.dedent
    let outer := kept.head?.getD ⟨0, 0⟩
    if indent.width != outer.width then .error .unmatchedIndent
    else if indent.narrow != outer.narrow then .error .inconsistentTabs
    else .ok (dedents, kept)

/-! ## All tokens -/

/-- The state of reading: what is left, where that is, the enclosing indentations and the open
brackets with their lines and closing characters. -/
structure Reading where
  rest : List Char
  pos : Position
  indents : List Indent
  brackets : List (Char × Nat)

/-- The token of a text literal in front of `rest`, the characters after its opening mark. -/
def textToken (marks : List Char) (mark : Char) (reading : Reading) (rest : List Char) :
    Except LexicalFault (TokenKind × Reading) := do
  let (body, characters, rest) ← scanText reading.pos.line mark rest
  let letters := marks.map Char.toLower
  let literal : TextLiteral :=
    { raw := letters.contains 'r', bytes := letters.contains 'b', formatted := letters.contains 'f'
      marked := marks.head? == some 'u', body }
  let pos := (reading.pos.forward marks.length).afterAll characters
  return (.text literal, { reading with rest, pos })

/-- The token of a symbol, where brackets have to match. -/
def symbolToken (symbol : Symbol) (length : Nat) (reading : Reading) :
    Except LexicalFault (TokenKind × Reading) :=
  let next : Reading :=
    { reading with rest := reading.rest.drop length, pos := reading.pos.forward length }
  let close (closing : Char) : Except LexicalFault (TokenKind × Reading) :=
    match reading.brackets with
    | [] => .error (.unmatchedBracket closing)
    | (expected, _) :: outer =>
      if expected = closing then .ok (.symbol symbol, { next with brackets := outer })
      else .error (.mismatchedBracket closing (openingFor expected))
  match closingOf symbol, symbol with
  | some closing, _ =>
    if bracketLimit ≤ reading.brackets.length then .error .tooManyBrackets
    else
      .ok (.symbol symbol, { next with brackets := (closing, reading.pos.line) :: reading.brackets })
  | none, .rparen => close ')'
  | none, .rbracket => close ']'
  | none, .rbrace => close '\x7d'
  | none, _ => .ok (.symbol symbol, next)

/-- The token at the start of what is left, which starts with neither a blank nor a line end. -/
def nextToken (reading : Reading) : Except LexicalFault (TokenKind × Reading) :=
  match reading.rest with
  | [] => .ok (.finish, reading)
  | c :: tail =>
    if isWordCharacter c && !c.isDigit then
      let word := reading.rest.takeWhile isWordCharacter
      let rest := reading.rest.dropWhile isWordCharacter
      let isMark := literalMarks.contains (String.ofList (word.map Char.toLower))
      match isMark, rest with
      | true, '\x27' :: rest => textToken word '\x27' reading rest
      | true, '\x22' :: rest => textToken word '\x22' reading rest
      | _, rest =>
        match wordToken word with
        | .fault fault => .error fault
        | kind => .ok (kind, { reading with rest, pos := reading.pos.afterAll word })
    else if c.isDigit || (c = '.' && (tail.head?.map Char.isDigit).getD false) then do
      let (token, count, rest) ← scanNumber reading.rest
      return (token, { reading with rest, pos := reading.pos.forward count })
    else if c = '\x27' || c = '\x22' then textToken [] c reading tail
    else if ['<', '>'].isPrefixOf reading.rest then
      .ok (.stray, { reading with rest := tail.drop 1, pos := reading.pos.forward 2 })
    else
      match scanSymbol reading.rest with
      | some (symbol, length) => symbolToken symbol length reading
      | none =>
        if isPrintable c.toNat then
          .ok (.stray, { reading with rest := tail, pos := reading.pos.after c })
        else .error (.badCharacter c.toNat)

/-- All tokens from a state of reading on; `fresh` says that a line starts, and the fuel bounds the
number of steps. -/
def tokensFrom : Nat → Bool → Reading → List Token
  | 0, _, reading => [⟨.finish, reading.pos⟩]
  | fuel + 1, true, reading =>
    match scanIndent ⟨0, 0⟩ ⟨0, 0⟩ reading.pos reading.rest with
    | .error fault => [⟨.fault fault, reading.pos⟩]
    | .ok (indent, pos, rest) =>
      let here := { reading with rest, pos }
      match rest with
      | '\n' :: rest => tokensFrom fuel true { here with rest, pos := pos.after '\n' }
      | '#' :: _ =>
        let rest := rest.dropWhile (· != '\n')
        tokensFrom fuel true { here with rest := rest.drop 1, pos := ⟨pos.line + 1, 0⟩ }
      | _ =>
        match indentTokens reading.indents indent with
        | .error fault => [⟨.fault fault, pos⟩]
        | .ok (kinds, indents) =>
          kinds.map (⟨·, pos⟩) ++ tokensFrom fuel false { here with indents }
  | fuel + 1, false, reading =>
    match reading.rest with
    | [] =>
      match reading.brackets with
      | [] => [⟨.finish, reading.pos⟩]
      | (closing, line) :: _ => [⟨.fault (.unclosedBracket (openingFor closing)), ⟨line, 0⟩⟩]
    | '\n' :: rest =>
      let next := { reading with rest, pos := reading.pos.after '\n' }
      if reading.brackets.isEmpty then ⟨.newline, reading.pos⟩ :: tokensFrom fuel true next
      else tokensFrom fuel false next
    | '#' :: rest => tokensFrom fuel false { reading with rest := rest.dropWhile (· != '\n') }
    | ['\\', '\n'] => [⟨.fault .continuationAtEnd, reading.pos⟩]
    | '\\' :: '\n' :: rest =>
      tokensFrom fuel false { reading with rest, pos := reading.pos.after '\n' }
    | '\\' :: _ => [⟨.fault .strayContinuation, reading.pos⟩]
    | c :: rest =>
      if c = ' ' || c = '\t' || c = '\x0c' then
        tokensFrom fuel false { reading with rest, pos := reading.pos.after c }
      else
        match nextToken reading with
        | .error fault => [⟨.fault fault, reading.pos⟩]
        | .ok (kind, next) => ⟨kind, reading.pos⟩ :: tokensFrom fuel false next

/-- All tokens of a text whose line ends are line feeds. -/
def tokens (text : List Char) : Array Token :=
  (tokensFrom (2 * text.length + 2) true
    { rest := text, pos := ⟨1, 0⟩, indents := [⟨0, 0⟩], brackets := [] }).toArray

end PropertyWrapper.Source
