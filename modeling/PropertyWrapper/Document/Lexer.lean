import PropertyWrapper.Document.Token
import PropertyWrapper.Number.DigitLimit

/-!
# Reading tokens of documents

The text is read from left to right with the open indentations at hand. Wherever a key could start the
place is remembered, and a colon on the same line turns what stands there into a key. Tokens are read
as they are needed: a fault of the text counts only once the tokens in front of it are used up.
-/

namespace PropertyWrapper.Document

open Number Text

/-! ## Characters -/

/-- What stands for the end of the text. -/
def endMark : Char := '\x00'

/-- Whether a character breaks a line. -/
def isBreak (c : Char) : Bool :=
  c = '\n' || c = '\r' || c.toNat = 0x85 || c.toNat = 0x2028 || c.toNat = 0x2029

/-- Whether a line ends at a character. -/
def endsLine (c : Char) : Bool := c = endMark || isBreak c

/-- Whether a word ends at a character, a tab not counted. -/
def endsWord (c : Char) : Bool := c = ' ' || endsLine c

/-- Whether a token ends at a character. -/
def endsToken (c : Char) : Bool := c = '\t' || endsWord c

/-- Whether a character may stand in the name of an anchor. -/
def isNameChar (c : Char) : Bool := c.isAlphanum || c = '-' || c = '_'

/-- Whether a character may stand in a tag. -/
def isTagChar (c : Char) : Bool :=
  c.isAlphanum || "-;/?:@&=+$,_.!~*\x27()[]%".toList.contains c

/-- Whether a character may stand in a document at all. -/
def isAllowed (c : Char) : Bool :=
  let n := c.toNat
  n = 0x9 || n = 0xa || n = 0xd || (0x20 ≤ n && n ≤ 0x7e) || n = 0x85
    || (0xa0 ≤ n && n ≤ 0xd7ff) || (0xe000 ≤ n && n ≤ 0xfffd) || 0x10000 ≤ n

/-- The characters that start something other than a plain scalar. -/
def isIndicator (c : Char) : Bool :=
  "-?:,[]\x7b\x7d#&*!|>\x27\x22%@\x60".toList.contains c

/-! ## State -/

/-- A place where a key could start. -/
structure KeyPlace where
  /-- How many tokens stand before it. -/
  position : Nat
  /-- Whether something other than a key is an error there. -/
  isRequired : Bool
  index : Nat
  line : Nat
  column : Nat

/-- How far a text has been read. -/
structure Cursor where
  rest : List Char
  index : Nat := 0
  line : Nat := 0
  column : Nat := 0

/-- The cursor behind the next character. -/
def Cursor.next (cursor : Cursor) : Cursor :=
  match cursor.rest with
  | [] => cursor
  | c :: rest =>
    if isBreak c && !(c = '\r' && rest.head? = some '\n') then
      { rest, index := cursor.index + 1, line := cursor.line + 1, column := 0 }
    else
      { cursor with
        rest
        index := cursor.index + 1
        column := if c.toNat = 0xfeff then cursor.column else cursor.column + 1 }

/-- The cursor behind a number of characters. -/
def Cursor.skip : Nat → Cursor → Cursor
  | 0, cursor => cursor
  | n + 1, cursor => cursor.next.skip n

/-- The state of the reader. -/
structure LexState extends Cursor where
  /-- How many flow collections are open. -/
  flowLevel : Nat := 0
  /-- The tokens so far, the latest first. -/
  tokens : List Token := []
  indent : Int := -1
  /-- The outer indentations, the innermost first. -/
  indents : List Int := []
  /-- Whether a key may start here. -/
  allowsKey : Bool := true
  /-- Where keys could have started, for each level of flow collections. -/
  keyPlaces : List (Nat × KeyPlace) := []

/-- Whether the place of a key is on an earlier line or too far back. -/
def LexState.isStale (s : LexState) (place : KeyPlace) : Bool :=
  place.line ≠ s.line || 1024 < s.index - place.index

/-- How many tokens can be used before more of the text is read: those in front of the first place
where a key could still start. -/
def LexState.settled (s : LexState) : Nat :=
  s.keyPlaces.foldl
    (fun count entry => if s.isStale entry.2 then count else min count entry.2.position)
    s.tokens.length

/-- A step of the reader. -/
abbrev Lex := StateT LexState (Except DocumentError)

namespace Lex

/-- The text is not a document. -/
def fail {α : Type} : Lex α := throw .malformed

/-- Fails unless a condition holds. -/
def require (condition : Bool) : Lex Unit := if condition then pure () else fail

/-- The character at a distance ahead. -/
def peek (distance : Nat := 0) : Lex Char := return ((← get).rest[distance]?).getD endMark

/-- Skips a number of characters. -/
def skip (count : Nat := 1) : Lex Unit :=
  modify fun s => { s with toCursor := s.toCursor.skip count }

/-- The next characters that satisfy a condition. -/
def takeWhile (p : Char → Bool) : Lex String := do
  let taken := (← get).rest.takeWhile p
  skip taken.length
  return String.ofList taken

/-- Skips the next characters that satisfy a condition. -/
def dropWhile (p : Char → Bool) : Lex Unit := do
  let _ ← takeWhile p

/-- A line break if one comes next, as the characters that it stands for. -/
def lineBreak : Lex String := do
  let c ← peek
  if isBreak c then
    let following ← peek 1
    skip (if c = '\r' && following = '\n' then 2 else 1)
    return if c.toNat = 0x2028 || c.toNat = 0x2029 then String.singleton c else "\n"
  else return ""

/-- Whether a mark of a document stands here. -/
def isDocumentMark : Lex Bool := do
  let ahead := (← get).rest.take 3
  return (ahead = ['-', '-', '-'] || ahead = ['.', '.', '.']) && endsToken (← peek 3)

/-- Adds a token. -/
def emit (token : Token) : Lex Unit := modify fun s => { s with tokens := token :: s.tokens }

/-! ## Keys and indentation -/

/-- Forgets the place of a key at the current level; a required key must not be missing. -/
def forgetKey : Lex Unit := do
  let s ← get
  match s.keyPlaces.lookup s.flowLevel with
  | some place =>
    require !place.isRequired
    set { s with keyPlaces := s.keyPlaces.filter (·.1 ≠ s.flowLevel) }
  | none => return

/-- Remembers the current place as that of a key, if keys are allowed here. -/
def rememberKey : Lex Unit := do
  if (← get).allowsKey then
    forgetKey
    modify fun s =>
      { s with
        keyPlaces := (s.flowLevel,
          { position := s.tokens.length
            isRequired := s.flowLevel = 0 && s.indent = s.column
            index := s.index
            line := s.line
            column := s.column }) :: s.keyPlaces }

/-- Forgets places of keys on earlier lines or too far back. -/
def forgetStaleKeys : Lex Unit := do
  let s ← get
  require !(s.keyPlaces.any fun entry => s.isStale entry.2 && entry.2.isRequired)
  set { s with keyPlaces := s.keyPlaces.filter fun entry => !s.isStale entry.2 }

/-- The open indentations that a column closes, as the indentation that remains, the outer ones, and
how many were closed. -/
def unwound (column : Int) : Int → List Int → Int × List Int × Nat
  | indent, [] => (indent, [], 0)
  | indent, outer :: indents =>
    if column < indent then
      let (remaining, others, count) := unwound column outer indents
      (remaining, others, count + 1)
    else (indent, outer :: indents, 0)

/-- Closes the block collections that are indented deeper than a column. -/
def unwind (column : Int) : Lex Unit := do
  let s ← get
  if s.flowLevel = 0 then
    let (indent, indents, count) := unwound column s.indent s.indents
    set { s with indent, indents, tokens := List.replicate count Token.blockEnd ++ s.tokens }

/-- Opens an indentation at a column, if it is deeper than the current one. -/
def openIndent (column : Int) : Lex Bool := do
  let s ← get
  if s.indent < column then
    set { s with indents := s.indent :: s.indents, indent := column }
    return true
  else return false

/-- Opens a block collection at the current column, if it is deeper than the current one. -/
def openBlock (token : Token) : Lex Unit := do
  if ← openIndent (← get).column then emit token

/-! ## Gaps -/

/-- Skips the rest of a line that may only hold a comment. -/
def ignoredLine : Lex Unit := do
  dropWhile (· = ' ')
  if (← peek) = '#' then dropWhile fun c => !endsLine c
  require (endsLine (← peek))
  let _ ← lineBreak

/-- Skips blanks, comments and line breaks. -/
def toNextToken : Nat → Lex Unit
  | 0 => return
  | fuel + 1 => do
    dropWhile (· = ' ')
    if (← peek) = '#' then dropWhile fun c => !endsLine c
    if (← lineBreak) ≠ "" then
      modify fun s => { s with allowsKey := s.allowsKey || s.flowLevel = 0 }
      toNextToken fuel

/-! ## Directives, anchors and tags -/

/-- The digits of a version number. -/
def versionNumber : Lex Nat := do
  let digits ← takeWhile Char.isDigit
  require (digits ≠ "")
  if digitLimit < digits.length then
    throw (.badScalar (digitLimitMessage (some digits.length)))
  return digits.toNat?.getD 0

/-- The bytes of escapes in a tag. -/
def tagEscapes : Nat → Lex (List UInt8)
  | 0 => return []
  | fuel + 1 => do
    if (← peek) ≠ '%' then return []
    skip
    match hexNumber? [← peek, ← peek 1] with
    | some byte =>
      skip 2
      return byte.toUInt8 :: (← tagEscapes fuel)
    | none => fail

/-- The characters of a tag, in pieces between escapes. -/
def tagPieces : Nat → Lex String
  | 0 => return ""
  | fuel + 1 => do
    let piece ← takeWhile fun c => isTagChar c && c ≠ '%'
    if (← peek) = '%' then
      let bytes ← tagEscapes (← get).rest.length
      match String.fromUTF8? bytes.toByteArray with
      | some text => return piece ++ text ++ (← tagPieces fuel)
      | none => fail
    else return piece

/-- The characters of a tag; there must be at least one. -/
def tagText : Lex String := do
  require (isTagChar (← peek))
  tagPieces (← get).rest.length

/-- The handle of a tag, between exclamation marks. -/
def tagHandle : Lex String := do
  require ((← peek) = '!')
  skip
  if (← peek) = ' ' then return "!"
  let name ← takeWhile isNameChar
  require ((← peek) = '!')
  skip
  return "!" ++ name ++ "!"

/-- A directive behind its percent sign. -/
def directive : Lex Directive := do
  let name ← takeWhile isNameChar
  require (name ≠ "" && endsWord (← peek))
  let result ←
    if name = "YAML" then do
      dropWhile (· = ' ')
      let major ← versionNumber
      require ((← peek) = '.')
      skip
      let _ ← versionNumber
      require (endsWord (← peek))
      pure (Directive.version major)
    else if name = "TAG" then do
      dropWhile (· = ' ')
      let handle ← tagHandle
      require ((← peek) = ' ')
      dropWhile (· = ' ')
      let expansion ← tagText
      require (endsWord (← peek))
      pure (Directive.tagHandle handle expansion)
    else do
      dropWhile fun c => !endsLine c
      pure Directive.other
  ignoredLine
  return result

/-- The name of an anchor or alias behind its mark. -/
def anchorName : Lex String := do
  skip
  let name ← takeWhile isNameChar
  let c ← peek
  require (name ≠ "" && (endsToken c || "?:,]\x7d%@\x60".toList.contains c))
  return name

/-- Whether another exclamation mark stands in a tag, after which the handle ends. -/
def hasHandle (chars : List Char) : Bool :=
  (chars.takeWhile fun c => !endsWord c).contains '!'

/-- A tag. -/
def tag : Lex Token := do
  let c ← peek 1
  let token ←
    if c = '<' then do
      skip 2
      let suffix ← tagText
      require ((← peek) = '>')
      skip
      pure (Token.tag none suffix)
    else if endsToken c then do
      skip
      pure (Token.tag none "!")
    else if hasHandle ((← get).rest.drop 1) then do
      let handle ← tagHandle
      pure (Token.tag (some handle) (← tagText))
    else do
      skip
      pure (Token.tag (some "!") (← tagText))
  require (endsWord (← peek))
  return token

/-! ## Block scalars -/

/-- What becomes of the line breaks at the end of a block scalar. -/
inductive Chomping where
  | strip | clip | keep
deriving DecidableEq, Repr

/-- How line breaks at the end are treated, if it is said. -/
def chomping? : Lex (Option Chomping) := do
  match ← peek with
  | '+' => skip; return some .keep
  | '-' => skip; return some .strip
  | _ => return none

/-- How much deeper a block scalar is indented, if it is said. -/
def increment? : Lex (Option Nat) := do
  let c ← peek
  if c.isDigit then
    require (c ≠ '0')
    skip
    return some (c.toNat - '0'.toNat)
  else return none

/-- Empty lines, and the spaces in front of the next line up to a column. -/
def indentedBreaks (indent : Nat) : Nat → Lex (List String)
  | 0 => return []
  | fuel + 1 => do
    let s ← get
    skip ((s.rest.take (indent - s.column)).takeWhile (· = ' ')).length
    let lineEnd ← lineBreak
    if lineEnd = "" then return [] else return lineEnd :: (← indentedBreaks indent fuel)

/-- Empty lines at the start, and the deepest column that their spaces reach. -/
def leadingBreaks (deepest : Nat) : Nat → Lex (List String × Nat)
  | 0 => return ([], deepest)
  | fuel + 1 => do
    dropWhile (· = ' ')
    let deepest := max deepest (← get).column
    let lineEnd ← lineBreak
    if lineEnd = "" then return ([], deepest)
    else
      let (breaks, deepest) ← leadingBreaks deepest fuel
      return (lineEnd :: breaks, deepest)

/-- The lines of a block scalar after some empty lines: the text, the last line break, and the empty
lines behind it. -/
def blockLines (folded : Bool) (indent : Nat) (breaks : List String) :
    Nat → Lex (String × String × List String)
  | 0 => return ("", "", breaks)
  | fuel + 1 => do
    let s ← get
    if s.column ≠ indent || s.rest.isEmpty then return ("", "", breaks)
    let startsWithBlank := (← peek) = ' ' || (← peek) = '\t'
    let line ← takeWhile fun c => !endsLine c
    let text := String.join breaks ++ line
    let lineEnd ← lineBreak
    let breaks ← indentedBreaks indent (← get).rest.length
    let s ← get
    if s.column ≠ indent || s.rest.isEmpty then return (text, lineEnd, breaks)
    let nextIsBlank := (← peek) = ' ' || (← peek) = '\t'
    let joint :=
      if folded && lineEnd = "\n" && !startsWithBlank && !nextIsBlank then
        (if breaks.isEmpty then " " else "")
      else lineEnd
    let (others, last, remaining) ← blockLines folded indent breaks fuel
    return (text ++ joint ++ others, last, remaining)

/-- A block scalar. -/
def blockScalar (folded : Bool) : Lex Token := do
  skip
  let first ← chomping?
  let increment ← increment?
  let chomping := (← if first.isSome then pure first else chomping?).getD .clip
  require (endsWord (← peek))
  ignoredLine
  let least := max 1 ((← get).indent + 1).toNat
  let fuel := (← get).rest.length + 1
  let (breaks, indent) ←
    match increment with
    | some increment => do
      let indent := least + increment - 1
      pure (← indentedBreaks indent fuel, indent)
    | none => do
      let (breaks, deepest) ← leadingBreaks 0 fuel
      pure (breaks, max least deepest)
  let (text, lineEnd, remaining) ← blockLines folded indent breaks fuel
  let tail :=
    match chomping with
    | .strip => ""
    | .clip => lineEnd
    | .keep => lineEnd ++ String.join remaining
  return .scalar false (points (text ++ tail))

/-! ## Quoted scalars -/

/-- What a letter behind a backslash stands for. -/
def escapeLetter? (c : Char) : Option Char :=
  match c with
  | '0' => some '\x00'
  | 'a' => some '\x07'
  | 'b' => some '\x08'
  | 't' => some '\t'
  | '\t' => some '\t'
  | 'n' => some '\n'
  | 'v' => some '\x0b'
  | 'f' => some '\x0c'
  | 'r' => some '\r'
  | 'e' => some '\x1b'
  | ' ' => some ' '
  | '\x22' => some '\x22'
  | '\x5c' => some '\x5c'
  | '/' => some '/'
  | 'N' => some (Char.ofNat 0x85)
  | '_' => some (Char.ofNat 0xa0)
  | 'L' => some (Char.ofNat 0x2028)
  | 'P' => some (Char.ofNat 0x2029)
  | _ => none

/-- How many digits follow a letter behind a backslash. -/
def escapeDigits? (c : Char) : Option Nat :=
  if c = 'x' then some 2
  else if c = 'u' then some 4
  else if c = 'U' then some 8
  else none

/-- A code point, which must not be beyond the last; one that fits into no signed word of 32 bits is
refused in other words. -/
def checkedPoint (n : Nat) : Lex Nat :=
  if n ≤ lastPoint then return n
  else if n < 0x80000000 then throw (.badScalar "chr() arg not in range(0x110000)")
  else throw (.overflow "Python int too large to convert to C int")

/-- Empty lines inside a quoted scalar; a mark of a document must not stand there. -/
def quotedBreaks : Nat → Lex String
  | 0 => return ""
  | fuel + 1 => do
    require !(← isDocumentMark)
    dropWhile fun c => c = ' ' || c = '\t'
    let lineEnd ← lineBreak
    if lineEnd = "" then return "" else return lineEnd ++ (← quotedBreaks fuel)

/-- What an escape in a quoted scalar stands for. -/
def quotedEscape : Lex Points := do
  skip
  let c ← peek
  match escapeLetter? c with
  | some character =>
    skip
    return [character.toNat]
  | none =>
    match escapeDigits? c with
    | some count =>
      skip
      let digits := (← get).rest.take count
      match hexNumber? digits with
      | some n =>
        require (digits.length = count)
        skip count
        return [← checkedPoint n]
      | none => fail
    | none =>
      require (isBreak c)
      let _ ← lineBreak
      return points (← quotedBreaks ((← get).rest.length + 1))

/-- Blanks and line breaks inside a quoted scalar: a single break is a space. -/
def quotedGap : Lex String := do
  let blanks ← takeWhile fun c => c = ' ' || c = '\t'
  let c ← peek
  require (c ≠ endMark)
  if isBreak c then
    let lineEnd ← lineBreak
    let breaks ← quotedBreaks ((← get).rest.length + 1)
    let first := if lineEnd ≠ "\n" then lineEnd else if breaks = "" then " " else ""
    return first ++ breaks
  else return blanks

/-- The text of a quoted scalar up to its closing quote. -/
def quotedText (quote : Char) : Nat → Lex Points
  | 0 => fail
  | fuel + 1 => do
    let c ← peek
    if c = quote then
      skip
      if quote = singleQuote && (← peek) = singleQuote then
        skip
        return singleQuote.toNat :: (← quotedText quote fuel)
      else return []
    else if c = endMark then fail
    else if quote = doubleQuote && c = backslash then
      let text ← quotedEscape
      return text ++ (← quotedText quote fuel)
    else if c = ' ' || c = '\t' || isBreak c then
      let gap ← quotedGap
      return points gap ++ (← quotedText quote fuel)
    else
      skip
      return c.toNat :: (← quotedText quote fuel)

/-- A quoted scalar. -/
def quotedScalar : Lex Token := do
  let quote ← peek
  skip
  return .scalar false (← quotedText quote ((← get).rest.length + 1))

/-! ## Plain scalars -/

/-- The characters of a plain scalar up to the next blank or indicator. -/
def plainWord (inFlow : Bool) : List Char → List Char
  | [] => []
  | c :: rest =>
    let following := rest.headD endMark
    let isIndicatorHere :=
      endsToken c
        || (c = ':' && (endsToken following || (inFlow && ",[]\x7b\x7d".toList.contains following)))
        || (inFlow && ",?[]\x7b\x7d".toList.contains c)
    if isIndicatorHere then [] else c :: plainWord inFlow rest

/-- Empty lines inside a plain scalar, unless a mark of a document stands behind one. -/
def plainBreaks : Nat → Lex (Option String)
  | 0 => return some ""
  | fuel + 1 => do
    if ← isDocumentMark then return none
    dropWhile (· = ' ')
    let lineEnd ← lineBreak
    if lineEnd = "" then return some "" else return (← plainBreaks fuel).map (lineEnd ++ ·)

/-- Blanks and line breaks inside a plain scalar; nothing if the scalar ends. -/
def plainGap : Lex String := do
  let blanks ← takeWhile (· = ' ')
  let lineEnd ← lineBreak
  if lineEnd = "" then return blanks
  modify fun s => { s with allowsKey := true }
  match ← plainBreaks ((← get).rest.length + 1) with
  | none => return ""
  | some breaks =>
    let first := if lineEnd ≠ "\n" then lineEnd else if breaks = "" then " " else ""
    return first ++ breaks

/-- The text of a plain scalar behind a gap. -/
def plainText (indent : Int) (gap : String) : Nat → Lex String
  | 0 => return ""
  | fuel + 1 => do
    if (← peek) = '#' then return ""
    let s ← get
    let word := plainWord (0 < s.flowLevel) s.rest
    if word.isEmpty then return ""
    set { s with allowsKey := false }
    skip word.length
    let text := gap ++ String.ofList word
    let gap ← plainGap
    let s ← get
    if gap = "" || (← peek) = '#' || (s.flowLevel = 0 && (s.column : Int) < indent) then return text
    else return text ++ (← plainText indent gap fuel)

/-- A plain scalar. -/
def plainScalar : Lex Token := do
  let s ← get
  return .scalar true (points (← plainText (s.indent + 1) "" (s.rest.length + 1)))

/-! ## Tokens -/

/-- Reads a token that can be a key. -/
def possibleKey (read : Lex Token) : Lex Unit := do
  rememberKey
  modify fun s => { s with allowsKey := false }
  emit (← read)

/-- Opens a flow collection. -/
def openFlow (token : Token) : Lex Unit := do
  rememberKey
  modify fun s => { s with flowLevel := s.flowLevel + 1, allowsKey := true }
  skip
  emit token

/-- Closes a flow collection. -/
def closeFlow (token : Token) : Lex Unit := do
  forgetKey
  require ((← get).flowLevel ≠ 0)
  modify fun s => { s with flowLevel := s.flowLevel - 1, allowsKey := false }
  skip
  emit token

/-- Ends everything that is open in front of a mark of a document. -/
def endBlocks : Lex Unit := do
  unwind (-1)
  forgetKey
  modify fun s => { s with allowsKey := false }

/-- A mark of a document. -/
def documentMark (token : Token) : Lex Unit := do
  endBlocks
  skip 3
  emit token

/-- A dash in front of an entry. -/
def blockEntry : Lex Unit := do
  if (← get).flowLevel = 0 then
    require (← get).allowsKey
    openBlock .blockSequenceStart
  modify fun s => { s with allowsKey := true }
  forgetKey
  skip
  emit .blockEntry

/-- A question mark in front of a key. -/
def explicitKey : Lex Unit := do
  if (← get).flowLevel = 0 then
    require (← get).allowsKey
    openBlock .blockMappingStart
  modify fun s => { s with allowsKey := s.flowLevel = 0 }
  forgetKey
  skip
  emit .key

/-- Tokens, the latest first, with some more behind the first few. -/
def insertTokens (position : Nat) (added tokens : List Token) : List Token :=
  let count := tokens.length - position
  tokens.take count ++ added ++ tokens.drop count

/-- A colon in front of a value, which may turn an earlier place into a key. -/
def value : Lex Unit := do
  let s ← get
  match s.keyPlaces.lookup s.flowLevel with
  | some place =>
    set { s with keyPlaces := s.keyPlaces.filter (·.1 ≠ s.flowLevel) }
    let opens ← if s.flowLevel = 0 then openIndent place.column else pure false
    let added := if opens then [Token.key, Token.blockMappingStart] else [Token.key]
    modify fun s =>
      { s with tokens := insertTokens place.position added s.tokens, allowsKey := false }
  | none =>
    if s.flowLevel = 0 then
      require s.allowsKey
      openBlock .blockMappingStart
    modify fun s => { s with allowsKey := s.flowLevel = 0 }
    forgetKey
  skip
  emit .value

/-- Whether a plain scalar starts here. -/
def startsPlain (inFlow : Bool) (c following : Char) : Bool :=
  (!endsToken c && !isIndicator c)
    || (!endsToken following && (c = '-' || (!inFlow && (c = '?' || c = ':'))))

/-- Reads the next token; whether the text goes on behind it. -/
def nextToken : Lex Bool := do
  toNextToken ((← get).rest.length + 1)
  forgetStaleKeys
  unwind (← get).column
  let s ← get
  let inFlow := 0 < s.flowLevel
  let c ← peek
  let following ← peek 1
  if s.rest.isEmpty then
    endBlocks
    emit .streamEnd
    return false
  if c = '%' && s.column = 0 then
    endBlocks
    skip
    emit (.directive (← directive))
  else if c = '-' && s.column = 0 && (← isDocumentMark) then documentMark .documentStart
  else if c = '.' && s.column = 0 && (← isDocumentMark) then documentMark .documentEnd
  else if c = '[' then openFlow .flowSequenceStart
  else if c = '\x7b' then openFlow .flowMappingStart
  else if c = ']' then closeFlow .flowSequenceEnd
  else if c = '\x7d' then closeFlow .flowMappingEnd
  else if c = ',' then
    modify fun s => { s with allowsKey := true }
    forgetKey
    skip
    emit .flowEntry
  else if c = '-' && endsToken following then blockEntry
  else if c = '?' && (inFlow || endsToken following) then explicitKey
  else if c = ':' && (inFlow || endsToken following) then value
  else if c = '*' then possibleKey do return .alias (← anchorName)
  else if c = '&' then possibleKey do return .anchor (← anchorName)
  else if c = '!' then possibleKey tag
  else if (c = '|' || c = '>') && !inFlow then
    modify fun s => { s with allowsKey := true }
    forgetKey
    emit (← blockScalar (c = '>'))
  else if c = singleQuote || c = doubleQuote then possibleKey quotedScalar
  else if startsPlain inFlow c following then possibleKey plainScalar
  else fail
  return true

end Lex

/-- The tokens of a text, and the fault that keeps the text from being read to its end, if there is
one. -/
structure TokenStream where
  tokens : List Token
  fault : Option DocumentError

namespace TokenStream

/-- The tokens from a state on. -/
def ofState : Nat → LexState → TokenStream
  | 0, s => ⟨s.tokens.reverse, some .malformed⟩
  | fuel + 1, s =>
    match Lex.nextToken.run s with
    | .ok (true, s) => ofState fuel s
    | .ok (false, s) => ⟨s.tokens.reverse, none⟩
    | .error fault => ⟨s.tokens.reverse.take s.settled, some fault⟩

/-- The tokens of a text. A byte order mark at its start is skipped. -/
def ofText (text : String) : TokenStream :=
  let chars := text.toList
  if chars.all isAllowed then
    let rest := if chars.head? = some (Char.ofNat 0xfeff) then chars.drop 1 else chars
    ofState (rest.length + 2) { rest }
  else ⟨[], some .malformed⟩

end TokenStream

end PropertyWrapper.Document
