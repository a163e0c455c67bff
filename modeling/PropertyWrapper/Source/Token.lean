import PropertyWrapper.Source.Tree
import PropertyWrapper.Text.Loose

/-!
# Tokens and faults of Python sources

A source is read as a sequence of tokens. The sequence ends with a token that says whether the whole
source was read or why it could not be read further.
-/

namespace PropertyWrapper.Source

/-! ## Words and symbols -/

/-- The reserved words. -/
inductive Reserved where
  | kwFalse | kwNone | kwTrue | kwAnd | kwAs | kwAssert | kwAsync | kwAwait | kwBreak | kwClass
  | kwContinue | kwDef | kwDel | kwElif | kwElse | kwExcept | kwFinally | kwFor | kwFrom | kwGlobal
  | kwIf | kwImport | kwIn | kwIs | kwLambda | kwNonlocal | kwNot | kwOr | kwPass | kwRaise
  | kwReturn | kwTry | kwWhile | kwWith | kwYield
deriving DecidableEq, Repr

/-- The spelling of each reserved word. -/
def reservedWords : List (String × Reserved) := [
    ("False", .kwFalse), ("None", .kwNone), ("True", .kwTrue), ("and", .kwAnd), ("as", .kwAs),
    ("assert", .kwAssert), ("async", .kwAsync), ("await", .kwAwait), ("break", .kwBreak),
    ("class", .kwClass), ("continue", .kwContinue), ("def", .kwDef), ("del", .kwDel),
    ("elif", .kwElif), ("else", .kwElse), ("except", .kwExcept), ("finally", .kwFinally),
    ("for", .kwFor), ("from", .kwFrom), ("global", .kwGlobal), ("if", .kwIf),
    ("import", .kwImport), ("in", .kwIn), ("is", .kwIs), ("lambda", .kwLambda),
    ("nonlocal", .kwNonlocal), ("not", .kwNot), ("or", .kwOr), ("pass", .kwPass),
    ("raise", .kwRaise), ("return", .kwReturn), ("try", .kwTry), ("while", .kwWhile),
    ("with", .kwWith), ("yield", .kwYield)
  ]

/-- Operators and delimiters. -/
inductive Symbol where
  | lparen | rparen | lbracket | rbracket | lbrace | rbrace | colon | comma | semicolon | dot
  | ellipsis | arrow | assign | walrus | equal | notEqual | less | lessEqual | greater
  | greaterEqual | tilde
  /-- A binary operator. -/
  | op (op : BinaryOp)
  /-- A binary operator joined to an assignment. -/
  | augmented (op : BinaryOp)
deriving DecidableEq, Repr

/-! ## Faults -/

/-- The alphabets of number literals. -/
inductive NumberKind where
  | decimal | imaginary | hexadecimal | octal | binary
deriving DecidableEq, Repr

/-- The name of an alphabet. -/
def NumberKind.text : NumberKind → String
  | .decimal => "decimal"
  | .imaginary => "imaginary"
  | .hexadecimal => "hexadecimal"
  | .octal => "octal"
  | .binary => "binary"

/-- Why the characters of a source form no further token. -/
inductive LexicalFault where
  /-- A quote is not closed on its line; the line is where this was noticed. -/
  | unterminatedText (noticed : Nat)
  /-- A triple quote is not closed; the line is where this was noticed. -/
  | unterminatedTriple (noticed : Nat)
  | badNumber (kind : NumberKind)
  | leadingZeros
  | badIdentifier
  | badCharacter (point : Nat)
  | unmatchedBracket (closing : Char)
  | mismatchedBracket (closing opening : Char)
  | tooManyBrackets
  /-- The source ends inside a bracket. -/
  | unclosedBracket (opening : Char)
  | strayContinuation
  /-- The source ends right after a line continuation. -/
  | continuationAtEnd
  /-- The comparison of two indentations depends on the width of a tab. -/
  | inconsistentTabs
  /-- A line is indented less than its block but unlike any enclosing one. -/
  | unmatchedIndent
  | tooManyIndents
deriving DecidableEq, Repr

/-- Whether a fault is reported in place of a mistake of the grammar that comes before it. -/
def LexicalFault.takesOver : LexicalFault → Bool
  | .inconsistentTabs | .unmatchedIndent | .tooManyIndents | .strayContinuation
  | .continuationAtEnd | .unclosedBracket _ => false
  | _ => true

/-- The wording of a fault. -/
def LexicalFault.message : LexicalFault → String
  | .unterminatedText noticed => s!"unterminated string literal (detected at line {noticed})"
  | .unterminatedTriple noticed =>
    s!"unterminated triple-quoted string literal (detected at line {noticed})"
  | .badNumber kind => s!"invalid {kind.text} literal"
  | .leadingZeros =>
    "leading zeros in decimal integer literals are not permitted; use an 0o prefix for octal "
      ++ "integers"
  | .badIdentifier => "invalid character in identifier"
  | .badCharacter point =>
    "invalid non-printable character U+" ++ String.ofList (Text.hexDigits 4 point)
  | .unmatchedBracket closing => s!"unmatched '{closing}'"
  | .mismatchedBracket closing opening =>
    s!"closing parenthesis '{closing}' does not match opening parenthesis '{opening}'"
  | .tooManyBrackets => "too many nested parentheses"
  | .unclosedBracket opening => s!"'{opening}' was never closed"
  | .strayContinuation => "unexpected character after line continuation character"
  | .continuationAtEnd => "unexpected EOF while parsing"
  | .inconsistentTabs => "inconsistent use of tabs and spaces in indentation"
  | .unmatchedIndent => "unindent does not match any outer indentation level"
  | .tooManyIndents => "too many levels of indentation"

/-! ## Tokens -/

/-- A text literal as it stands between its quotes. -/
structure TextLiteral where
  raw : Bool
  bytes : Bool
  formatted : Bool
  /-- Whether the literal starts with a lower-case `u`. -/
  marked : Bool
  body : List Char
deriving DecidableEq, Repr

/-- What a token is. -/
inductive TokenKind where
  | name (text : String)
  | reserved (word : Reserved)
  | number (value : Constant)
  | text (literal : TextLiteral)
  | symbol (symbol : Symbol)
  /-- What no rule takes: a character that belongs to no token of the language, or a decimal integer
  with too many digits. -/
  | stray
  | newline
  | indent
  | dedent
  /-- The source was read to its end. -/
  | finish
  /-- The source could not be read further. -/
  | fault (fault : LexicalFault)
deriving DecidableEq, Repr

/-- A token and the place where it starts. -/
structure Token where
  kind : TokenKind
  pos : Position
deriving DecidableEq, Repr

instance : Inhabited Token := ⟨⟨.finish, default⟩⟩

/-! ## Errors -/

/-- Why a source is not the text of a tree. -/
inductive SourceFault where
  | lexical (fault : LexicalFault)
  /-- A token that the grammar does not allow at its place. -/
  | unexpectedToken
  | unexpectedIndent
  | unexpectedUnindent
  /-- A compound statement without its indented block. -/
  | missingBlock
  /-- The null character, which no source may hold. -/
  | nullCharacter
  /-- Lone surrogates, with which a text is no source. -/
  | surrogates (found : Text.Surrogates)
deriving DecidableEq, Repr

/-- A fault and the line that it is reported on. -/
structure SourceError where
  fault : SourceFault
  line : Nat
deriving DecidableEq, Repr

/-- The classes of source errors. -/
inductive SourceErrorKind where
  | grammar | indentation | tabs | value
deriving DecidableEq, Repr

/-- The class of an error. -/
def SourceError.kind (error : SourceError) : SourceErrorKind :=
  match error.fault with
  | .lexical .inconsistentTabs => .tabs
  | .lexical .unmatchedIndent | .lexical .tooManyIndents | .unexpectedIndent
  | .unexpectedUnindent | .missingBlock => .indentation
  | .nullCharacter | .surrogates _ => .value
  | _ => .grammar

/-- The wording of an error. -/
def SourceError.message (error : SourceError) : String :=
  match error.fault with
  | .lexical fault => fault.message
  | .unexpectedToken => "invalid syntax"
  | .unexpectedIndent => "unexpected indent"
  | .unexpectedUnindent => "unexpected unindent"
  | .missingBlock => "expected an indented block"
  | .nullCharacter => "source code string cannot contain null bytes"
  | .surrogates found => found.message

end PropertyWrapper.Source
