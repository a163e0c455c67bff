import PropertyWrapper.Source.StmtReader

/-!
# Reading modules and expressions

The text of a module becomes the list of its statements, and the text of an expression its tree. An
error is reported where reading failed, but a fault of the characters further on takes precedence.
-/

namespace PropertyWrapper.Source

open Reader PropertyWrapper.Text

/-! ## Errors -/

/-- The error of a failure at a token. -/
def Failure.error (failure : Failure) (tokens : Array Token) : SourceError :=
  let token := tokenAt tokens failure.index
  let last := tokenAt tokens (tokens.size - 1)
  let later (error : SourceError) : SourceError :=
    match last.kind with
    | .fault (.unclosedBracket opening) =>
      if last.pos.line < token.pos.line then ⟨.lexical (.unclosedBracket opening), last.pos.line⟩
      else error
    | .fault fault => if fault.takesOver then ⟨.lexical fault, last.pos.line⟩ else error
    | _ => error
  match token.kind with
  | .fault fault => ⟨.lexical fault, token.pos.line⟩
  | kind =>
    match failure.cause, kind with
    | .missingBlock, _ => later ⟨.missingBlock, token.pos.line⟩
    | .unexpected, .indent => ⟨.unexpectedIndent, token.pos.line⟩
    | .unexpected, .dedent => ⟨.unexpectedUnindent, token.pos.line⟩
    | _, _ => later ⟨.unexpectedToken, token.pos.line⟩

/-! ## Whole texts -/

/-- The value that a reader finds in all tokens of a text. After a failure the text is read once more
to find what is suspicious in front of it; a reader takes a flag that says so. -/
def readAllWith {α : Type} (lexer : Lexer) (reader : Bool → Nat → Reader α) (text : List Char) :
    Except SourceError α :=
  if text.contains '\x00' then .error ⟨.nullCharacter, 0⟩
  else
    let tokens := lexer text
    match reader false (text.length + 2) tokens 0 with
    | .ok (value, _) => .ok value
    | .error failure =>
      match (tokenAt tokens failure.index).kind, reader true (text.length + 2) tokens 0 with
      | .fault _, _ | _, .ok _ => .error (failure.error tokens)
      | _, .error suspect =>
        .error ((if suspect.cause = .misformed then suspect else failure).error tokens)

/-- The value that a reader finds in a text with names as they are written. -/
def readAll {α : Type} (reader : Bool → Nat → Reader α) (text : List Char) : Except SourceError α :=
  readAllWith tokens reader text

/-- The statements of a module. -/
def moduleReaderWith (lexer : Lexer) (suspicious : Bool) (fuel : Nat) : Reader (List Stmt) := do
  let g := grammarWith lexer suspicious fuel
  let body ← statements { g, depth := fuel, block := block g fuel fuel }
  expect .finish
  return body

/-- The statements of a module with names as they are written. -/
def moduleReader (suspicious : Bool) (fuel : Nat) : Reader (List Stmt) :=
  moduleReaderWith tokens suspicious fuel

/-- The expressions that may stand alone: a tuple when there is a comma, none unpacked. -/
def expressionReader (suspicious : Bool) (fuel : Nat) : Reader Expr := do
  let g := grammar suspicious fuel
  let value ← tupleOr TokenKind.startsExpression g.expression
  let _ ← many (· = .newline) advance
  expect .finish
  return value

/-- The statements of the module with a given text. Names are taken as they are written, so the names of a
source are expected to be in the normal form that the host brings identifiers into. -/
def parseModule (source : String) : Except SourceError (List Stmt) :=
  readAll moduleReader (closedLines source.toList)

/-- The expression with a given text, with names as they are written. -/
def parseExpression (source : String) : Except SourceError Expr :=
  readAll expressionReader (unifyNewlines source.toList)

/-! ## Normal forms -/

/-- A normal form that names are brought into. What consists of ASCII characters is in normal form, also
behind other characters. -/
structure NormalForm where
  apply : String → String
  apply_empty : apply "" = ""
  apply_append (name tail : String) (ascii : tail.toList.all (·.toNat < 0x80) = true) :
    apply (name ++ tail) = apply name ++ tail

/-- Names as they are written. -/
def NormalForm.asWritten : NormalForm := ⟨id, rfl, fun _ _ _ => rfl⟩

/-- A kind of token with its name, if it has one, in normal form. -/
def TokenKind.normalized (normal : NormalForm) : TokenKind → TokenKind
  | .name id => .name (normal.apply id)
  | kind => kind

/-- A token with its name, if it is one, in normal form. -/
def Token.normalized (normal : NormalForm) (token : Token) : Token :=
  { token with kind := token.kind.normalized normal }

/-- The tokens of a text with names in normal form. Words are told from names as they are written. -/
def normalizedTokens (normal : NormalForm) : Lexer :=
  fun text => (tokens text).map (Token.normalized normal)

/-- The statements of the module with a given text, read with names in normal form. -/
def parseNormalized (normal : NormalForm) (source : String) : Except SourceError (List Stmt) :=
  readAllWith (normalizedTokens normal) (moduleReaderWith (normalizedTokens normal))
    (closedLines source.toList)

end PropertyWrapper.Source
