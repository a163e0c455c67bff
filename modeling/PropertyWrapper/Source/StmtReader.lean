import PropertyWrapper.Source.PatternReader

/-!
# Reading statements

Simple statements, compound statements and blocks. Statements are recursive through blocks only, whose
reader is a parameter of the readers here; `block` ties the knot.
-/

namespace PropertyWrapper.Source

open Reader

/-! ## Assignments -/

/-- A single place in parentheses, as the target of an annotation. -/
def parenthesizedPlace (g : Grammar) : Reader Expr := do
  expect (.symbol .lparen)
  let value ← g.primary
  expect (.symbol .rparen)
  if value.isPlace then return value else fail

/-- An annotated assignment from its colon on. -/
def annotatedTail (g : Grammar) (line : Nat) (target : Expr) (bare : Bool) : Reader Stmt := do
  expect (.symbol .colon)
  let hint ← g.expression
  let value ← if ← accept (.symbol .assign) then do pure (some (← assignedValue g)) else pure none
  return .annAssign line target hint value bare

/-- An assignment from its first sign on: every expression in front of a sign is a target. -/
def assignmentTail (g : Grammar) (line : Nat) (first : Expr) : Reader Stmt := do
  let (targets, value) ← repeatStep (fun (state : List Expr × Expr) => do
    let (targets, value) := state
    if ← at? (.symbol .assign) then
      if value.isTarget true then
        advance
        return some (value :: targets, ← assignedValue g)
      else fail
    else return none) ([], first)
  return .assign line targets.reverse value

/-- Whether targets stand here up to a sign of assignment; only a suspicious grammar has to know. -/
def startsTarget (g : Grammar) : Reader Bool := do
  if g.suspicious then
    let sign ← foresee (do let _ ← starTargets g; peek)
    match sign with
    | some (.symbol .assign) | some (.symbol (.augmented _)) | some (.symbol .colon) => return true
    | _ => return false
  else return false

/-- What follows an expression at the start of a statement: the rest of an assignment to it, or nothing.
-/
def expressionTail (g : Grammar) (line : Nat) (mayAnnotate : Bool) (value : Expr) : Reader Stmt := do
  match ← peek with
  | .symbol .colon => if mayAnnotate && value.isPlace then annotatedTail g line value false else fail
  | .symbol .assign => assignmentTail g line value
  | .symbol (.augmented op) =>
    if value.isPlace then
      advance
      return .augAssign line value op (← assignedValue g)
    else fail
  | _ => return .expr line value

/-- An assignment or an expression on its own. The target of an annotation is a name, a single place
in parentheses up to the colon, or an attribute or subscript that does not start with such a
parenthesised place. -/
def expressionStatement (g : Grammar) : Reader Stmt := do
  let pos ← here
  match ← peek, ← ahead 1 with
  | .name id, .symbol .colon =>
    advance
    annotatedTail g pos.line (.name pos id) true
  | _, _ =>
    let place ← foresee do
      let _ ← parenthesizedPlace g
      at? (.symbol .colon)
    if place = some true then annotatedTail g pos.line (← parenthesizedPlace g) false
    else
      let value ← if ← startsTarget g then starTargets g else assignedValue g
      expressionTail g pos.line place.isNone value

/-! ## Simple statements -/

/-- Names joined by points, as one text. -/
def dottedName : Reader String := do
  return String.intercalate "." (← separatedBy (.symbol .dot) name)

/-- A name to bind after `as`, if there is one. -/
def boundName : Reader (Option String) := do
  if ← accept (.reserved .kwAs) then return some (← name) else return none

/-- The number of leading points of a relative import. -/
def leadingDots : Reader Nat :=
  repeatStep (fun count => do
    if ← accept (.symbol .dot) then return some (count + 1)
    else if ← accept (.symbol .ellipsis) then return some (count + 3)
    else return none) 0

/-- A name of a module that is imported. -/
def importedName : Reader ImportAlias := do
  let name ← name
  return { name, boundTo := ← boundName }

/-- Whether a token is a name. -/
def TokenKind.isName : TokenKind → Bool
  | .name _ => true
  | _ => false

/-- The names of an import from a module: all of them, a list, or a list in parentheses. -/
def importedNames : Reader (List ImportAlias) := do
  match ← peek with
  | .symbol (.op .mul) =>
    advance
    return [{ name := "*", boundTo := none }]
  | .symbol .lparen =>
    advance
    let names ← commaList TokenKind.isName importedName
    expect (.symbol .rparen)
    if names.isEmpty then fail else return names
  | _ => separatedBy (.symbol .comma) importedName

/-- An import of modules. -/
def importStatement (line : Nat) : Reader Stmt := do
  advance
  let names ← separatedBy (.symbol .comma) do
    let name ← dottedName
    return { name, boundTo := ← boundName }
  return .imports line names

/-- An import of names from a module. -/
def importFromStatement (line : Nat) : Reader Stmt := do
  advance
  let level ← leadingDots
  let module ←
    if (← peek).isName then do pure (some (← dottedName))
    else if level = 0 then fail
    else pure none
  expect (.reserved .kwImport)
  return .importFrom line level module (← importedNames)

/-- An expression, if the present token starts one. -/
def expression? (g : Grammar) : Reader (Option Expr) := do
  if (← peek).startsExpression then return some (← g.expression) else return none

/-- An expression behind a token, if that token is there. -/
def expressionAfter (g : Grammar) (kind : TokenKind) : Reader (Option Expr) := do
  if ← accept kind then return some (← g.expression) else return none

/-- A deletion. -/
def deleteStatement (g : Grammar) (line : Nat) : Reader Stmt := do
  advance
  let targets ← commaList TokenKind.startsExpression do
    let value ← g.primary
    if value.isTarget false then return value else fail
  if targets.isEmpty then fail else return .delete line targets

/-- A statement that fits on one line. -/
def simpleStatement (g : Grammar) : Reader Stmt := do
  let line := (← here).line
  match ← peek with
  | .reserved .kwReturn =>
    advance
    if (← peek).startsStarred then return .ret line (some (← starExpressions g))
    else return .ret line none
  | .reserved .kwImport => importStatement line
  | .reserved .kwFrom => importFromStatement line
  | .reserved .kwRaise =>
    advance
    match ← expression? g with
    | none => return .raise line none none
    | some exception =>
      return .raise line (some exception) (← expressionAfter g (.reserved .kwFrom))
  | .reserved .kwPass =>
    advance
    return .pass line
  | .reserved .kwBreak =>
    advance
    return .breakLoop line
  | .reserved .kwContinue =>
    advance
    return .continueLoop line
  | .reserved .kwDel => deleteStatement g line
  | .reserved .kwAssert =>
    advance
    let test ← g.expression
    return .assert line test (← expressionAfter g (.symbol .comma))
  | .reserved .kwGlobal =>
    advance
    return .global line (← separatedBy (.symbol .comma) name)
  | .reserved .kwNonlocal =>
    advance
    return .nonlocal line (← separatedBy (.symbol .comma) name)
  | _ => expressionStatement g

/-- The simple statements of one line. -/
def simpleStatements (g : Grammar) : Reader (List Stmt) := do
  let first ← simpleStatement g
  let rest ← repeatStep (fun rest : List Stmt => do
    if ← accept (.symbol .semicolon) then
      if ← at? .newline then return none else return some ((← simpleStatement g) :: rest)
    else return none) []
  expect .newline
  return first :: rest.reverse

/-! ## Compound statements -/

/-- What compound statements need: the expression grammar, the depth of patterns, and the reader of
the block behind a colon. -/
structure Blocks where
  g : Grammar
  depth : Nat
  /-- A block without its colon. -/
  block : Reader (List Stmt)

/-- The block behind a colon. -/
def Blocks.suite (b : Blocks) : Reader (List Stmt) := do
  expect (.symbol .colon)
  b.block

/-- The block behind a word, if that word is there. -/
def Blocks.sectionAfter (b : Blocks) (word : Reserved) : Reader (List Stmt) := do
  if ← accept (.reserved word) then b.suite else return []

/-- The conditional from its word on, where further conditions continue a chain. -/
def branchStatement (b : Blocks) (line : Nat) : Reader Stmt := do
  advance
  let test ← namedExpression b.g
  let body ← b.suite
  let chain ← many (· = .reserved .kwElif) do
    let line := (← here).line
    advance
    let test ← namedExpression b.g
    return (line, test, ← b.suite)
  let orelse ← b.sectionAfter .kwElse
  let orelse := chain.foldr (fun (line, test, body) orelse => [.branch line test body orelse]) orelse
  return .branch line test body orelse

/-- A loop over a condition. -/
def whileStatement (b : Blocks) (line : Nat) : Reader Stmt := do
  advance
  let test ← namedExpression b.g
  let body ← b.suite
  return .whileLoop line test body (← b.sectionAfter .kwElse)

/-- A loop over the items of a value. -/
def forStatement (b : Blocks) (line : Nat) (isAsync : Bool) : Reader Stmt := do
  advance
  let target ← starTargets b.g
  expect (.reserved .kwIn)
  let iterable ← starExpressions b.g
  let body ← b.suite
  return .loop line isAsync target iterable body (← b.sectionAfter .kwElse)

/-- A context manager with its target. -/
def withItem (g : Grammar) : Reader WithItem := do
  let manager ← g.expression
  if ← accept (.reserved .kwAs) then
    let target ← starTarget g
    match ← peek with
    | .symbol .comma | .symbol .rparen | .symbol .colon => return { manager, target := some target }
    | _ => fail
  else return { manager, target := none }

/-- Context managers in parentheses up to a colon. -/
def enclosedWithItems (g : Grammar) : Reader (List WithItem) := do
  expect (.symbol .lparen)
  let items ← commaList TokenKind.startsExpression (withItem g)
  expect (.symbol .rparen)
  if items.isEmpty || !(← at? (.symbol .colon)) then fail else return items

/-- A block under context managers, which may stand in parentheses. -/
def withStatement (b : Blocks) (line : Nat) (isAsync : Bool) : Reader Stmt := do
  advance
  let items ← orElse (enclosedWithItems b.g) (separatedBy (.symbol .comma) (withItem b.g))
  return .withBlock line isAsync items (← b.suite)

/-- A handler of a `try`, for single exceptions or for groups of them. -/
def handler (b : Blocks) (isGroup : Bool) : Reader Handler := do
  expect (.reserved .kwExcept)
  if isGroup then
    expect starToken
    let exception ← b.g.expression
    let name ← boundName
    return .mk (some exception) name (← b.suite)
  else
    match ← expression? b.g with
    | none => return .mk none none (← b.suite)
    | some exception =>
      let name ← boundName
      return .mk (some exception) name (← b.suite)

/-- The handlers of a `try`, which are all of one kind. -/
def handlers (b : Blocks) (isGroup : Bool) : Reader (List Handler) :=
  many (· = .reserved .kwExcept) do
    if ((← ahead 1) = starToken) = isGroup then handler b isGroup
    else misformed (handler b !isGroup)

/-- A block with handlers, a final section or both. -/
def tryStatement (b : Blocks) (line : Nat) : Reader Stmt := do
  advance
  let body ← b.suite
  match ← peek with
  | .reserved .kwExcept =>
    let isGroup := (← ahead 1) = starToken
    let handlers ← handlers b isGroup
    let orelse ← b.sectionAfter .kwElse
    return .tryBlock line isGroup body handlers orelse (← b.sectionAfter .kwFinally)
  | .reserved .kwFinally =>
    advance
    return .tryBlock line false body [] [] (← b.suite)
  | _ => failMisformed

/-- A function definition from its `def` on. -/
def functionStatement (b : Blocks) (line : Nat) (isAsync : Bool) (decorators : List Expr) :
    Reader Stmt := do
  expect (.reserved .kwDef)
  let name ← name
  expect (.symbol .lparen)
  let params ← parameters b.g true (.symbol .rparen)
  expect (.symbol .rparen)
  let returns ← expressionAfter b.g (.symbol .arrow)
  return .function line isAsync name params (← b.suite) decorators returns

/-- A class definition. -/
def classStatement (b : Blocks) (line : Nat) (decorators : List Expr) : Reader Stmt := do
  expect (.reserved .kwClass)
  let name ← name
  let (bases, keywords) ←
    if ← accept (.symbol .lparen) then arguments b.g false default else pure ([], [])
  return .classDef line name bases keywords (← b.suite) decorators

/-- A definition with its decorators. -/
def definition (b : Blocks) : Reader Stmt := do
  let decorators ← many (· = .symbol (.op .matMul)) do
    advance
    let value ← namedExpression b.g
    expect .newline
    return value
  let line := (← here).line
  match ← peek with
  | .reserved .kwClass => classStatement b line decorators
  | .reserved .kwDef => functionStatement b line false decorators
  | .reserved .kwAsync =>
    advance
    functionStatement b line true decorators
  | _ => fail

/-- A statement that starts with `async`. -/
def asyncStatement (b : Blocks) (line : Nat) : Reader Stmt := do
  match ← ahead 1 with
  | .reserved .kwFor =>
    advance
    forStatement b line true
  | .reserved .kwWith =>
    advance
    withStatement b line true
  | _ => definition b

/-- A case of a `match`. -/
def matchCase (b : Blocks) : Reader MatchCase := do
  expect (.name "case")
  let pattern ← casePattern b.g b.depth
  let guard ←
    if ← accept (.reserved .kwIf) then do pure (some (← namedExpression b.g)) else pure none
  return .mk pattern guard (← b.suite)

/-- The first line of a `match`: its subject up to the line end behind the colon. -/
def matchSubject (g : Grammar) : Reader Expr := do
  expect (.name "match")
  let pos ← here
  let first ← starNamed g
  let (rest, comma) ← afterCommas TokenKind.startsStarred (starNamed g)
  if first.isStarred && !comma then fail
  else if ← at? .newline then g.refuse
  else
    expect (.symbol .colon)
    expect .newline
    return if comma then .tuple pos (first :: rest) else first

/-- The cases of a `match`. -/
def matchCases (b : Blocks) : Reader (List MatchCase) := do
  if ← accept .indent then
    let first ← matchCase b
    let rest ← many (· != .dedent) (matchCase b)
    expect .dedent
    return first :: rest
  else failBlock

/-- A `match`, or simple statements when the line is not the first one of a `match`. -/
def matchStatement (b : Blocks) (line : Nat) : Reader (List Stmt) := do
  let isMatch ← foresee (matchSubject b.g)
  if isMatch.isSome then
    let subject ← matchSubject b.g
    return [.matchOn line subject (← matchCases b)]
  else orElse (do let _ ← matchSubject b.g; fail) (simpleStatements b.g)

/-- A statement, or the simple statements of one line. -/
def statement (b : Blocks) : Reader (List Stmt) := do
  let line := (← here).line
  match ← peek with
  | .reserved .kwIf => return [← branchStatement b line]
  | .reserved .kwWhile => return [← whileStatement b line]
  | .reserved .kwFor => return [← forStatement b line false]
  | .reserved .kwWith => return [← withStatement b line false]
  | .reserved .kwTry => return [← tryStatement b line]
  | .reserved .kwAsync => return [← asyncStatement b line]
  | .reserved .kwDef | .reserved .kwClass | .symbol (.op .matMul) => return [← definition b]
  | .name "match" => matchStatement b line
  | _ => simpleStatements b.g

/-- Statements up to the end of a block or of the source. -/
def statements (b : Blocks) : Reader (List Stmt) := do
  let found ← many (fun kind => kind != .dedent && kind != .finish) (statement b)
  return found.flatten

/-- What follows the colon of a compound statement: simple statements on the same line, or an indented
block. Blocks are nested at most as deep as the fuel. -/
def block (g : Grammar) (depth : Nat) : Nat → Reader (List Stmt)
  | 0 => fail
  | fuel + 1 => do
    if ← accept .newline then
      if ← accept .indent then
        let b : Blocks := { g, depth, block := block g depth fuel }
        let first ← statement b
        let rest ← statements b
        expect .dedent
        return first ++ rest
      else failBlock
    else simpleStatements g

end PropertyWrapper.Source
