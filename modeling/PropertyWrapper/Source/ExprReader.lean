import PropertyWrapper.Source.Grammar
import PropertyWrapper.Source.Lexer
import PropertyWrapper.Source.TextValue

/-!
# Reading expressions

One reader for each level of the expression grammar. The grammar is recursive through whole
expressions, negations, signed operands and targets only; a reader takes the readers of these as a
parameter, and `grammarWith` ties the knot with as much fuel as the source has characters.
-/

namespace PropertyWrapper.Source

open Reader

/-! ## The recursive part of the grammar -/

/-- The readers through which the expression grammar is recursive. A suspicious grammar serves to explain
a failure further on: it refuses some of what the grammar allows but is more likely a mistake. -/
structure Grammar where
  suspicious : Bool
  /-- A whole expression. -/
  expression : Reader Expr
  /-- A comparison or its negation. -/
  inversion : Reader Expr
  /-- An operand with signs in front. -/
  factor : Reader Expr
  /-- An atom with its attributes, subscripts and calls. -/
  primary : Reader Expr
  /-- The expression of a replacement field, from its characters. -/
  field : List Char → Option Expr

/-- The token `*`, which unpacks a sequence. -/
def starToken : TokenKind := .symbol (.op .mul)

/-- The token `**`, which unpacks a mapping. -/
def doubleStarToken : TokenKind := .symbol (.op .pow)

/-- Failure, which is definite when the grammar is suspicious. -/
def Grammar.refuse {α : Type} (g : Grammar) : Reader α := if g.suspicious then failMisformed else fail

/-- Whether a token starts a clause of a comprehension. -/
def TokenKind.startsClause (kind : TokenKind) : Bool :=
  kind = .reserved .kwFor || kind = .reserved .kwAsync

/-- Whether an expression is unpacked. -/
def Expr.isStarred : Expr → Bool
  | .starred .. => true
  | _ => false

/-! ## Binary operators -/

/-- Operands joined by operators that group to the left. -/
def leftAssociative (operators : List BinaryOp) (operand : Reader Expr) : Reader Expr := do
  let pos ← here
  let first ← operand
  repeatStep (fun left => do
    match ← peek with
    | .symbol (.op op) =>
      if operators.contains op then
        advance
        return some (.binary pos op left (← operand))
      else return none
    | _ => return none) first

/-- Operands joined by arithmetic and bitwise operators. -/
def bitwiseOr (g : Grammar) : Reader Expr :=
  leftAssociative [.bitOr] <| leftAssociative [.bitXor] <| leftAssociative [.bitAnd] <|
    leftAssociative [.leftShift, .rightShift] <| leftAssociative [.add, .sub] <|
    leftAssociative [.mul, .matMul, .div, .mod, .floorDiv] g.factor

/-- The comparison operator at the present token, with the number of its tokens. -/
def compareOp : Reader (Option (CompareOp × Nat)) := do
  match ← peek, ← ahead 1 with
  | .symbol .equal, _ => return some (.eq, 1)
  | .symbol .notEqual, _ => return some (.notEq, 1)
  | .symbol .less, _ => return some (.lt, 1)
  | .symbol .lessEqual, _ => return some (.le, 1)
  | .symbol .greater, _ => return some (.gt, 1)
  | .symbol .greaterEqual, _ => return some (.ge, 1)
  | .reserved .kwIn, _ => return some (.isIn, 1)
  | .reserved .kwNot, .reserved .kwIn => return some (.notIn, 2)
  | .reserved .kwIs, .reserved .kwNot => return some (.isNot, 2)
  | .reserved .kwIs, _ => return some (.is, 1)
  | _, _ => return none

/-- Operands joined by comparisons. -/
def comparison (g : Grammar) : Reader Expr := do
  let pos ← here
  let left ← bitwiseOr g
  let steps ← repeatStep (fun steps : List CompareStep => do
    match ← compareOp with
    | none => return none
    | some (op, count) =>
      advance
      if count = 2 then advance
      return some (.mk op (← bitwiseOr g) :: steps)) []
  return if steps.isEmpty then left else .compare pos left steps.reverse

/-- A comparison or its negation. -/
def inversion (g : Grammar) : Reader Expr := do
  let pos ← here
  if ← accept (.reserved .kwNot) then return .unary pos .not (← g.inversion)
  else comparison g

/-- Operands joined by one boolean operator. -/
def booleanChain (op : BoolOp) (word : Reserved) (operand : Reader Expr) : Reader Expr := do
  let pos ← here
  let operands ← separatedBy (.reserved word) operand
  match operands with
  | [single] => return single
  | operands => return .boolean pos op operands

/-- Operands joined by `and` and `or`. -/
def disjunction (g : Grammar) : Reader Expr :=
  booleanChain .or .kwOr (booleanChain .and .kwAnd (inversion g))

/-! ## Lists of expressions -/

/-- An expression that may be an assignment of a name. -/
def namedExpression (g : Grammar) : Reader Expr := do
  let pos ← here
  match ← peek, ← ahead 1 with
  | .name id, .symbol .walrus =>
    advance
    advance
    return .assigned pos (.name pos id) (← g.expression)
  | .name _, .symbol .assign =>
    advance
    g.refuse
  | _, _ =>
    let value ← g.expression
    if ← at? (.symbol .walrus) then fail else return value

/-- An expression that may be unpacked; `plain` reads one that is not. -/
def starredOr (g : Grammar) (plain : Reader Expr) : Reader Expr := do
  let pos ← here
  if ← accept starToken then return .starred pos (← bitwiseOr g) else plain

/-- Expressions of a list, which form a tuple when there is a comma. -/
def tupleOr (starts : TokenKind → Bool) (item : Reader Expr) : Reader Expr := do
  let pos ← here
  let first ← item
  let (rest, comma) ← afterCommas starts item
  return if comma then .tuple pos (first :: rest) else first

/-- Expressions that may be unpacked and form a tuple when there is a comma. -/
def starExpressions (g : Grammar) : Reader Expr :=
  tupleOr TokenKind.startsStarred (starredOr g g.expression)

/-- An element of a display: unpacked, assigned or plain. -/
def starNamed (g : Grammar) : Reader Expr := starredOr g (namedExpression g)

/-- A `yield` with its value. -/
def yieldExpression (g : Grammar) : Reader Expr := do
  let pos ← here
  expect (.reserved .kwYield)
  if ← accept (.reserved .kwFrom) then return .yieldFrom pos (← g.expression)
  else if (← peek).startsStarred then return .yield pos (some (← starExpressions g))
  else return .yield pos none

/-- The value of an assignment. -/
def assignedValue (g : Grammar) : Reader Expr := do
  if ← at? (.reserved .kwYield) then yieldExpression g else starExpressions g

/-! ## Parameters -/

/-- The parameters read so far. -/
structure ParameterState where
  positionalOnly : List Parameter := []
  regular : List Parameter := []
  variadic : Option Parameter := none
  keywordOnly : List Parameter := []
  keywords : Option Parameter := none
  /-- Whether a positional parameter has a default. -/
  hasDefault : Bool := false
  hasSlash : Bool := false
  hasStar : Bool := false
  /-- Whether a bare star still lacks the parameter that has to follow it. -/
  pending : Bool := false

/-- The annotation of a parameter, if there may be one and there is. -/
def hint? (annotated : Bool) (value : Reader Expr) : Reader (Option Expr) := do
  if annotated then
    if ← accept (.symbol .colon) then return some (← value) else return none
  else return none

/-- One item of a parameter list. -/
def parameterItem (g : Grammar) (annotated : Bool) (s : ParameterState) :
    Reader ParameterState := do
  match ← peek with
  | .symbol (.op .div) =>
    if s.hasSlash || s.hasStar || s.regular.isEmpty then fail
    else
      advance
      return { s with positionalOnly := s.regular, regular := [], hasSlash := true }
  | .symbol (.op .mul) =>
    if s.hasStar then fail
    else
      advance
      if ← at? (.symbol .comma) then return { s with hasStar := true, pending := true }
      else
        let name ← name
        let hint ← hint? annotated (starredOr g g.expression)
        return { s with hasStar := true, variadic := some (.mk name hint none) }
  | .symbol (.op .pow) =>
    if s.pending then fail
    else
      advance
      let name ← name
      let hint ← hint? annotated g.expression
      return { s with keywords := some (.mk name hint none) }
  | _ =>
    let name ← name
    let hint ← hint? annotated g.expression
    let default ←
      if ← accept (.symbol .assign) then do pure (some (← g.expression)) else pure none
    let param := Parameter.mk name hint default
    if s.hasStar then return { s with keywordOnly := s.keywordOnly ++ [param], pending := false }
    else if s.hasDefault && default.isNone then fail
    else
      return { s with regular := s.regular ++ [param], hasDefault := s.hasDefault || default.isSome }

/-- The parameters in front of a closing token. A parameter without a default does not follow one with
a default, and nothing follows the parameter that takes all other keywords. -/
def parameters (g : Grammar) (annotated : Bool) (closing : TokenKind) : Reader Parameters := do
  let s ← repeatStep (fun s : ParameterState => do
    if ← at? closing then return none
    else if s.keywords.isSome then fail
    else
      let s ← parameterItem g annotated s
      if ← accept (.symbol .comma) then return some s
      else if ← at? closing then return some s
      else fail) {}
  if s.pending then fail
  else return .mk s.positionalOnly s.regular s.variadic s.keywordOnly s.keywords

/-! ## Comprehensions -/

/-- A target of a loop. -/
def starTarget (g : Grammar) : Reader Expr := do
  let pos ← here
  let value ← if ← accept starToken then do pure (.starred pos (← g.primary)) else g.primary
  if value.isTarget true then return value else fail

/-- The targets of a loop, which form a tuple when there is a comma. -/
def starTargets (g : Grammar) : Reader Expr :=
  tupleOr TokenKind.startsStarred (starTarget g)

/-- The clauses of a comprehension. -/
def comprehensionClauses (g : Grammar) : Reader (List Comprehension) :=
  many TokenKind.startsClause do
    let isAsync ← accept (.reserved .kwAsync)
    expect (.reserved .kwFor)
    let target ← starTargets g
    expect (.reserved .kwIn)
    let iterable ← disjunction g
    let conditions ← many (· = .reserved .kwIf) (do advance; disjunction g)
    return .mk isAsync target iterable conditions

/-! ## Arguments and subscripts -/

/-- The arguments of a call read so far, the last one first. -/
structure ArgumentState where
  args : List Expr := []
  keywords : List Keyword := []
  /-- Whether a mapping was unpacked. -/
  unpacked : Bool := false

/-- Whether a token starts an argument. -/
def TokenKind.startsArgument (kind : TokenKind) : Bool :=
  kind = doubleStarToken || kind.startsStarred

/-- One argument: plain ones come before named ones, and no sequence is unpacked after a mapping. -/
def argument (g : Grammar) (s : ArgumentState) : Reader ArgumentState := do
  let pos ← here
  match ← peek, ← ahead 1 with
  | .symbol (.op .mul), _ =>
    if s.unpacked then fail
    else
      advance
      return { s with args := .starred pos (← g.expression) :: s.args }
  | .symbol (.op .pow), _ =>
    advance
    return { s with keywords := .mk pos none (← g.expression) :: s.keywords, unpacked := true }
  | .name id, .symbol .assign =>
    advance
    advance
    return { s with keywords := .mk pos (some id) (← g.expression) :: s.keywords }
  | _, _ =>
    if s.keywords.isEmpty then return { s with args := (← namedExpression g) :: s.args } else fail

/-- The arguments behind a first one, up to the closing parenthesis, which is consumed. -/
def moreArguments (g : Grammar) (s : ArgumentState) : Reader ArgumentState := do
  let s ← repeatStep (fun s : ArgumentState => do
    if ← accept (.symbol .comma) then
      if (← peek).startsArgument then return some (← argument g s) else return none
    else return none) s
  expect (.symbol .rparen)
  return s

/-- The arguments between parentheses, of which the opening one is consumed at `pos`. A generator may
stand as the only argument where `generators` says so. -/
def arguments (g : Grammar) (generators : Bool) (pos : Position) :
    Reader (List Expr × List Keyword) := do
  if ← accept (.symbol .rparen) then return ([], [])
  else
    let s ← argument g {}
    match generators && (← peek).startsClause, s.args with
    | true, [element] =>
      if element.isStarred then fail
      else
        let clauses ← comprehensionClauses g
        expect (.symbol .rparen)
        return ([.generator pos element clauses], [])
    | _, _ =>
      let s ← moreArguments g s
      return (s.args.reverse, s.keywords.reverse)

/-- An optional bound of a slice. -/
def sliceBound (g : Grammar) : Reader (Option Expr) := do
  if (← peek).startsExpression then return some (← g.expression) else return none

/-- A slice from its first colon on. -/
def sliceTail (g : Grammar) (pos : Position) (lower : Option Expr) : Reader Expr := do
  expect (.symbol .colon)
  let upper ← sliceBound g
  let step ← if ← accept (.symbol .colon) then sliceBound g else pure none
  return .slice pos lower upper step

/-- One item of a subscript. -/
def subscriptItem (g : Grammar) : Reader Expr := do
  let pos ← here
  match ← peek, ← ahead 1 with
  | .symbol (.op .mul), _ =>
    advance
    return .starred pos (← g.expression)
  | .symbol .colon, _ => sliceTail g pos none
  | .name _, .symbol .walrus => namedExpression g
  | _, _ =>
    let value ← g.expression
    match ← peek with
    | .symbol .colon => sliceTail g pos (some value)
    | .symbol .walrus => fail
    | _ => return value

/-- What stands between the brackets of a subscript: an unpacked item always makes a tuple. -/
def subscriptIndex (g : Grammar) : Reader Expr := do
  let pos ← here
  let first ← subscriptItem g
  let starts (kind : TokenKind) : Bool := kind = .symbol .colon || kind.startsStarred
  let (rest, comma) ← afterCommas starts (subscriptItem g)
  return if comma || first.isStarred then .tuple pos (first :: rest) else first

/-! ## Atoms -/

/-- A parenthesised expression, tuple or generator. -/
def parenthesized (g : Grammar) : Reader Expr := do
  let pos ← here
  advance
  match ← peek with
  | .symbol .rparen =>
    advance
    return .tuple pos []
  | .reserved .kwYield =>
    let value ← yieldExpression g
    expect (.symbol .rparen)
    return value
  | _ =>
    let first ← starNamed g
    if (← peek).startsClause then
      if first.isStarred then fail
      else
        let clauses ← comprehensionClauses g
        expect (.symbol .rparen)
        return .generator pos first clauses
    else
      let (rest, comma) ← afterCommas TokenKind.startsStarred (starNamed g)
      expect (.symbol .rparen)
      if comma then return .tuple pos (first :: rest)
      else if first.isStarred then g.refuse
      else return first

/-- A list display or comprehension. -/
def bracketed (g : Grammar) : Reader Expr := do
  let pos ← here
  advance
  if ← accept (.symbol .rbracket) then return .list pos []
  else
    let first ← starNamed g
    if (← peek).startsClause then
      if first.isStarred then fail
      else
        let clauses ← comprehensionClauses g
        expect (.symbol .rbracket)
        return .listComp pos first clauses
    else
      let (rest, _) ← afterCommas TokenKind.startsStarred (starNamed g)
      expect (.symbol .rbracket)
      return .list pos (first :: rest)

/-- An item of a dictionary display. -/
def dictItem (g : Grammar) : Reader DictItem := do
  if ← accept doubleStarToken then return .unpack (← bitwiseOr g)
  else
    let key ← g.expression
    expect (.symbol .colon)
    return .pair key (← g.expression)

/-- Whether a token starts an item of a dictionary display. -/
def TokenKind.startsItem (kind : TokenKind) : Bool :=
  kind = doubleStarToken || kind.startsExpression

/-- The rest of a dictionary display behind its first item. -/
def dictTail (g : Grammar) (pos : Position) (first : DictItem) : Reader Expr := do
  let (rest, _) ← afterCommas TokenKind.startsItem (dictItem g)
  expect (.symbol .rbrace)
  return .dict pos (first :: rest)

/-- Whether an element stands here that cannot be a key: one that is unpacked, or an assignment without
parentheses. -/
def startsElement : Reader Bool := do
  match ← peek, ← ahead 1 with
  | .symbol (.op .mul), _ | .name _, .symbol .walrus => return true
  | _, _ => return false

/-- A dictionary display or comprehension behind its first key. -/
def dictFrom (g : Grammar) (pos : Position) (key : Expr) : Reader Expr := do
  expect (.symbol .colon)
  let value ← g.expression
  if (← peek).startsClause then
    let clauses ← comprehensionClauses g
    expect (.symbol .rbrace)
    return .dictComp pos key value clauses
  else dictTail g pos (.pair key value)

/-- A set display or comprehension behind its first element. -/
def setFrom (g : Grammar) (pos : Position) (first : Expr) : Reader Expr := do
  if (← peek).startsClause then
    if first.isStarred then fail
    else
      let clauses ← comprehensionClauses g
      expect (.symbol .rbrace)
      return .setComp pos first clauses
  else
    let (rest, _) ← afterCommas TokenKind.startsStarred (starNamed g)
    expect (.symbol .rbrace)
    return .set pos (first :: rest)

/-- A dictionary or set, as display or comprehension. -/
def braced (g : Grammar) : Reader Expr := do
  let pos ← here
  advance
  match ← peek with
  | .symbol .rbrace =>
    advance
    return .dict pos []
  | .symbol (.op .pow) => dictTail g pos (← dictItem g)
  | _ =>
    let isElement ← startsElement
    let first ← starNamed g
    if !isElement && (← at? (.symbol .colon)) then dictFrom g pos first else setFrom g pos first

/-- Adjacent text literals. -/
def literals (g : Grammar) : Reader Expr := do
  let pos ← here
  let found ← repeatStep (fun found : List TextLiteral => do
    match ← peek with
    | .text literal =>
      advance
      return some (literal :: found)
    | _ => return none) []
  match literalExpr g.field pos found.reverse with
  | some value => return value
  | none => fail

/-- The smallest expressions. -/
def atom (g : Grammar) : Reader Expr := do
  let pos ← here
  let constant (value : Constant) : Reader Expr := do
    advance
    return .constant pos value
  match ← peek with
  | .name id =>
    advance
    return .name pos id
  | .reserved .kwTrue => constant (.bool true)
  | .reserved .kwFalse => constant (.bool false)
  | .reserved .kwNone => constant .none
  | .number value => constant value
  | .text _ => literals g
  | .symbol .ellipsis => constant .ellipsis
  | .symbol .lparen => parenthesized g
  | .symbol .lbracket => bracketed g
  | .symbol .lbrace => braced g
  | _ => fail

/-- An atom with its attributes, subscripts and calls. -/
def primary (g : Grammar) : Reader Expr := do
  let pos ← here
  let first ← atom g
  repeatStep (fun value => do
    let inner ← here
    match ← peek with
    | .symbol .dot =>
      advance
      return some (.attribute pos value (← name))
    | .symbol .lparen =>
      advance
      let (args, keywords) ← arguments g true inner
      return some (.call pos value args keywords)
    | .symbol .lbracket =>
      advance
      let index ← subscriptIndex g
      expect (.symbol .rbracket)
      return some (.subscript pos value index)
    | _ => return none) first

/-- A primary, possibly awaited, and possibly raised to a power. -/
def power (g : Grammar) : Reader Expr := do
  let pos ← here
  let base ←
    if ← accept (.reserved .kwAwait) then do pure (.await pos (← primary g)) else primary g
  if ← accept doubleStarToken then return .binary pos .pow base (← g.factor) else return base

/-- An operand with signs in front. -/
def factor (g : Grammar) : Reader Expr := do
  let pos ← here
  let signed (op : UnaryOp) : Reader Expr := do
    advance
    return .unary pos op (← g.factor)
  match ← peek with
  | .symbol (.op .add) => signed .plus
  | .symbol (.op .sub) => signed .minus
  | .symbol .tilde => signed .invert
  | _ => power g

/-! ## Expressions -/

/-- A function without a name. -/
def lambdaExpression (g : Grammar) : Reader Expr := do
  let pos ← here
  expect (.reserved .kwLambda)
  let params ← parameters g false (.symbol .colon)
  expect (.symbol .colon)
  return .lambda pos params (← g.expression)

/-- The names of functions that look like statements when their arguments have no parentheses. -/
def statementLike : List TokenKind := [.name "print", .name "exec"]

/-- Whether a name stands here that is followed by an expression like a statement by its operands. -/
def startsStatementLike (g : Grammar) : Reader Bool := do
  if statementLike.contains (← peek) && (← ahead 1) != .symbol .lparen then
    let operands ← foresee (do advance; starExpressions g)
    return operands.isSome
  else return false

/-- A whole expression. -/
def expression (g : Grammar) : Reader Expr := do
  let pos ← here
  if g.suspicious && (← startsStatementLike g) then failMisformed
  else if ← at? (.reserved .kwLambda) then lambdaExpression g
  else
    let body ← disjunction g
    if ← accept (.reserved .kwIf) then
      let test ← disjunction g
      expect (.reserved .kwElse)
      return .conditional pos body test (← g.expression)
    else return body

/-- How characters are cut into tokens. -/
abbrev Lexer := List Char → Array Token

/-- The expression of a replacement field: its characters are read between parentheses. -/
def fieldExpression (lexer : Lexer) (g : Grammar) (source : List Char) : Option Expr :=
  match starExpressions g (lexer ('(' :: source ++ [')', '\n'])) 0 with
  | .ok (value, _) => some value
  | .error _ => none

/-- The expression grammar for expressions nested at most as deep as the fuel, with the lexer for what stands
in replacement fields. -/
def grammarWith (lexer : Lexer) (suspicious : Bool) : Nat → Grammar
  | 0 => { suspicious, expression := fail, inversion := fail, factor := fail, primary := fail,
           field := fun _ => none }
  | fuel + 1 =>
    let g := grammarWith lexer suspicious fuel
    { suspicious, expression := expression g, inversion := inversion g, factor := factor g,
      primary := primary g, field := fieldExpression lexer g }

/-- The expression grammar with names as they are written. -/
def grammar (suspicious : Bool) (fuel : Nat) : Grammar := grammarWith tokens suspicious fuel

end PropertyWrapper.Source
