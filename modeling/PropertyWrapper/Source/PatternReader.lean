import PropertyWrapper.Source.ExprReader

/-!
# Reading match patterns

The patterns of a `case`. A pattern is recursive only through whole patterns, whose reader is a
parameter of the readers here; `pattern` ties the knot.
-/

namespace PropertyWrapper.Source

open Reader

/-! ## Literal patterns -/

/-- Whether a constant is an imaginary number. -/
def Constant.isImaginary : Constant → Bool
  | .imaginary _ => true
  | _ => false

/-- A number constant. -/
def numberConstant : Reader Constant := do
  match ← peek with
  | .number value =>
    advance
    return value
  | _ => fail

/-- A number with an optional minus sign, or the sum or difference of a real and an imaginary one. -/
def signedNumber : Reader Expr := do
  let pos ← here
  let negative ← accept (.symbol (.op .sub))
  let inner ← here
  let value ← numberConstant
  let left : Expr :=
    if negative then .unary pos .minus (.constant inner value) else .constant pos value
  match ← peek with
  | .symbol (.op op) =>
    if op = .add || op = .sub then
      advance
      let second ← here
      let other ← numberConstant
      if value.isImaginary || !other.isImaginary then fail
      else return .binary pos op left (.constant second other)
    else return left
  | _ => return left

/-- Names joined by points. -/
def dottedExpr : Reader Expr := do
  let pos ← here
  let first ← name
  repeatStep (fun value => do
    if ← accept (.symbol .dot) then return some (.attribute pos value (← name))
    else return none) (.name pos first)

/-- A key of a mapping pattern: a literal or an attribute. -/
def mappingKey (g : Grammar) : Reader Expr := do
  let pos ← here
  let constant (value : Constant) : Reader Expr := do
    advance
    return .constant pos value
  match ← peek with
  | .number _ | .symbol (.op .sub) => signedNumber
  | .text _ => literals g
  | .reserved .kwNone => constant .none
  | .reserved .kwTrue => constant (.bool true)
  | .reserved .kwFalse => constant (.bool false)
  | _ =>
    match ← dottedExpr with
    | .attribute pos value attr => return .attribute pos value attr
    | _ => fail

/-! ## Compound patterns -/

/-- The name that a pattern captures: not the wildcard, and not the start of another pattern. -/
def captureName : Reader String := do
  match ← peek, ← ahead 1 with
  | .name "_", _ | _, .symbol .dot | _, .symbol .lparen | _, .symbol .assign => fail
  | _, _ => name

/-- Whether a token starts a pattern. -/
def TokenKind.startsPattern (kind : TokenKind) : Bool :=
  match kind with
  | .name _ | .number _ | .text _ | .symbol (.op .sub) | .symbol .lparen | .symbol .lbracket
  | .symbol .lbrace | .reserved .kwNone | .reserved .kwTrue | .reserved .kwFalse => true
  | _ => false

/-- Whether a token starts a pattern inside a sequence. -/
def TokenKind.startsItemPattern (kind : TokenKind) : Bool :=
  kind = starToken || kind.startsPattern

/-- A pattern inside a sequence, which may take the remaining items. -/
def itemPattern (whole : Reader Pattern) : Reader Pattern := do
  if ← accept starToken then
    match ← peek with
    | .name "_" =>
      advance
      return .star none
    | _ => return .star (some (← captureName))
  else whole

/-- Whether a pattern takes the remaining items of a sequence. -/
def Pattern.isStar : Pattern → Bool
  | .star _ => true
  | _ => false

/-- A sequence pattern, or a single pattern when there is no comma. -/
def openSequence (whole : Reader Pattern) : Reader Pattern := do
  let first ← itemPattern whole
  let (rest, comma) ← afterCommas TokenKind.startsItemPattern (itemPattern whole)
  if comma then return .sequence (first :: rest)
  else if first.isStar then fail
  else return first

/-- The items of a mapping pattern behind its opening brace. -/
def mappingPattern (g : Grammar) (whole : Reader Pattern) : Reader Pattern := do
  let (keys, patterns, rest) ← repeatStep
    (fun (state : List Expr × List Pattern × Option String) => do
      let (keys, patterns, rest) := state
      if ← at? (.symbol .rbrace) then return none
      else if rest.isSome then fail
      else
        let state ←
          if ← accept doubleStarToken then do pure (keys, patterns, some (← captureName))
          else do
            let key ← mappingKey g
            expect (.symbol .colon)
            let pattern ← whole
            pure (keys ++ [key], patterns ++ [pattern], none)
        if ← accept (.symbol .comma) then return some state
        else if ← at? (.symbol .rbrace) then return some state
        else fail) ([], [], none)
  expect (.symbol .rbrace)
  return .mapping keys patterns rest

/-- The arguments of a class pattern behind its opening parenthesis. -/
def constructorPattern (whole : Reader Pattern) (cls : Expr) : Reader Pattern := do
  let (positional, names, named) ← repeatStep
    (fun (state : List Pattern × List String × List Pattern) => do
      let (positional, names, named) := state
      if ← at? (.symbol .rparen) then return none
      else
        let state ←
          match ← peek, ← ahead 1 with
          | .name id, .symbol .assign => do
            advance
            advance
            let pattern ← whole
            pure (positional, names ++ [id], named ++ [pattern])
          | _, _ => do
            if names.isEmpty then
              let pattern ← whole
              pure (positional ++ [pattern], names, named)
            else fail
        if ← accept (.symbol .comma) then return some state
        else if ← at? (.symbol .rparen) then return some state
        else fail) ([], [], [])
  expect (.symbol .rparen)
  return .constructor cls positional names named

/-- A pattern that needs no parentheses inside an alternative. -/
def closedPattern (g : Grammar) (whole : Reader Pattern) : Reader Pattern := do
  let singleton (value : Constant) : Reader Pattern := do
    advance
    return .singleton value
  match ← peek, ← ahead 1 with
  | .number _, _ | .symbol (.op .sub), _ => return .value (← signedNumber)
  | .text _, _ => return .value (← literals g)
  | .reserved .kwNone, _ => singleton .none
  | .reserved .kwTrue, _ => singleton (.bool true)
  | .reserved .kwFalse, _ => singleton (.bool false)
  | .name "_", _ =>
    advance
    return .bind none none
  | .name _, .symbol .dot | .name _, .symbol .lparen =>
    let value ← dottedExpr
    match ← peek with
    | .symbol .lparen =>
      advance
      constructorPattern whole value
    | .symbol .assign => fail
    | _ => return .value value
  | .name _, _ => return .bind none (some (← captureName))
  | .symbol .lparen, _ =>
    advance
    if ← accept (.symbol .rparen) then return .sequence []
    else
      let value ← openSequence whole
      expect (.symbol .rparen)
      return value
  | .symbol .lbracket, _ =>
    advance
    let items ← commaList TokenKind.startsItemPattern (itemPattern whole)
    expect (.symbol .rbracket)
    return .sequence items
  | .symbol .lbrace, _ =>
    advance
    mappingPattern g whole
  | _, _ => fail

/-- Alternatives, possibly bound to a name. -/
def wholePattern (g : Grammar) (whole : Reader Pattern) : Reader Pattern := do
  let alternatives ← separatedBy (.symbol (.op .bitOr)) (closedPattern g whole)
  let value :=
    match alternatives with
    | [single] => single
    | alternatives => .or alternatives
  if ← accept (.reserved .kwAs) then return .bind (some value) (some (← captureName))
  else return value

/-- A pattern nested at most as deep as the fuel. -/
def pattern (g : Grammar) : Nat → Reader Pattern
  | 0 => fail
  | fuel + 1 => wholePattern g (pattern g fuel)

/-- The pattern of a case, which may be a sequence without brackets. -/
def casePattern (g : Grammar) (fuel : Nat) : Reader Pattern := openSequence (pattern g fuel)

end PropertyWrapper.Source
