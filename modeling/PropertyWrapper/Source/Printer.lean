import PropertyWrapper.Source.Literal

/-!
# Printing trees

The text of a tree: one statement a line, blocks indented by four blanks, a blank line above each
definition. Parentheses stand where an expression binds less tightly than its context asks, so that
reading the text gives the tree again. Printing fails in two cases only: when a replacement field of a
formatted literal would need a backslash, and when an integer has too many digits.
-/

namespace PropertyWrapper.Source

open PropertyWrapper.Text

/-! ## Precedence -/

/-- How tightly an expression binds, from loosest to tightest. -/
inductive Precedence where
  | assigned | tuple | yield | test | or | and | not | comparison | bitOr | bitXor | bitAnd | shift
  | sum | term | factor | power | await | atom
deriving DecidableEq, Repr

namespace Precedence

/-- The place of a precedence in the order. -/
def rank : Precedence → Nat
  | assigned => 0 | tuple => 1 | yield => 2 | test => 3 | or => 4 | and => 5 | not => 6
  | comparison => 7 | bitOr => 8 | bitXor => 9 | bitAnd => 10 | shift => 11 | sum => 12
  | term => 13 | factor => 14 | power => 15 | await => 16 | atom => 17

/-- The next tighter precedence; the tightest one is its own successor. -/
def next : Precedence → Precedence
  | assigned => tuple | tuple => yield | yield => test | test => or | or => and | and => not
  | not => comparison | comparison => bitOr | bitOr => bitXor | bitXor => bitAnd
  | bitAnd => shift | shift => sum | sum => term | term => factor | factor => power
  | power => await | await => atom | atom => atom

end Precedence

/-- A text in parentheses when the context binds more tightly than the text does. -/
def enclose (context own : Precedence) (text : String) : String :=
  if own.rank < context.rank then "(" ++ text ++ ")" else text

/-- The text of a unary operator with the blank that has to follow a word. -/
def UnaryOp.text : UnaryOp → String
  | .invert => "~"
  | .not => "not "
  | .plus => "+"
  | .minus => "-"

/-- How tightly a unary operator binds. -/
def UnaryOp.precedence : UnaryOp → Precedence
  | .not => .not
  | _ => .factor

/-- The text of a binary operator. -/
def BinaryOp.text : BinaryOp → String
  | .add => "+" | .sub => "-" | .mul => "*" | .matMul => "@" | .div => "/" | .mod => "%"
  | .pow => "**" | .leftShift => "<<" | .rightShift => ">>" | .bitOr => "|" | .bitXor => "^"
  | .bitAnd => "&" | .floorDiv => "//"

/-- How tightly a binary operator binds. -/
def BinaryOp.precedence : BinaryOp → Precedence
  | .add | .sub => .sum
  | .mul | .matMul | .div | .mod | .floorDiv => .term
  | .pow => .power
  | .leftShift | .rightShift => .shift
  | .bitOr => .bitOr
  | .bitXor => .bitXor
  | .bitAnd => .bitAnd

/-- The contexts of the left and right operand: powers group to the right, all else to the left. -/
def BinaryOp.operandContexts (op : BinaryOp) : Precedence × Precedence :=
  match op with
  | .pow => (op.precedence.next, op.precedence)
  | _ => (op.precedence, op.precedence.next)

/-- The text of a boolean operator. -/
def BoolOp.text : BoolOp → String
  | .and => "and"
  | .or => "or"

/-- How tightly a boolean operator binds. -/
def BoolOp.precedence : BoolOp → Precedence
  | .and => .and
  | .or => .or

/-- The text of a comparison operator. -/
def CompareOp.text : CompareOp → String
  | .eq => "==" | .notEq => "!=" | .lt => "<" | .le => "<=" | .gt => ">" | .ge => ">="
  | .is => "is" | .isNot => "is not" | .isIn => "in" | .notIn => "not in"

/-- The text of a conversion. -/
def Conversion.text : Conversion → String
  | .str => "!s"
  | .repr => "!r"
  | .ascii => "!a"

/-! ## Expressions -/

/-- Why a tree cannot be printed. -/
inductive PrintError where
  /-- A replacement field would hold a backslash. -/
  | backslashInField
  /-- An integer has more digits than can be written. -/
  | tooManyDigits
deriving DecidableEq, Repr

/-- The wording of a print error. -/
def PrintError.message : PrintError → String
  | .backslashInField => "Unable to avoid backslash in f-string expression part"
  | .tooManyDigits => Number.digitLimitMessage none

/-- Texts separated by commas. -/
def commaSeparated (texts : List String) : String := String.intercalate ", " texts

/-- Texts separated by commas, where a single one is followed by a comma too. -/
def tupleItems : List String → String
  | [single] => single ++ ","
  | texts => commaSeparated texts

/-- Literal text inside a formatted literal: braces are doubled. -/
def doubleBraces (text : Points) : Points :=
  text.flatMap fun point => if point = 0x7b || point = 0x7d then [point, point] else [point]

/-- A replacement field around the text of its expression. -/
def fieldPoints (expression : String) (conversion : Option Conversion) (spec : Points) :
    Except PrintError Points :=
  let characters := expression.toList
  if characters.contains backslash then .error .backslashInField
  else
    let gap := if characters.head? = some '\x7b' then " " else ""
    let conversion := (conversion.map Conversion.text).getD ""
    .ok (points ("\x7b" ++ gap ++ expression ++ conversion) ++ spec ++ points "\x7d")

/-- The written form of the parameters in front of a parameter list's closing bracket. -/
def joinParameters (positionalOnly regular : List String) (variadic : Option String)
    (keywordOnly : List String) (keywords : Option String) : String :=
  let slash := if positionalOnly.isEmpty then [] else ["/"]
  let star :=
    match variadic with
    | some text => ["*" ++ text]
    | none => if keywordOnly.isEmpty then [] else ["*"]
  let keywords := (keywords.map fun text => ["**" ++ text]).getD []
  commaSeparated (positionalOnly ++ slash ++ regular ++ star ++ keywordOnly ++ keywords)

mutual

/-- The text of an expression in a context; `inField` says that backslashes are to be avoided. -/
def Expr.print (inField : Bool) (context : Precedence) : Expr → Except PrintError String
  | .name _ id => .ok id
  | .constant _ value =>
    if value.isTooLong then .error .tooManyDigits else .ok (value.text inField)
  | .formatted _ parts => do
    let texts ← printParts parts
    return "f" ++
      if inField then flexiblyQuoted allQuotes (texts.flatMap Prod.fst) else quotedParts texts
  | .attribute _ value attr => do
    let base ← value.print inField .atom
    let gap :=
      match value with
      | .constant _ constant => if constant.isIntegral then " " else ""
      | _ => ""
    return base ++ gap ++ "." ++ attr
  | .subscript _ value (.tuple _ (first :: rest)) => do
    let base ← value.print inField .atom
    let first ← first.print inField .test
    let rest ← printAll inField .test rest
    return base ++ "[" ++ tupleItems (first :: rest) ++ "]"
  | .subscript _ value index => do
    return (← value.print inField .atom) ++ "[" ++ (← index.print inField .test) ++ "]"
  | .call _ func args keywords => do
    let base ← func.print inField .atom
    let args ← printAll inField .test args
    let keywords ← printKeywords inField keywords
    return base ++ "(" ++ commaSeparated (args ++ keywords) ++ ")"
  | .starred _ value => do return "*" ++ (← value.print inField .bitOr)
  | .slice _ lower upper step => do
    let lower ← printOption inField "" lower
    let upper ← printOption inField ":" upper
    let step ← printOption inField ":" step
    return lower ++ (if upper.isEmpty then ":" else upper) ++ step
  | .tuple _ [] => .ok "()"
  | .tuple _ (first :: rest) => do
    let first ← first.print inField .test
    let rest ← printAll inField .test rest
    return enclose context .tuple (tupleItems (first :: rest))
  | .list _ elements => do
    return "[" ++ commaSeparated (← printAll inField .test elements) ++ "]"
  | .set _ elements => do
    let texts ← printAll inField .test elements
    return if texts.isEmpty then "\x7b*()\x7d" else "\x7b" ++ commaSeparated texts ++ "\x7d"
  | .dict _ items => do
    return "\x7b" ++ commaSeparated (← printItems inField items) ++ "\x7d"
  | .listComp _ element clauses => do
    return "[" ++ (← element.print inField .test) ++ (← printClauses inField clauses) ++ "]"
  | .setComp _ element clauses => do
    return "\x7b" ++ (← element.print inField .test) ++ (← printClauses inField clauses) ++ "\x7d"
  | .generator _ element clauses => do
    return "(" ++ (← element.print inField .test) ++ (← printClauses inField clauses) ++ ")"
  | .dictComp _ key value clauses => do
    let key ← key.print inField .test
    let value ← value.print inField .test
    return "\x7b" ++ key ++ ": " ++ value ++ (← printClauses inField clauses) ++ "\x7d"
  | .unary _ op operand => do
    return enclose context op.precedence (op.text ++ (← operand.print inField op.precedence))
  | .binary _ op left right => do
    let left ← left.print inField op.operandContexts.1
    let right ← right.print inField op.operandContexts.2
    return enclose context op.precedence (left ++ " " ++ op.text ++ " " ++ right)
  | .boolean _ op operands => do
    let texts ← printOperands inField op.precedence operands
    return enclose context op.precedence (String.intercalate (" " ++ op.text ++ " ") texts)
  | .compare _ left rest => do
    let left ← left.print inField .bitOr
    return enclose context .comparison (left ++ (← printSteps inField rest))
  | .conditional _ body test orelse => do
    let body ← body.print inField .or
    let test ← test.print inField .or
    let orelse ← orelse.print inField .test
    return enclose context .test (body ++ " if " ++ test ++ " else " ++ orelse)
  | .lambda _ params body => do
    let params ← params.print inField
    let gap := if params.isEmpty then "" else " "
    return enclose context .test ("lambda" ++ gap ++ params ++ ": " ++ (← body.print inField .test))
  | .assigned _ target value => do
    let target ← target.print inField .atom
    return enclose context .assigned (target ++ " := " ++ (← value.print inField .atom))
  | .await _ value => do
    return enclose context .await ("await " ++ (← value.print inField .atom))
  | .yield _ none => .ok (enclose context .yield "yield")
  | .yield _ (some value) => do
    return enclose context .yield ("yield " ++ (← value.print inField .atom))
  | .yieldFrom _ value => do
    return enclose context .yield ("yield from " ++ (← value.print inField .atom))

/-- The texts of expressions in one context. -/
def printAll (inField : Bool) (context : Precedence) : List Expr → Except PrintError (List String)
  | [] => .ok []
  | first :: rest => do
    let first ← first.print inField context
    return first :: (← printAll inField context rest)

/-- The texts of the operands of a boolean operator: the context rises by one with each operand. -/
def printOperands (inField : Bool) (context : Precedence) :
    List Expr → Except PrintError (List String)
  | [] => .ok []
  | first :: rest => do
    let first ← first.print inField context.next
    return first :: (← printOperands inField context.next rest)

/-- The text of an optional expression after some lead; empty when it is absent. -/
def printOption (inField : Bool) (lead : String) : Option Expr → Except PrintError String
  | none => .ok ""
  | some value => do return lead ++ (← value.print inField .test)

/-- The text of a part of a formatted literal, and whether it is literal text. -/
def FormatPart.print : FormatPart → Except PrintError (Points × Bool)
  | .text value => .ok (doubleBraces value, true)
  | .field value conversion none => do
    return (← fieldPoints (← value.print true .or) conversion [], false)
  | .field value conversion (some spec) => do
    let value ← value.print true .or
    let spec ← printParts spec
    return (← fieldPoints value conversion (0x3a :: spec.flatMap Prod.fst), false)

/-- The texts of the parts of a formatted literal. -/
def printParts : List FormatPart → Except PrintError (List (Points × Bool))
  | [] => .ok []
  | first :: rest => do
    let first ← first.print
    return first :: (← printParts rest)

/-- The text of a named argument or an unpacked mapping. -/
def Keyword.print (inField : Bool) : Keyword → Except PrintError String
  | .mk _ none value => do return "**" ++ (← value.print inField .test)
  | .mk _ (some name) value => do return name ++ "=" ++ (← value.print inField .test)

/-- The texts of named arguments. -/
def printKeywords (inField : Bool) : List Keyword → Except PrintError (List String)
  | [] => .ok []
  | first :: rest => do
    let first ← first.print inField
    return first :: (← printKeywords inField rest)

/-- The text of an item of a dictionary. -/
def DictItem.print (inField : Bool) : DictItem → Except PrintError String
  | .pair key value => do
    return (← key.print inField .test) ++ ": " ++ (← value.print inField .test)
  | .unpack value => do return "**" ++ (← value.print inField .bitOr)

/-- The texts of the items of a dictionary. -/
def printItems (inField : Bool) : List DictItem → Except PrintError (List String)
  | [] => .ok []
  | first :: rest => do
    let first ← first.print inField
    return first :: (← printItems inField rest)

/-- The text of a clause of a comprehension. -/
def Comprehension.print (inField : Bool) : Comprehension → Except PrintError String
  | .mk isAsync target iterable conditions => do
    let lead := if isAsync then " async for " else " for "
    let target ← target.print inField .tuple
    let iterable ← iterable.print inField .or
    let conditions ← printAll inField .or conditions
    return lead ++ target ++ " in " ++ iterable ++ String.join (conditions.map (" if " ++ ·))

/-- The text of the clauses of a comprehension. -/
def printClauses (inField : Bool) : List Comprehension → Except PrintError String
  | [] => .ok ""
  | first :: rest => do return (← first.print inField) ++ (← printClauses inField rest)

/-- The text of an operator of a comparison with its right operand. -/
def CompareStep.print (inField : Bool) : CompareStep → Except PrintError String
  | .mk op operand => do return " " ++ op.text ++ " " ++ (← operand.print inField .bitOr)

/-- The text of the steps of a comparison. -/
def printSteps (inField : Bool) : List CompareStep → Except PrintError String
  | [] => .ok ""
  | first :: rest => do return (← first.print inField) ++ (← printSteps inField rest)

/-- The text of a parameter. -/
def Parameter.print (inField : Bool) : Parameter → Except PrintError String
  | .mk name hint default => do
    return name ++ (← printOption inField ": " hint) ++ (← printOption inField "=" default)

/-- The texts of parameters. -/
def printParameters (inField : Bool) : List Parameter → Except PrintError (List String)
  | [] => .ok []
  | first :: rest => do
    let first ← first.print inField
    return first :: (← printParameters inField rest)

/-- The text of an optional parameter. -/
def printParameter? (inField : Bool) : Option Parameter → Except PrintError (Option String)
  | none => .ok none
  | some param => do return some (← param.print inField)

/-- The text of a parameter list. -/
def Parameters.print (inField : Bool) : Parameters → Except PrintError String
  | .mk positionalOnly regular variadic keywordOnly keywords => do
    let positionalOnly ← printParameters inField positionalOnly
    let regular ← printParameters inField regular
    let variadic ← printParameter? inField variadic
    let keywordOnly ← printParameters inField keywordOnly
    let keywords ← printParameter? inField keywords
    return joinParameters positionalOnly regular variadic keywordOnly keywords

end

/-- The text of an expression that stands on its own. -/
def Expr.text (e : Expr) : Except PrintError String := e.print false .test

/-! ## Patterns -/

mutual

/-- The text of a pattern in a context. -/
def Pattern.print (context : Precedence) : Pattern → Except PrintError String
  | .value value => value.text
  | .singleton value => .ok (value.text false)
  | .sequence patterns => do return "[" ++ commaSeparated (← printPatterns .test patterns) ++ "]"
  | .mapping keys patterns rest => do
    let keys ← printAll false .test keys
    let patterns ← printPatterns .test patterns
    let pairs := (keys.zip patterns).map fun (key, pattern) => key ++ ": " ++ pattern
    return "\x7b" ++ commaSeparated (pairs ++ (rest.map ("**" ++ ·)).toList) ++ "\x7d"
  | .constructor cls positional names named => do
    let cls ← cls.print false .atom
    let positional ← printPatterns .test positional
    let named ← printPatterns .test named
    let pairs := (names.zip named).map fun (name, pattern) => name ++ "=" ++ pattern
    return cls ++ "(" ++ commaSeparated (positional ++ pairs) ++ ")"
  | .star name => .ok ("*" ++ name.getD "_")
  | .bind _ none => .ok "_"
  | .bind none (some name) => .ok name
  | .bind (some pattern) (some name) => do
    return enclose context .test ((← pattern.print .bitOr) ++ " as " ++ name)
  | .or alternatives => do
    let texts ← printPatterns .bitXor alternatives
    return enclose context .bitOr (String.intercalate " | " texts)

/-- The texts of patterns in one context. -/
def printPatterns (context : Precedence) : List Pattern → Except PrintError (List String)
  | [] => .ok []
  | first :: rest => do
    let first ← first.print context
    return first :: (← printPatterns context rest)

end

/-! ## Statements -/

/-- A line of text at a depth of indentation. -/
def indented (depth : Nat) (text : String) : String :=
  String.ofList (List.replicate (4 * depth) ' ') ++ text

/-- The text of an imported name. -/
def ImportAlias.text (binding : ImportAlias) : String :=
  match binding.boundTo with
  | none => binding.name
  | some name => binding.name ++ " as " ++ name

/-- The text of a context manager with its target. -/
def WithItem.print (item : WithItem) : Except PrintError String := do
  return (← item.manager.text) ++ (← printOption false " as " item.target)

/-- The lines of the decorators of a definition. -/
def decoratorLines (depth : Nat) (decorators : List Expr) : Except PrintError (List String) := do
  return (← printAll false .test decorators).map fun text => indented depth ("@" ++ text)

/-- The line of a documentation text. -/
def documentationLine (depth : Nat) (marked : Bool) (text : Points) : String :=
  indented depth (textMark marked ++ flexiblyQuoted tripleQuotes text)

/-- The targets of an assignment, each followed by its sign. -/
def assignmentTargets (targets : List Expr) : Except PrintError String := do
  return String.join ((← printAll false .tuple targets).map (· ++ " = "))

mutual

/-- The lines of a statement at a depth of indentation. A definition starts with a blank line. -/
def Stmt.lines (depth : Nat) : Stmt → Except PrintError (List String)
  | .function _ isAsync name params body decorators returns => do
    let decorators ← decoratorLines depth decorators
    let lead := if isAsync then "async def " else "def "
    let params ← params.print false
    let returns ← printOption false " -> " returns
    let body ← definitionLines (depth + 1) body
    return "" :: decorators
      ++ indented depth (lead ++ name ++ "(" ++ params ++ ")" ++ returns ++ ":") :: body
  | .classDef _ name bases keywords body decorators => do
    let decorators ← decoratorLines depth decorators
    let bases ← printAll false .test bases
    let keywords ← printKeywords false keywords
    let args := bases ++ keywords
    let args := if args.isEmpty then "" else "(" ++ commaSeparated args ++ ")"
    let body ← definitionLines (depth + 1) body
    return "" :: decorators ++ indented depth ("class " ++ name ++ args ++ ":") :: body
  | .ret _ value => do return [indented depth ("return" ++ (← printOption false " " value))]
  | .delete _ targets => do
    return [indented depth ("del " ++ commaSeparated (← printAll false .test targets))]
  | .assign _ targets value => do
    return [indented depth ((← assignmentTargets targets) ++ (← value.text))]
  | .augAssign _ target op value => do
    return [indented depth ((← target.text) ++ " " ++ op.text ++ "= " ++ (← value.text))]
  | .annAssign _ target hint value bare => do
    let text ← target.text
    let text :=
      match target with
      | .name .. => if bare then text else "(" ++ text ++ ")"
      | _ => text
    let hint ← hint.text
    return [indented depth (text ++ ": " ++ hint ++ (← printOption false " = " value))]
  | .loop _ isAsync target iterable body orelse => do
    let lead := if isAsync then "async for " else "for "
    let target ← target.print false .tuple
    let iterable ← iterable.text
    let body ← blockLines (depth + 1) body
    return indented depth (lead ++ target ++ " in " ++ iterable ++ ":") :: body
      ++ (← sectionLines depth "else:" orelse)
  | .whileLoop _ test body orelse => do
    let test ← test.text
    let body ← blockLines (depth + 1) body
    return indented depth ("while " ++ test ++ ":") :: body ++ (← sectionLines depth "else:" orelse)
  | .branch _ test body orelse => do
    let test ← test.text
    let body ← blockLines (depth + 1) body
    return indented depth ("if " ++ test ++ ":") :: body ++ (← alternativeLines depth orelse)
  | .withBlock _ isAsync items body => do
    let lead := if isAsync then "async with " else "with "
    let items ← items.mapM WithItem.print
    return indented depth (lead ++ commaSeparated items ++ ":") :: (← blockLines (depth + 1) body)
  | .matchOn _ subject cases => do
    return indented depth ("match " ++ (← subject.text) ++ ":") :: (← caseLines (depth + 1) cases)
  | .raise _ exception cause => do
    let exception ← printOption false " " exception
    return [indented depth ("raise" ++ exception ++ (← printOption false " from " cause))]
  | .tryBlock _ isGroup body handlers orelse final => do
    let body ← blockLines (depth + 1) body
    let handlers ← handlerLines depth isGroup handlers
    let orelse ← sectionLines depth "else:" orelse
    return indented depth "try:" :: body ++ handlers ++ orelse
      ++ (← sectionLines depth "finally:" final)
  | .assert _ test message => do
    let test ← test.text
    return [indented depth ("assert " ++ test ++ (← printOption false ", " message))]
  | .imports _ names =>
    .ok [indented depth ("import " ++ commaSeparated (names.map ImportAlias.text))]
  | .importFrom _ level module names =>
    let dots := String.ofList (List.replicate level '.')
    .ok [indented depth ("from " ++ dots ++ module.getD "" ++ " import "
      ++ commaSeparated (names.map ImportAlias.text))]
  | .global _ names => .ok [indented depth ("global " ++ commaSeparated names)]
  | .nonlocal _ names => .ok [indented depth ("nonlocal " ++ commaSeparated names)]
  | .expr _ value => do return [indented depth (← value.print false .yield)]
  | .pass _ => .ok [indented depth "pass"]
  | .breakLoop _ => .ok [indented depth "break"]
  | .continueLoop _ => .ok [indented depth "continue"]

/-- The lines of a block. -/
def blockLines (depth : Nat) : List Stmt → Except PrintError (List String)
  | [] => .ok []
  | first :: rest => do
    let first ← first.lines depth
    return first ++ (← blockLines depth rest)

/-- The lines of the body of a module or definition, which may start with a documentation text. -/
def definitionLines (depth : Nat) : List Stmt → Except PrintError (List String)
  | [] => .ok []
  | .expr _ (.constant _ (.str marked text)) :: rest => do
    return documentationLine depth marked text :: (← blockLines depth rest)
  | first :: rest => do
    let first ← first.lines depth
    return first ++ (← blockLines depth rest)

/-- The lines of a section of a compound statement, which is left out when it is empty. -/
def sectionLines (depth : Nat) (title : String) : List Stmt → Except PrintError (List String)
  | [] => .ok []
  | first :: rest => do
    let first ← first.lines (depth + 1)
    return indented depth title :: first ++ (← blockLines (depth + 1) rest)

/-- The lines of the other branch of a conditional, where a lone conditional continues the chain. -/
def alternativeLines (depth : Nat) : List Stmt → Except PrintError (List String)
  | [] => .ok []
  | [.branch _ test body orelse] => do
    let test ← test.text
    let body ← blockLines (depth + 1) body
    return indented depth ("elif " ++ test ++ ":") :: body ++ (← alternativeLines depth orelse)
  | first :: rest => do
    let first ← first.lines (depth + 1)
    return indented depth "else:" :: first ++ (← blockLines (depth + 1) rest)

/-- The lines of a handler. -/
def Handler.lines (depth : Nat) (isGroup : Bool) : Handler → Except PrintError (List String)
  | .mk exception name body => do
    let exception ← printOption false " " exception
    let name := (name.map (" as " ++ ·)).getD ""
    let lead := if isGroup then "except*" else "except"
    return indented depth (lead ++ exception ++ name ++ ":") :: (← blockLines (depth + 1) body)

/-- The lines of the handlers of a `try`. -/
def handlerLines (depth : Nat) (isGroup : Bool) : List Handler → Except PrintError (List String)
  | [] => .ok []
  | first :: rest => do
    let first ← first.lines depth isGroup
    return first ++ (← handlerLines depth isGroup rest)

/-- The lines of a case. -/
def MatchCase.lines (depth : Nat) : MatchCase → Except PrintError (List String)
  | .mk pattern guard body => do
    let pattern ← pattern.print .test
    let guard ← printOption false " if " guard
    return indented depth ("case " ++ pattern ++ guard ++ ":") :: (← blockLines (depth + 1) body)

/-- The lines of the cases of a `match`. -/
def caseLines (depth : Nat) : List MatchCase → Except PrintError (List String)
  | [] => .ok []
  | first :: rest => do
    let first ← first.lines depth
    return first ++ (← caseLines depth rest)

end

/-- The text of a module without a final line feed; the blank line above a leading definition is left
out. -/
def printModule (body : List Stmt) : Except PrintError String := do
  match ← definitionLines 0 body with
  | "" :: lines => return String.intercalate "\n" lines
  | lines => return String.intercalate "\n" lines

end PropertyWrapper.Source
