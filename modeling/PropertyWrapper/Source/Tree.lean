import PropertyWrapper.Number.Binary64
import PropertyWrapper.Text.Quoted

/-!
# Trees of Python modules

The expressions, match patterns and statements of Python 3.11. An expression records where it starts
and a statement the line of its first keyword or token; comments, layout and redundant parentheses
are not part of a tree.
-/

namespace PropertyWrapper.Source

open PropertyWrapper.Number PropertyWrapper.Text

/-! ## Positions and operators -/

/-- A place in a source: a line counted from one and a column counted in UTF-8 bytes from zero. -/
structure Position where
  line : Nat
  column : Nat
deriving DecidableEq, Repr, Inhabited

/-- Source order: by line, then by column. -/
def Position.le (a b : Position) : Bool :=
  a.line < b.line || (a.line == b.line && a.column ≤ b.column)

/-- Operators in front of one operand. -/
inductive UnaryOp where
  | invert | not | plus | minus
deriving DecidableEq, Repr

/-- Arithmetic and bitwise operators between two operands. -/
inductive BinaryOp where
  | add | sub | mul | matMul | div | mod | pow | leftShift | rightShift | bitOr | bitXor | bitAnd
  | floorDiv
deriving DecidableEq, Repr

/-- The operators that stop at the first deciding operand. -/
inductive BoolOp where
  | and | or
deriving DecidableEq, Repr

/-- Comparison operators. -/
inductive CompareOp where
  | eq | notEq | lt | le | gt | ge | is | isNot | isIn | notIn
deriving DecidableEq, Repr

/-- How the value of a replacement field is converted before it is formatted. -/
inductive Conversion where
  | str | repr | ascii
deriving DecidableEq, Repr

/-! ## Constants -/

/-- Literal values. -/
inductive Constant where
  | none
  | bool (value : Bool)
  | ellipsis
  | int (value : Nat)
  | float (value : Binary64)
  /-- An imaginary number. -/
  | imaginary (value : Binary64)
  /-- A text, and whether its first literal is marked by a lower-case `u`. -/
  | str (marked : Bool) (value : Points)
  | bytes (value : List Nat)
deriving DecidableEq, Repr, Inhabited

/-! ## Expressions -/

mutual

/-- Expressions, each with the position of its first token. -/
inductive Expr where
  | name (pos : Position) (id : String)
  | constant (pos : Position) (value : Constant)
  /-- A formatted string literal. -/
  | formatted (pos : Position) (parts : List FormatPart)
  | attribute (pos : Position) (value : Expr) (attr : String)
  | subscript (pos : Position) (value index : Expr)
  | call (pos : Position) (func : Expr) (args : List Expr) (keywords : List Keyword)
  | starred (pos : Position) (value : Expr)
  | slice (pos : Position) (lower upper step : Option Expr)
  | tuple (pos : Position) (elements : List Expr)
  | list (pos : Position) (elements : List Expr)
  | set (pos : Position) (elements : List Expr)
  | dict (pos : Position) (items : List DictItem)
  | listComp (pos : Position) (element : Expr) (clauses : List Comprehension)
  | setComp (pos : Position) (element : Expr) (clauses : List Comprehension)
  | generator (pos : Position) (element : Expr) (clauses : List Comprehension)
  | dictComp (pos : Position) (key value : Expr) (clauses : List Comprehension)
  | unary (pos : Position) (op : UnaryOp) (operand : Expr)
  | binary (pos : Position) (op : BinaryOp) (left right : Expr)
  | boolean (pos : Position) (op : BoolOp) (operands : List Expr)
  | compare (pos : Position) (left : Expr) (rest : List CompareStep)
  | conditional (pos : Position) (body test orelse : Expr)
  | lambda (pos : Position) (params : Parameters) (body : Expr)
  /-- An assignment inside an expression. -/
  | assigned (pos : Position) (target value : Expr)
  | await (pos : Position) (value : Expr)
  | yield (pos : Position) (value : Option Expr)
  | yieldFrom (pos : Position) (value : Expr)

/-- The parts of a formatted string literal. -/
inductive FormatPart where
  | text (value : Points)
  | field (value : Expr) (conversion : Option Conversion) (spec : Option (List FormatPart))

/-- A named argument of a call, or an unpacked mapping when it has no name. -/
inductive Keyword where
  | mk (pos : Position) (name : Option String) (value : Expr)

/-- The items of a dictionary display. -/
inductive DictItem where
  | pair (key value : Expr)
  | unpack (value : Expr)

/-- One `for` clause of a comprehension with its conditions. -/
inductive Comprehension where
  | mk (isAsync : Bool) (target iterable : Expr) (conditions : List Expr)

/-- An operator and its right operand in a chain of comparisons. -/
inductive CompareStep where
  | mk (op : CompareOp) (operand : Expr)

/-- A parameter with its optional annotation and default. -/
inductive Parameter where
  | mk (name : String) (hint default : Option Expr)

/-- The parameters of a function. -/
inductive Parameters where
  | mk (positionalOnly regular : List Parameter) (variadic : Option Parameter)
      (keywordOnly : List Parameter) (keywords : Option Parameter)

end

instance : Inhabited Expr := ⟨.name default ""⟩

/-- Where an expression starts. -/
def Expr.pos : Expr → Position
  | .name pos .. | .constant pos .. | .formatted pos .. | .attribute pos .. | .subscript pos ..
  | .call pos .. | .starred pos .. | .slice pos .. | .tuple pos .. | .list pos .. | .set pos ..
  | .dict pos .. | .listComp pos .. | .setComp pos .. | .generator pos .. | .dictComp pos ..
  | .unary pos .. | .binary pos .. | .boolean pos .. | .compare pos .. | .conditional pos ..
  | .lambda pos .. | .assigned pos .. | .await pos .. | .yield pos .. | .yieldFrom pos .. => pos

/-- Where a named argument starts. -/
def Keyword.pos : Keyword → Position
  | .mk pos .. => pos

/-- The name of a named argument. -/
def Keyword.name : Keyword → Option String
  | .mk _ name _ => name

/-- The value of a named argument. -/
def Keyword.value : Keyword → Expr
  | .mk _ _ value => value

/-- The name of a parameter. -/
def Parameter.name : Parameter → String
  | .mk name .. => name

/-- The parameters that a positional argument can reach, in order. -/
def Parameters.positional : Parameters → List Parameter
  | .mk positionalOnly regular .. => positionalOnly ++ regular

/-! ## Match patterns -/

/-- Patterns of a `case`. -/
inductive Pattern where
  | value (value : Expr)
  | singleton (value : Constant)
  | sequence (patterns : List Pattern)
  | mapping (keys : List Expr) (patterns : List Pattern) (rest : Option String)
  | constructor (cls : Expr) (positional : List Pattern) (names : List String)
      (named : List Pattern)
  | star (name : Option String)
  /-- A pattern bound to a name; without a pattern a capture, without a name the wildcard. -/
  | bind (pattern : Option Pattern) (name : Option String)
  | or (alternatives : List Pattern)

/-! ## Statements -/

/-- A name in an import, with the name that it is bound to if that differs. -/
structure ImportAlias where
  name : String
  boundTo : Option String
deriving DecidableEq, Repr

/-- A context manager of a `with` and its optional target. -/
structure WithItem where
  manager : Expr
  target : Option Expr

mutual

/-- Statements, each with the line on which it starts. -/
inductive Stmt where
  | function (line : Nat) (isAsync : Bool) (name : String) (params : Parameters)
      (body : List Stmt) (decorators : List Expr) (returns : Option Expr)
  | classDef (line : Nat) (name : String) (bases : List Expr) (keywords : List Keyword)
      (body : List Stmt) (decorators : List Expr)
  | ret (line : Nat) (value : Option Expr)
  | delete (line : Nat) (targets : List Expr)
  | assign (line : Nat) (targets : List Expr) (value : Expr)
  | augAssign (line : Nat) (target : Expr) (op : BinaryOp) (value : Expr)
  /-- An annotated assignment; `bare` says that the target is a name without parentheses. -/
  | annAssign (line : Nat) (target hint : Expr) (value : Option Expr) (bare : Bool)
  | loop (line : Nat) (isAsync : Bool) (target iterable : Expr) (body orelse : List Stmt)
  | whileLoop (line : Nat) (test : Expr) (body orelse : List Stmt)
  | branch (line : Nat) (test : Expr) (body orelse : List Stmt)
  | withBlock (line : Nat) (isAsync : Bool) (items : List WithItem) (body : List Stmt)
  | matchOn (line : Nat) (subject : Expr) (cases : List MatchCase)
  | raise (line : Nat) (exception cause : Option Expr)
  /-- A `try`; `isGroup` tells `except*` handlers from plain ones. -/
  | tryBlock (line : Nat) (isGroup : Bool) (body : List Stmt) (handlers : List Handler)
      (orelse final : List Stmt)
  | assert (line : Nat) (test : Expr) (message : Option Expr)
  | imports (line : Nat) (names : List ImportAlias)
  | importFrom (line : Nat) (level : Nat) (module : Option String) (names : List ImportAlias)
  | global (line : Nat) (names : List String)
  | nonlocal (line : Nat) (names : List String)
  | expr (line : Nat) (value : Expr)
  | pass (line : Nat)
  | breakLoop (line : Nat)
  | continueLoop (line : Nat)

/-- A handler of a `try`. -/
inductive Handler where
  | mk (exception : Option Expr) (name : Option String) (body : List Stmt)

/-- A case of a `match`. -/
inductive MatchCase where
  | mk (pattern : Pattern) (guard : Option Expr) (body : List Stmt)

end

instance : Inhabited Stmt := ⟨.pass 0⟩

/-- The line on which a statement starts. -/
def Stmt.line : Stmt → Nat
  | .function line .. | .classDef line .. | .ret line .. | .delete line .. | .assign line ..
  | .augAssign line .. | .annAssign line .. | .loop line .. | .whileLoop line .. | .branch line ..
  | .withBlock line .. | .matchOn line .. | .raise line .. | .tryBlock line .. | .assert line ..
  | .imports line .. | .importFrom line .. | .global line .. | .nonlocal line .. | .expr line ..
  | .pass line | .breakLoop line | .continueLoop line => line

/-- The decorators of a definition; other statements have none. -/
def Stmt.decorators : Stmt → List Expr
  | .function _ _ _ _ _ decorators _ | .classDef _ _ _ _ _ decorators => decorators
  | _ => []

end PropertyWrapper.Source
