import Mathlib
import PropertyWrapper.Lifting.Attribute

/-!
# Trees without places

Two trees of one text differ at most in where their parts stand. A tree without places has all its parts
at one place, so trees of one text are equal without places. What a reference refers to does not depend
on places.

* `Expr.unplaced`, `Stmt.unplaced` : trees without places;
* `referenceName_unplaced` : references are the same without places;
* `decorators_unplaced`, `attributeExprs_unplaced` : the attributes of a statement without places.
-/

namespace PropertyWrapper.Source

/-! ## Expressions -/

/-- The place of all parts of a tree without places. -/
def nowhere : Position := ⟨0, 0⟩

mutual

/-- An expression without places. -/
def Expr.unplaced : Expr → Expr
  | .name _ id => .name nowhere id
  | .constant _ value => .constant nowhere value
  | .formatted _ parts => .formatted nowhere (unplacedParts parts)
  | .attribute _ value attr => .attribute nowhere value.unplaced attr
  | .subscript _ value index => .subscript nowhere value.unplaced index.unplaced
  | .call _ func args keywords =>
    .call nowhere func.unplaced (unplacedAll args) (unplacedKeywords keywords)
  | .starred _ value => .starred nowhere value.unplaced
  | .slice _ lower upper step =>
    .slice nowhere (unplacedOption lower) (unplacedOption upper) (unplacedOption step)
  | .tuple _ elements => .tuple nowhere (unplacedAll elements)
  | .list _ elements => .list nowhere (unplacedAll elements)
  | .set _ elements => .set nowhere (unplacedAll elements)
  | .dict _ items => .dict nowhere (unplacedItems items)
  | .listComp _ element clauses => .listComp nowhere element.unplaced (unplacedClauses clauses)
  | .setComp _ element clauses => .setComp nowhere element.unplaced (unplacedClauses clauses)
  | .generator _ element clauses => .generator nowhere element.unplaced (unplacedClauses clauses)
  | .dictComp _ key value clauses =>
    .dictComp nowhere key.unplaced value.unplaced (unplacedClauses clauses)
  | .unary _ op operand => .unary nowhere op operand.unplaced
  | .binary _ op left right => .binary nowhere op left.unplaced right.unplaced
  | .boolean _ op operands => .boolean nowhere op (unplacedAll operands)
  | .compare _ left rest => .compare nowhere left.unplaced (unplacedSteps rest)
  | .conditional _ body test orelse =>
    .conditional nowhere body.unplaced test.unplaced orelse.unplaced
  | .lambda _ params body => .lambda nowhere params.unplaced body.unplaced
  | .assigned _ target value => .assigned nowhere target.unplaced value.unplaced
  | .await _ value => .await nowhere value.unplaced
  | .yield _ value => .yield nowhere (unplacedOption value)
  | .yieldFrom _ value => .yieldFrom nowhere value.unplaced

/-- Expressions without places. -/
def unplacedAll : List Expr → List Expr
  | [] => []
  | e :: rest => e.unplaced :: unplacedAll rest

/-- An optional expression without places. -/
def unplacedOption : Option Expr → Option Expr
  | none => none
  | some e => some e.unplaced

/-- A part of a formatted literal without places. -/
def FormatPart.unplaced : FormatPart → FormatPart
  | .text value => .text value
  | .field value conversion spec => .field value.unplaced conversion (unplacedSpec spec)

/-- A format without places. -/
def unplacedSpec : Option (List FormatPart) → Option (List FormatPart)
  | none => none
  | some parts => some (unplacedParts parts)

/-- The parts of a formatted literal without places. -/
def unplacedParts : List FormatPart → List FormatPart
  | [] => []
  | part :: rest => part.unplaced :: unplacedParts rest

/-- Named arguments without places. -/
def unplacedKeywords : List Keyword → List Keyword
  | [] => []
  | .mk _ name value :: rest => .mk nowhere name value.unplaced :: unplacedKeywords rest

/-- The items of a dictionary without places. -/
def unplacedItems : List DictItem → List DictItem
  | [] => []
  | .pair key value :: rest => .pair key.unplaced value.unplaced :: unplacedItems rest
  | .unpack value :: rest => .unpack value.unplaced :: unplacedItems rest

/-- The clauses of a comprehension without places. -/
def unplacedClauses : List Comprehension → List Comprehension
  | [] => []
  | .mk isAsync target iterable conditions :: rest =>
    .mk isAsync target.unplaced iterable.unplaced (unplacedAll conditions) :: unplacedClauses rest

/-- The steps of a comparison without places. -/
def unplacedSteps : List CompareStep → List CompareStep
  | [] => []
  | .mk op operand :: rest => .mk op operand.unplaced :: unplacedSteps rest

/-- A parameter without places. -/
def Parameter.unplaced : Parameter → Parameter
  | .mk name hint default => .mk name (unplacedOption hint) (unplacedOption default)

/-- An optional parameter without places. -/
def unplacedParam : Option Parameter → Option Parameter
  | none => none
  | some param => some param.unplaced

/-- Parameters without places. -/
def unplacedParams : List Parameter → List Parameter
  | [] => []
  | param :: rest => param.unplaced :: unplacedParams rest

/-- The parameters of a function without places. -/
def Parameters.unplaced : Parameters → Parameters
  | .mk positionalOnly regular variadic keywordOnly keywords =>
    .mk (unplacedParams positionalOnly) (unplacedParams regular) (unplacedParam variadic)
      (unplacedParams keywordOnly) (unplacedParam keywords)

end

theorem unplacedAll_eq (es : List Expr) : unplacedAll es = es.map Expr.unplaced := by
  induction es with
  | nil => rfl
  | cons e es ih => rw [unplacedAll, ih, List.map_cons]

/-! ## Statements -/

mutual

/-- A pattern without places. -/
def Pattern.unplaced : Pattern → Pattern
  | .value value => .value value.unplaced
  | .singleton value => .singleton value
  | .sequence patterns => .sequence (unplacedPatterns patterns)
  | .mapping keys patterns rest => .mapping (unplacedAll keys) (unplacedPatterns patterns) rest
  | .constructor cls positional names named =>
    .constructor cls.unplaced (unplacedPatterns positional) names (unplacedPatterns named)
  | .star name => .star name
  | .bind pattern name => .bind (unplacedPattern pattern) name
  | .or alternatives => .or (unplacedPatterns alternatives)

/-- An optional pattern without places. -/
def unplacedPattern : Option Pattern → Option Pattern
  | none => none
  | some pattern => some pattern.unplaced

/-- Patterns without places. -/
def unplacedPatterns : List Pattern → List Pattern
  | [] => []
  | pattern :: rest => pattern.unplaced :: unplacedPatterns rest

end

/-- A context manager without places. -/
def WithItem.unplaced (item : WithItem) : WithItem where
  manager := item.manager.unplaced
  target := unplacedOption item.target

mutual

/-- A statement without places. -/
def Stmt.unplaced : Stmt → Stmt
  | .function _ isAsync name params body decorators returns =>
    .function 0 isAsync name params.unplaced (unplacedBody body) (unplacedAll decorators)
      (unplacedOption returns)
  | .classDef _ name bases keywords body decorators =>
    .classDef 0 name (unplacedAll bases) (unplacedKeywords keywords) (unplacedBody body)
      (unplacedAll decorators)
  | .ret _ value => .ret 0 (unplacedOption value)
  | .delete _ targets => .delete 0 (unplacedAll targets)
  | .assign _ targets value => .assign 0 (unplacedAll targets) value.unplaced
  | .augAssign _ target op value => .augAssign 0 target.unplaced op value.unplaced
  | .annAssign _ target hint value bare =>
    .annAssign 0 target.unplaced hint.unplaced (unplacedOption value) bare
  | .loop _ isAsync target iterable body orelse =>
    .loop 0 isAsync target.unplaced iterable.unplaced (unplacedBody body) (unplacedBody orelse)
  | .whileLoop _ test body orelse =>
    .whileLoop 0 test.unplaced (unplacedBody body) (unplacedBody orelse)
  | .branch _ test body orelse => .branch 0 test.unplaced (unplacedBody body) (unplacedBody orelse)
  | .withBlock _ isAsync items body =>
    .withBlock 0 isAsync (items.map WithItem.unplaced) (unplacedBody body)
  | .matchOn _ subject cases => .matchOn 0 subject.unplaced (unplacedCases cases)
  | .raise _ exception cause => .raise 0 (unplacedOption exception) (unplacedOption cause)
  | .tryBlock _ isGroup body handlers orelse final =>
    .tryBlock 0 isGroup (unplacedBody body) (unplacedHandlers handlers) (unplacedBody orelse)
      (unplacedBody final)
  | .assert _ test message => .assert 0 test.unplaced (unplacedOption message)
  | .imports _ names => .imports 0 names
  | .importFrom _ level module names => .importFrom 0 level module names
  | .global _ names => .global 0 names
  | .nonlocal _ names => .nonlocal 0 names
  | .expr _ value => .expr 0 value.unplaced
  | .pass _ => .pass 0
  | .breakLoop _ => .breakLoop 0
  | .continueLoop _ => .continueLoop 0

/-- A block without places. -/
def unplacedBody : List Stmt → List Stmt
  | [] => []
  | stmt :: rest => stmt.unplaced :: unplacedBody rest

/-- The handlers of a `try` without places. -/
def unplacedHandlers : List Handler → List Handler
  | [] => []
  | .mk exception name body :: rest =>
    .mk (unplacedOption exception) name (unplacedBody body) :: unplacedHandlers rest

/-- The cases of a `match` without places. -/
def unplacedCases : List MatchCase → List MatchCase
  | [] => []
  | .mk pattern guard body :: rest =>
    .mk pattern.unplaced (unplacedOption guard) (unplacedBody body) :: unplacedCases rest

end

/-! ## References -/

theorem dottedName_unplaced (e : Expr) :
    PropertyWrapper.dottedName e.unplaced = PropertyWrapper.dottedName e := by
  match e with
  | .attribute _ value attr =>
    rw [Expr.unplaced, PropertyWrapper.dottedName, PropertyWrapper.dottedName,
      dottedName_unplaced value]
  | .name .. => rfl
  | .constant .. | .formatted .. | .subscript .. | .call .. | .starred .. | .slice .. | .tuple ..
  | .list .. | .set .. | .dict .. | .listComp .. | .setComp .. | .generator .. | .dictComp ..
  | .unary .. | .binary .. | .boolean .. | .compare .. | .conditional .. | .lambda ..
  | .assigned .. | .await .. | .yield .. | .yieldFrom .. => rfl

/-- References are the same without places. -/
theorem referenceName_unplaced (e : Expr) : referenceName e.unplaced = referenceName e := by
  match e with
  | .call _ func args keywords => exact dottedName_unplaced func
  | .attribute pos value attr => exact dottedName_unplaced (.attribute pos value attr)
  | .name .. | .constant .. | .formatted .. | .subscript .. | .starred .. | .slice .. | .tuple ..
  | .list .. | .set .. | .dict .. | .listComp .. | .setComp .. | .generator .. | .dictComp ..
  | .unary .. | .binary .. | .boolean .. | .compare .. | .conditional .. | .lambda ..
  | .assigned .. | .await .. | .yield .. | .yieldFrom .. => rfl

theorem decorators_unplaced (stmt : Stmt) :
    stmt.unplaced.decorators = stmt.decorators.map Expr.unplaced := by
  cases stmt with
  | function line isAsync name params body decorators returns => exact unplacedAll_eq decorators
  | classDef line name bases keywords body decorators => exact unplacedAll_eq decorators
  | _ => rfl

theorem metadata_unplaced (hint : Expr) :
    (annotated? hint.unplaced).map (·.metadata)
      = (annotated? hint).map fun parts => parts.metadata.map Expr.unplaced := by
  match hint with
  | .subscript _ head index =>
    cases index with
    | tuple pos elements =>
      match elements with
      | [] => rfl
      | [_] => rfl
      | base :: entry :: entries =>
        simp only [Expr.unplaced, unplacedAll, annotated?, dottedName_unplaced, unplacedAll_eq]
        split <;> rfl
    | _ => rfl
  | .name .. | .constant .. | .formatted .. | .attribute .. | .call .. | .starred .. | .slice ..
  | .tuple .. | .list .. | .set .. | .dict .. | .listComp .. | .setComp .. | .generator ..
  | .dictComp .. | .unary .. | .binary .. | .boolean .. | .compare .. | .conditional .. | .lambda ..
  | .assigned .. | .await .. | .yield .. | .yieldFrom .. => rfl

/-- The attributes of a statement without places. -/
theorem attributeExprs_unplaced (stmt : Stmt) :
    attributeExprs stmt.unplaced = (attributeExprs stmt).map Expr.unplaced := by
  cases stmt with
  | annAssign line target hint value bare =>
    rw [Stmt.unplaced, attributeExprs, attributeExprs, metadata_unplaced]
    cases annotated? hint <;> rfl
  | function line isAsync name params body decorators returns => exact unplacedAll_eq decorators
  | classDef line name bases keywords body decorators => exact unplacedAll_eq decorators
  | _ => rfl

end PropertyWrapper.Source
