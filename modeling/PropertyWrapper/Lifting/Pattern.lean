import PropertyWrapper.Model.Member
import PropertyWrapper.Source.Printer

/-!
# Binding patterns of targets

A target that is a plain name binds that name. Of any other target the names that occur in it are
listed level by level: a name closer to the root of the tree comes first, and names of one level come
in source order.
-/

namespace PropertyWrapper

open Source

/-! ## Names by level -/

/-- The names that occur in a tree, one list for each distance from its root. -/
abbrev Levels := List (List String)

/-- The levels of two trees side by side. -/
def Levels.beside : Levels → Levels → Levels
  | [], right => right
  | left, [] => left
  | names :: left, names' :: right => (names ++ names') :: beside left right

/-- The levels of a tree whose root holds no name. -/
def Levels.below (children : Levels) : Levels := [] :: children

mutual

/-- The names of an expression by level. -/
def Source.Expr.levels : Expr → Levels
  | .name _ id => [[id]]
  | .constant .. => []
  | .formatted _ parts => (partLevels parts).below
  | .attribute _ value _ => value.levels.below
  | .subscript _ value index => (value.levels.beside index.levels).below
  | .call _ func args keywords =>
    (func.levels.beside ((allLevels args).beside (keywordLevels keywords))).below
  | .starred _ value => value.levels.below
  | .slice _ lower upper step =>
    ((optionLevels lower).beside ((optionLevels upper).beside (optionLevels step))).below
  | .tuple _ elements => (allLevels elements).below
  | .list _ elements => (allLevels elements).below
  | .set _ elements => (allLevels elements).below
  | .dict _ items => ((keyLevels items).beside (valueLevels items)).below
  | .listComp _ element clauses => (element.levels.beside (clauseLevels clauses)).below
  | .setComp _ element clauses => (element.levels.beside (clauseLevels clauses)).below
  | .generator _ element clauses => (element.levels.beside (clauseLevels clauses)).below
  | .dictComp _ key value clauses =>
    (key.levels.beside (value.levels.beside (clauseLevels clauses))).below
  | .unary _ _ operand => operand.levels.below
  | .binary _ _ left right => (left.levels.beside right.levels).below
  | .boolean _ _ operands => (allLevels operands).below
  | .compare _ left rest => (left.levels.beside (stepLevels rest)).below
  | .conditional _ body test orelse =>
    (test.levels.beside (body.levels.beside orelse.levels)).below
  | .lambda _ params body => (params.levels.below.beside body.levels).below
  | .assigned _ target value => (target.levels.beside value.levels).below
  | .await _ value => value.levels.below
  | .yield _ value => (optionLevels value).below
  | .yieldFrom _ value => value.levels.below

/-- The names of several expressions by level. -/
def allLevels : List Expr → Levels
  | [] => []
  | e :: rest => e.levels.beside (allLevels rest)

/-- The names of an optional expression by level. -/
def optionLevels : Option Expr → Levels
  | none => []
  | some e => e.levels

/-- The names of a part of a formatted string by level. -/
def Source.FormatPart.levels : FormatPart → Levels
  | .text _ => []
  | .field value _ spec => (value.levels.beside (specLevels spec)).below

/-- The names of a format specification by level. -/
def specLevels : Option (List FormatPart) → Levels
  | none => []
  | some parts => (partLevels parts).below

/-- The names of the parts of a formatted string by level. -/
def partLevels : List FormatPart → Levels
  | [] => []
  | part :: rest => part.levels.beside (partLevels rest)

/-- The names of a named argument by level. -/
def Source.Keyword.levels : Keyword → Levels
  | .mk _ _ value => value.levels.below

/-- The names of named arguments by level. -/
def keywordLevels : List Keyword → Levels
  | [] => []
  | keyword :: rest => keyword.levels.beside (keywordLevels rest)

/-- The names of the key of a dictionary item by level. -/
def Source.DictItem.keyLevels : DictItem → Levels
  | .pair key _ => key.levels
  | .unpack _ => []

/-- The names of the keys of a dictionary by level. -/
def keyLevels : List DictItem → Levels
  | [] => []
  | item :: rest => item.keyLevels.beside (keyLevels rest)

/-- The names of the value of a dictionary item by level. -/
def Source.DictItem.valueLevels : DictItem → Levels
  | .pair _ value => value.levels
  | .unpack value => value.levels

/-- The names of the values of a dictionary by level. -/
def valueLevels : List DictItem → Levels
  | [] => []
  | item :: rest => item.valueLevels.beside (valueLevels rest)

/-- The names of a clause of a comprehension by level. -/
def Source.Comprehension.levels : Comprehension → Levels
  | .mk _ target iterable conditions =>
    (target.levels.beside (iterable.levels.beside (allLevels conditions))).below

/-- The names of the clauses of a comprehension by level. -/
def clauseLevels : List Comprehension → Levels
  | [] => []
  | clause :: rest => clause.levels.beside (clauseLevels rest)

/-- The names of a step of a comparison by level. -/
def Source.CompareStep.levels : CompareStep → Levels
  | .mk _ operand => operand.levels

/-- The names of the steps of a comparison by level. -/
def stepLevels : List CompareStep → Levels
  | [] => []
  | step :: rest => step.levels.beside (stepLevels rest)

/-- The names of the default of a parameter by level. -/
def Source.Parameter.levels : Parameter → Levels
  | .mk _ _ value => optionLevels value

/-- The names of the defaults of parameters by level. -/
def parameterLevels : List Parameter → Levels
  | [] => []
  | parameter :: rest => parameter.levels.beside (parameterLevels rest)

/-- The names of the defaults of the parameters of a function without annotations by level: those of
keyword parameters come first. -/
def Source.Parameters.levels : Parameters → Levels
  | .mk positionalOnly regular _ keywordOnly _ =>
    (parameterLevels keywordOnly).beside
      ((parameterLevels positionalOnly).beside (parameterLevels regular))

end

/-! ## Patterns -/

/-- The pattern of a target. An attribute access counts as its last name only. -/
def liftPattern (target : Expr) : Except PrintError BindingPattern :=
  match target with
  | .name _ id => .ok (.identifier id)
  | .attribute _ _ attr => (.destructuring [attr] ·) <$> target.text
  | _ => (.destructuring target.levels.flatten ·) <$> target.text

end PropertyWrapper
