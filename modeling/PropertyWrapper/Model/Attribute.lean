/-!
# Attributes

An attribute is an annotation on a declaration, written as a name with an optional list of arguments.
-/

namespace PropertyWrapper

/-- One argument of a call. An unpacked sequence or mapping has no label, and its text starts with
one or two stars. -/
structure Argument where
  value : String
  label : Option String := none
deriving DecidableEq, Repr

namespace Argument

/-- The number of stars at the start of an argument's text. -/
def stars (argument : Argument) : Nat := (argument.value.toList.takeWhile (· = '*')).length

/-- Whether an argument is a plain positional one. -/
def isPositional (argument : Argument) : Bool :=
  argument.label.isNone && argument.stars = 0

/-- Whether an argument is named or an unpacked mapping. -/
def isKeyword (argument : Argument) : Bool :=
  argument.label.isSome || 2 ≤ argument.stars

/-- An argument as it stands in a call. -/
def text (argument : Argument) : String :=
  match argument.label with
  | some label => label ++ "=" ++ argument.value
  | none => argument.value

end Argument

/-- The arguments of a call in their order. -/
def argumentList (arguments : List Argument) : String :=
  String.intercalate ", " (arguments.map Argument.text)

/-- An annotation with its arguments in source order and its place. -/
structure Attribute where
  name : String
  arguments : List Argument := []
  line : Int := 0
  column : Int := 0
deriving DecidableEq, Repr

end PropertyWrapper
