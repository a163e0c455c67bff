import PropertyWrapper.Source.Tree

/-!
# References

A decorator or a metadata entry refers to something by a name or by a chain of attribute accesses on a
name, with or without a call around it.
-/

namespace PropertyWrapper

open Source

/-- The components of a chain of attribute accesses on a name, joined by dots. -/
def dottedName : Expr → Option String
  | .name _ id => some id
  | .attribute _ value attr => (dottedName value).map fun base => base ++ "." ++ attr
  | _ => none

/-- The name that a decorator or metadata entry refers to, with or without a call. -/
def referenceName : Expr → Option String
  | .call _ func _ _ => dottedName func
  | e => dottedName e

/-- The name of a base or a type, with or without type arguments. -/
def headName : Expr → Option String
  | .subscript _ value _ => dottedName value
  | e => dottedName e

/-- What stands behind the last dot of a name. -/
def lastComponent (name : String) : String :=
  String.ofList (name.toList.reverse.takeWhile (· ≠ '.')).reverse

/-- What stands before the last dot of a name; nothing if there is no dot. -/
def qualifier (name : String) : String :=
  String.ofList ((name.toList.reverse.dropWhile (· ≠ '.')).drop 1).reverse

/-- Whether there is a name and its last component is one of a list. -/
def refersTo (name : Option String) (components : List String) : Bool :=
  name.any fun name => components.contains (lastComponent name)

end PropertyWrapper
