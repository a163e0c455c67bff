import PropertyWrapper.Model.Member

/-!
# Declarations

The definition or statement that an attribute is attached to.
-/

namespace PropertyWrapper

/-- What kind of thing a statement declares. -/
inductive DeclarationKind where
  /-- A type whose values are copied. -/
  | valueAggregate
  /-- A plain class. -/
  | referenceClass
  /-- A class with serialized access. -/
  | referenceActor
  /-- An enumeration. -/
  | taggedUnion
  | protocol
  | function
  /-- Any statement that is not a definition. -/
  | statement
deriving DecidableEq, Repr

namespace DeclarationKind

/-- The word for a kind. -/
def word : DeclarationKind → String
  | .valueAggregate => "value-aggregate"
  | .referenceClass => "reference-class"
  | .referenceActor => "reference-actor"
  | .taggedUnion => "tagged-union"
  | .protocol => "protocol"
  | .function => "function"
  | .statement => "statement"

/-- Whether a declaration of this kind can be a wrapper type. -/
def isSupported : DeclarationKind → Bool
  | .valueAggregate | .referenceClass | .referenceActor | .taggedUnion => true
  | .protocol | .function | .statement => false

/-- Whether values of this kind are shared rather than copied. -/
def isReference : DeclarationKind → Bool
  | .referenceClass | .referenceActor => true
  | _ => false

end DeclarationKind

/-- A declaration with its members in order. -/
structure Declaration where
  kind : DeclarationKind
  name : String
  members : List Member := []
  line : Int := 0
deriving DecidableEq, Repr

/-- What an attribute is attached to. -/
inductive Target where
  | member (member : Member)
  | declaration (declaration : Declaration)
deriving DecidableEq, Repr

namespace Target

/-- The name under which a target is reported. -/
def displayName : Target → String
  | .member field => field.displayName
  | .declaration definition => definition.name

/-- The member and its name, if a target is a member bound to one plain name. -/
def single? : Target → Option (Member × String)
  | .member field =>
    match field.patterns with
    | [.identifier name] => some (field, name)
    | _ => none
  | .declaration _ => none

end Target

end PropertyWrapper
