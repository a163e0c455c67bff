/-!
# Members of a type

A member is one field or computed property of a type definition. What matters about it is which names
it binds, whether it can be assigned, and the texts of its type and of its initial value.
-/

namespace PropertyWrapper

/-! ## Mutability -/

/-- Whether a member can be bound again once it has a value. -/
inductive Binding where
  | immutable
  | mutable
deriving DecidableEq, Repr

/-- The word for a binding. -/
def Binding.word : Binding → String
  | .immutable => "let"
  | .mutable => "var"

/-- What an accessor of a computed property does. -/
inductive AccessorKind where
  | get
  | set
  | delete
deriving DecidableEq, Repr

/-- The word for an accessor kind. -/
def AccessorKind.word : AccessorKind → String
  | .get => "get"
  | .set => "set"
  | .delete => "delete"

/-! ## Binding patterns -/

/-- The left side of an assignment. -/
inductive BindingPattern where
  /-- One plain name. -/
  | identifier (name : String)
  /-- Any other target, with the names that occur in it and its text. -/
  | destructuring (names : List String) (text : String)
deriving DecidableEq, Repr

/-- The name that a pattern binds if it is a plain name. -/
def BindingPattern.identifier? : BindingPattern → Option String
  | .identifier name => some name
  | .destructuring .. => none

/-- The first name that occurs in a pattern. -/
def BindingPattern.firstName? : BindingPattern → Option String
  | .identifier name => some name
  | .destructuring names _ => names.head?

/-! ## Members -/

/-- A field or computed property of a type. -/
structure Member where
  patterns : List BindingPattern
  binding : Binding := .mutable
  /-- The accessors of a computed property; a stored member has no accessor list. -/
  accessors : Option (List AccessorKind) := none
  type : Option String := none
  initializer : Option String := none
  line : Int := 0
deriving DecidableEq, Repr

namespace Member

/-- The plain names that a member binds. -/
def identifiers (member : Member) : List String := member.patterns.filterMap (·.identifier?)

/-- The first name that occurs in the patterns of a member, or an underscore. -/
def displayName (member : Member) : String := (member.patterns.findSome? (·.firstName?)).getD "_"

/-- Whether a member can be assigned: its binding must be mutable, and if it is computed it needs a
setter. -/
def isSettable (member : Member) : Bool :=
  member.binding = .mutable && member.accessors.all (·.contains .set)

end Member

/-- The first member that binds a plain name. -/
def findMember (members : List Member) (name : String) : Option Member :=
  members.find? (·.identifiers.contains name)

end PropertyWrapper
