import PropertyWrapper.Lifting.Member
import PropertyWrapper.Model.Declaration

/-!
# Declarations of statements

What a statement declares: the kind follows from the bases and decorators of a class, and its members
from its body.
-/

namespace PropertyWrapper

open Source

/-- Whether a class has a base with one of the given names. -/
def hasBase (bases : List Expr) (names : List String) : Bool :=
  bases.any fun base => refersTo (headName base) names

/-- Whether a definition has a decorator with one of the given names. -/
def isDecorated (decorators : List Expr) (names : List String) : Bool :=
  decorators.any fun decorator => refersTo (referenceName decorator) names

/-- The bases of enumerations. -/
def enumBases : List String := ["Enum", "IntEnum", "StrEnum", "Flag", "IntFlag"]

/-- The kind of a class, decided by its bases before its decorators. -/
def classKind (bases decorators : List Expr) : DeclarationKind :=
  if hasBase bases ["Protocol"] then .protocol
  else if hasBase bases enumBases then .taggedUnion
  else if isDecorated decorators ["actor"] then .referenceActor
  else if isDecorated decorators ["dataclass"] || hasBase bases ["NamedTuple"] then .valueAggregate
  else .referenceClass

/-- The kind of what a statement declares. -/
def classify : Stmt → DeclarationKind
  | .function .. => .function
  | .classDef _ _ bases _ _ decorators => classKind bases decorators
  | _ => .statement

/-- Whether a decorator makes a class frozen. -/
def freezes : Expr → Bool
  | .call _ func _ keywords =>
    refersTo (dottedName func) ["dataclass"] && keywords.any fun keyword =>
      keyword.name = some "frozen"
        && match keyword.value with
          | .constant _ (.bool true) => true
          | _ => false
  | _ => false

/-- Whether the annotated fields of a class cannot be assigned. -/
def isFrozenClass (bases decorators : List Expr) : Bool :=
  hasBase bases ["NamedTuple"] || decorators.any freezes

/-- The name of a definition, or the word for any other statement. -/
def Source.Stmt.name : Stmt → String
  | .function _ _ name .. => name
  | .classDef _ name .. => name
  | .ret .. => "return"
  | .delete .. => "delete"
  | .assign .. => "assign"
  | .augAssign .. => "augassign"
  | .annAssign .. => "annassign"
  | .loop _ isAsync .. => if isAsync then "asyncfor" else "for"
  | .whileLoop .. => "while"
  | .branch .. => "if"
  | .withBlock _ isAsync .. => if isAsync then "asyncwith" else "with"
  | .matchOn .. => "match"
  | .raise .. => "raise"
  | .tryBlock _ isGroup .. => if isGroup then "trystar" else "try"
  | .assert .. => "assert"
  | .imports .. => "import"
  | .importFrom .. => "importfrom"
  | .global .. => "global"
  | .nonlocal .. => "nonlocal"
  | .expr .. => "expr"
  | .pass _ => "pass"
  | .breakLoop _ => "break"
  | .continueLoop _ => "continue"

/-- The members of what a statement declares; only classes have members. -/
def declaredMembers : Stmt → Except PrintError (List Member)
  | .classDef _ _ bases _ body decorators => liftMembers (isFrozenClass bases decorators) body
  | _ => .ok []

/-- What a statement declares. -/
def liftDeclaration (stmt : Stmt) : Except PrintError Declaration := do
  return {
    kind := classify stmt
    name := stmt.name
    members := ← declaredMembers stmt
    line := stmt.line }

end PropertyWrapper
