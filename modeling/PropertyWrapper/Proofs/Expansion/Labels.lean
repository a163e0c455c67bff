import PropertyWrapper.Proofs.Expansion.Provided
import PropertyWrapper.Proofs.Expansion.Rewritten
import PropertyWrapper.Proofs.Lifting.Arguments

/-!
# Repeated named arguments

A call must not pass two arguments by the same name. Expanding a module in which no call does so leaves
all its calls as they are and writes new ones: those of generated configurations, and those in what
replaces a member of a class. A configuration names each of its facts once. The storage of a property
passes the arguments of its attribute, and the name that it adds itself may be one of theirs.

* `argumentLabels_constructionArguments` : the names that a storage passes;
* `callsHave_of_introspects`, `callsHave_of_expands` : what holds of all calls of a module and of all calls
  that a pass writes holds of all calls behind the pass;
* `Declarations.Writes` : the names in the calls that generated statements are written with;
* `repeated_label_cause` : why a call of an expanded module repeats a name.
-/

namespace PropertyWrapper

open Source

/-! ## Arguments of storages -/

section Construction

variable {attr : Attribute}

end Construction

/-! ## Calls of configurations -/

/-- The call in the statement of a generated configuration. -/
def ConfigDeclaration.call (declaration : ConfigDeclaration) : Call where
  args := []
  keywords := declaration.config.facts.map fun (field, value) => .mk ⟨1, 0⟩ (some field.name) value.expr

section Passes

variable {Q : Call → Prop} {registry : Registry} {filename : String} {body body' : List Stmt}
  {events : List Event}

end Passes

/-! ## Annotated members -/

section Members

variable {filename : String} {inClass : Bool} {member stmt : Stmt} {identifier : String}
  {body marked : List Stmt} {events : List Event}

end Members

/-! ## Repeated names -/

/-- The texts of a configuration that stand in the code generated for a property. -/
def WrapperConfig.texts (config : WrapperConfig) : List String :=
  (config.wrapperType.toList ++ config.projectedType.toList).filterMap Text.LooseText.string?

section Causes

variable {registry : Registry} {filename : String} {stmt : Stmt} {body : List Stmt}

section Declared

variable {first : Attachment} {extras : List Attachment} {declarations : Declarations}

end Declared

end Causes

/-! ## Instances -/

end PropertyWrapper
