import PropertyWrapper.Model.Attribute
import PropertyWrapper.Model.Member
import PropertyWrapper.Text.Loose

/-!
# Wrapper configurations

A configuration states the facts about a wrapper type that decide which accessors a wrapped property
gets. Each fact has a default, and only the facts that differ from it are ever written out.
-/

namespace PropertyWrapper

open Text

/-! ## Configurations -/

/-- The facts about a wrapper type. -/
structure WrapperConfig where
  /-- The wrapped value can be assigned through the wrapper. -/
  wrappedIsSettable : Bool := false
  /-- The projected value can be assigned through the wrapper. -/
  projectedIsSettable : Bool := false
  /-- Wrappers are shared rather than copied. -/
  isReference : Bool := false
  /-- The type to construct, if it is not the one that the attribute names. -/
  wrapperType : Option LooseText := none
  /-- The type of the projected value, if the wrapper has one. -/
  projectedType : Option LooseText := none
deriving DecidableEq, Repr, Inhabited

/-- A fact of a configuration. -/
inductive Field where
  | projectedType
  | isReference
  | wrappedIsSettable
  | projectedIsSettable
  | wrapperType
deriving DecidableEq, Repr

/-- The value of a fact. -/
inductive FactValue where
  | flag (value : Bool)
  | text (value : LooseText)
deriving DecidableEq, Repr

/-- The written name of a field. -/
def Field.name : Field → String
  | .projectedType => "projected_value_type"
  | .isReference => "is_reference_type"
  | .wrappedIsSettable => "wrapped_value_is_settable"
  | .projectedIsSettable => "projected_value_is_settable"
  | .wrapperType => "wrapper_type"

theorem Field.name_injective {field field' : Field} (h : field.name = field'.name) :
    field = field' := by
  cases field <;> cases field' <;> first | rfl | exact absurd h (by decide)

/-- All fields in the order in which facts are written. -/
def Field.all : List Field :=
  [.projectedType, .isReference, .wrappedIsSettable, .projectedIsSettable, .wrapperType]

/-- The word for a truth value. -/
def flagWord (value : Bool) : String := if value then "True" else "False"

/-- A fact's value as a literal. -/
def FactValue.literal : FactValue → String
  | .flag value => flagWord value
  | .text value => value.quoted

namespace WrapperConfig

/-- The value of a field if it differs from the default. -/
def fact? (config : WrapperConfig) : Field → Option FactValue
  | .projectedType => config.projectedType.map .text
  | .isReference => if config.isReference then some (.flag true) else none
  | .wrappedIsSettable => if config.wrappedIsSettable then some (.flag true) else none
  | .projectedIsSettable => if config.projectedIsSettable then some (.flag true) else none
  | .wrapperType => config.wrapperType.map .text

/-- The facts that differ from their defaults, in writing order. -/
def facts (config : WrapperConfig) : List (Field × FactValue) :=
  Field.all.filterMap fun field => (config.fact? field).map (field, ·)

/-- The facts as named arguments. -/
def factList (config : WrapperConfig) : String :=
  String.intercalate ", "
    (config.facts.map fun (field, value) => field.name ++ "=" ++ value.literal)

/-- The type that an attribute constructs: the configured one, or the attribute's name if none is
configured or its text is empty. -/
def wrapperTypeFor (config : WrapperConfig) (attr : Attribute) : LooseText :=
  match config.wrapperType with
  | some type => if type = "" then attr.name else type
  | none => attr.name

/-- Whether the storage of a wrapped property may be rebound. A shared wrapper is changed through the
instance and never rebound. -/
def storageIsMutable (config : WrapperConfig) : Bool :=
  !config.isReference && (config.wrappedIsSettable || config.projectedIsSettable)

/-- How the storage of a wrapped property is bound. -/
def storageBinding (config : WrapperConfig) : Binding :=
  if config.storageIsMutable then .mutable else .immutable

/-- All five fields of a configuration with their values. -/
def summary (config : WrapperConfig) : String :=
  let optional : Option LooseText → String := fun text => text.elim "None" LooseText.quoted
  "WrapperConfig(wrapped_value_is_settable=" ++ flagWord config.wrappedIsSettable
    ++ ", projected_value_is_settable=" ++ flagWord config.projectedIsSettable
    ++ ", is_reference_type=" ++ flagWord config.isReference
    ++ ", wrapper_type=" ++ optional config.wrapperType
    ++ ", projected_value_type=" ++ optional config.projectedType ++ ")"

end WrapperConfig

/-! ## Generated declarations -/

/-- A generated declaration that binds a name to the configuration of a wrapper type. -/
structure ConfigDeclaration where
  name : String
  config : WrapperConfig := {}
  wrapper : String := ""
deriving DecidableEq, Repr

/-- The name of the configuration generated for a type. -/
def configName (type : String) : String := type ++ "Macro"

end PropertyWrapper
