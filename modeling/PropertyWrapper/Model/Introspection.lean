import PropertyWrapper.Model.Config
import PropertyWrapper.Model.Declaration
import PropertyWrapper.Model.Diagnostic

/-!
# Introspection

The configuration of a wrapper type follows from its declaration: the kind of type decides whether
wrappers are shared, and the members for the wrapped and the projected value decide the rest.
-/

namespace PropertyWrapper

/-- The member that holds the wrapped value. -/
def wrappedValue : String := "wrapped_value"

/-- The member that holds the projected value. -/
def projectedValue : String := "projected_value"

/-- The facts that follow from the members of a wrapper type. Without a written type the projected
value is left out, since no type is inferred. -/
def configOf (kind : DeclarationKind) (wrapped : Member) (projected : Option Member) :
    WrapperConfig where
  wrappedIsSettable := wrapped.isSettable
  projectedIsSettable := projected.any (·.isSettable)
  isReference := kind.isReference
  projectedType := (projected.bind (·.type)).map .whole

/-- The configuration of a wrapper type. Only an unsupported kind or a missing wrapped value is a
problem. -/
def introspect (declaration : Declaration) : Except Problem WrapperConfig :=
  if declaration.kind.isSupported then
    match findMember declaration.members wrappedValue with
    | none => .error .missingWrappedValue
    | some wrapped =>
      .ok (configOf declaration.kind wrapped (findMember declaration.members projectedValue))
  else .error .unsupportedDeclaration

/-- The generated declaration for a wrapper type. -/
def Declaration.withConfig (declaration : Declaration) (config : WrapperConfig) :
    ConfigDeclaration where
  name := configName declaration.name
  config
  wrapper := declaration.name

/-- The generated declaration for the type that a wrapper mark stands on, or the reason why there is
none. -/
def expandWrapper (attr : Attribute) (declaration : Declaration) :
    Except Diagnostic ConfigDeclaration :=
  match introspect declaration with
  | .ok config => .ok (declaration.withConfig config)
  | .error problem => .error (.at? problem (some attr))

/-- The generated declarations for a marked type; a failure is reported to the context. -/
def Context.expandWrapper (context : Context) (attr : Attribute) (declaration : Declaration) :
    Context × List ConfigDeclaration :=
  match PropertyWrapper.expandWrapper attr declaration with
  | .ok generated => (context, [generated])
  | .error diagnostic => (context.diagnose diagnostic, [])

end PropertyWrapper
