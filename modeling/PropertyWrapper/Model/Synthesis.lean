import PropertyWrapper.Model.Introspection

/-!
# Synthesis

A wrapped property becomes a computed property that forwards to a wrapper held in a storage beside it,
with a second computed property for the projected value if the wrapper has one. What cannot be wrapped
becomes a placeholder that fails when it is read.
-/

namespace PropertyWrapper

open Text

/-! ## Generated names -/

/-- The name of the storage of a property. -/
def storageName (identifier : String) : String := "_" ++ identifier

/-- The name of the projection of a property: the marker goes after the leading underscores, so that
the projection is as visible as the property. -/
def projectedName (identifier : String) : String :=
  let chars := identifier.toList
  String.ofList (chars.takeWhile (· = '_') ++ "projected_".toList ++ chars.dropWhile (· = '_'))

theorem toList_storageName (identifier : String) :
    (storageName identifier).toList = '_' :: identifier.toList := by
  rw [storageName, String.toList_append]
  rfl

theorem toList_projectedName (identifier : String) :
    (projectedName identifier).toList = identifier.toList.takeWhile (· = '_')
      ++ ("projected_".toList ++ identifier.toList.dropWhile (· = '_')) := by
  rw [projectedName, String.toList_ofList, List.append_assoc]

/-- A projected name starts with an underscore or with its marker. -/
theorem starts_projectedName (identifier : String) :
    (projectedName identifier).toList.head? = some '_'
      ∨ "projected_".toList <+: (projectedName identifier).toList := by
  rw [toList_projectedName]
  cases hlead : identifier.toList.takeWhile (· = '_') with
  | nil => exact .inr (List.prefix_append _ _)
  | cons c lead =>
    have hc : c ∈ identifier.toList.takeWhile (· = '_') := by simp [hlead]
    obtain rfl : c = '_' := by simpa using List.all_eq_true.1 List.all_takeWhile c hc
    exact .inl rfl

/-! ## Generated declarations -/

/-- An accessor of a property that forwards to a member of a storage. Without a storage it is a
placeholder. -/
structure Accessor where
  kind : AccessorKind
  property : String
  storage : Option String := none
  member : Option String := none
  type : Option LooseText := none
deriving DecidableEq, Repr

/-- Whether an accessor only keeps the place of one that could not be generated. -/
def Accessor.isPlaceholder (accessor : Accessor) : Bool := accessor.storage.isNone

/-- The member that holds the wrapper of a property, built on first use. -/
structure Storage where
  name : String
  binding : Binding
  wrapperType : LooseText
  arguments : List Argument := []
deriving DecidableEq, Repr

/-- A computed property. -/
structure ComputedProperty where
  name : String
  type : Option LooseText
  accessors : List Accessor
deriving DecidableEq, Repr

/-- A declaration placed beside a wrapped property. -/
inductive Peer where
  | storage (storage : Storage)
  | property (property : ComputedProperty)
deriving DecidableEq, Repr

/-- All declarations that replace a wrapped property. -/
structure Declarations where
  accessors : List Accessor := []
  peers : List Peer := []
deriving DecidableEq, Repr

/-- Whether the declarations only keep the place of a property. -/
def Declarations.isPlaceholder (declarations : Declarations) : Bool :=
  declarations.peers.isEmpty && declarations.accessors.all (·.isPlaceholder)

/-! ## Synthesis -/

/-- The getter that takes the place of a target that cannot be wrapped. -/
def placeholder (target : Target) : Declarations where
  accessors := [{ kind := .get, property := target.displayName }]

/-- The arguments of the call that builds the wrapper: the initial value, then the arguments of the
attribute. The initial value is passed by name exactly if the attribute has keyword arguments only. -/
def constructionArguments (attr : Attribute) (initializer : Option String) : List Argument :=
  match initializer with
  | none => attr.arguments
  | some value =>
    let label := if attr.arguments.all (·.isKeyword) then some wrappedValue else none
    { value, label } :: attr.arguments

/-- A getter, and a setter if there is to be one, that forward to a member of a storage. -/
def forwarding (property storage member : String) (type : Option LooseText) (isSettable : Bool) :
    List Accessor :=
  let accessor (kind : AccessorKind) : Accessor := { kind, property, storage, member, type }
  if isSettable then [accessor .get, accessor .set] else [accessor .get]

/-- The projection of a property, if the wrapper has a projected value. -/
def projection (config : WrapperConfig) (identifier : String) : Option ComputedProperty :=
  config.projectedType.map fun type =>
    { name := projectedName identifier
      type := some type
      accessors :=
        forwarding (projectedName identifier) (storageName identifier) projectedValue (some type)
          config.projectedIsSettable }

/-- The declarations for a member with one plain name. -/
def wrappedDeclarations (config : WrapperConfig) (attr : Attribute) (member : Member)
    (identifier : String) : Declarations where
  accessors :=
    forwarding identifier (storageName identifier) wrappedValue (member.type.map .whole)
      config.wrappedIsSettable
  peers :=
    .storage
      { name := storageName identifier
        binding := config.storageBinding
        wrapperType := config.wrapperTypeFor attr
        arguments := constructionArguments attr member.initializer }
      :: ((projection config identifier).map Peer.property).toList

/-- The outcome of a synthesis: declarations in every case, and a problem if they are a placeholder. -/
structure Synthesis where
  declarations : Declarations
  diagnostic : Option Diagnostic := none
deriving DecidableEq, Repr

/-- The declarations that replace what an attribute is attached to. Only a member with one plain name
can be wrapped. -/
def synthesize (config : WrapperConfig) (attr : Attribute) (target : Target) : Synthesis :=
  match target.single? with
  | some (member, identifier) =>
    { declarations := wrappedDeclarations config attr member identifier }
  | none =>
    { declarations := placeholder target
      diagnostic := Diagnostic.at? .unexpectedTarget (some attr) }

/-- The declarations that replace a target; a failure is reported to the context. -/
def Context.expandProperty (context : Context) (config : WrapperConfig) (attr : Attribute)
    (target : Target) : Context × Declarations :=
  let synthesis := synthesize config attr target
  (synthesis.diagnostic.elim context context.diagnose, synthesis.declarations)

end PropertyWrapper
