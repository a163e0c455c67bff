import PropertyWrapper.Model.Synthesis
import PropertyWrapper.Source.Module
import PropertyWrapper.Text.Blank

/-!
# Rendering

Generated declarations are written as text from templates and read back as statements. The pieces of
the text are those found in the source or in a registry, so reading them back can fail.
-/

namespace PropertyWrapper

open Source Text

/-! ## Errors -/

/-- Why a declaration has no statements. -/
inductive RenderError where
  /-- No template exists for accessors of this kind. -/
  | unsupportedAccessor (kind : AccessorKind)
  /-- The written text is not a sequence of statements. -/
  | unreadable (error : SourceError)

/-- The explanation of an error. -/
def RenderError.message : RenderError → String
  | .unsupportedAccessor kind => "Unsupported accessor kind '" ++ kind.word ++ "'"
  | .unreadable error => error.message

/-! ## Templates -/

/-- The decorator of a storage. -/
def storageDecorator : String := "cached_property"

/-- The mark of a storage that is never rebound. -/
def finalMark : String := "Final"

/-- The constructor of configurations. -/
def configConstructor : String := "WrapperConfig"

/-- A type after a lead, or nothing if there is no type or its text is empty. -/
def typeClause (lead : String) (type : Option LooseText) : LooseText :=
  let text := type.getD ""
  if text = "" then "" else lead ++ text

/-- The type that a storage is annotated with. -/
def Storage.returnType (storage : Storage) : LooseText :=
  match storage.binding with
  | .immutable => LooseText.whole (finalMark ++ "[") ++ storage.wrapperType ++ "]"
  | .mutable => storage.wrapperType

/-- A storage: a function that builds the wrapper on first use. -/
def Storage.render (storage : Storage) : LooseText :=
  LooseText.whole ("@" ++ storageDecorator ++ "\ndef " ++ storage.name ++ "(self) -> ")
    ++ storage.returnType ++ ":\n    return " ++ storage.wrapperType
    ++ LooseText.whole ("(" ++ argumentList storage.arguments ++ ")\n")

/-- The getter that takes the place of a property and fails when it is read. -/
def renderPlaceholder (property : String) : String :=
  "@property\ndef " ++ property ++ "(self):\n    raise NotImplementedError("
    ++ quoted (property ++ " could not be expanded") ++ ")\n"

/-- A getter that reads a place. -/
def renderGetter (property place : String) (type : Option LooseText) : LooseText :=
  LooseText.whole ("@property\ndef " ++ property ++ "(self)") ++ typeClause " -> " type
    ++ LooseText.whole (":\n    return " ++ place ++ "\n")

/-- A setter that assigns a place. -/
def renderSetter (property place : String) (type : Option LooseText) : LooseText :=
  LooseText.whole ("@" ++ property ++ ".setter\ndef " ++ property ++ "(self, new_value")
    ++ typeClause ": " type
    ++ LooseText.whole (") -> None:\n    " ++ place ++ " = new_value\n")

/-- An accessor. There is no template for deletion. -/
def Accessor.render (accessor : Accessor) : Except RenderError LooseText :=
  match accessor.storage with
  | none => .ok (.whole (renderPlaceholder accessor.property))
  | some storage =>
    let place := "self." ++ storage ++ "." ++ accessor.member.getD "None"
    match accessor.kind with
    | .get => .ok (renderGetter accessor.property place accessor.type)
    | .set => .ok (renderSetter accessor.property place accessor.type)
    | .delete => .error (.unsupportedAccessor .delete)

/-- The texts of a peer, one for each function. -/
def Peer.render : Peer → Except RenderError (List LooseText)
  | .storage place => .ok [place.render]
  | .property computed => computed.accessors.mapM Accessor.render

/-- A generated configuration. -/
def ConfigDeclaration.render (declaration : ConfigDeclaration) : String :=
  declaration.name ++ " = " ++ configConstructor ++ "(" ++ declaration.config.factList ++ ")"

/-! ## Statements -/

/-- The statements of rendered texts; texts that are blank as a whole have none, and those with lone
surrogates cannot be read. -/
def readRendered (texts : List LooseText) : Except RenderError (List Stmt) :=
  match texts.mapM LooseText.string? with
  | some texts =>
    let text := String.intercalate "\n" texts
    if text.toList.all isBlank then .ok [] else (parseModule text).mapError .unreadable
  | none => .error (.unreadable ⟨.surrogates (firstSurrogates (LooseText.join "\n" texts).points), 0⟩)

/-- The statements of generated declarations: the accessors of the property, then its peers. -/
def Declarations.statements (declarations : Declarations) : Except RenderError (List Stmt) := do
  let accessors ← readRendered (← declarations.accessors.mapM Accessor.render)
  let peers ← readRendered (← declarations.peers.mapM Peer.render).flatten
  return accessors ++ peers

/-- A fact's value as an expression. -/
def FactValue.expr (value : FactValue) : Expr :=
  .constant ⟨1, 0⟩ <|
    match value with
    | .flag value => .bool value
    | .text value => .str false value.points

/-- The statement of a generated configuration. -/
def ConfigDeclaration.statement (declaration : ConfigDeclaration) : Stmt :=
  .assign 1 [.name ⟨1, 0⟩ declaration.name] <|
    .call ⟨1, 0⟩ (.name ⟨1, 0⟩ configConstructor) []
      (declaration.config.facts.map fun (field, value) =>
        .mk ⟨1, 0⟩ (some field.name) value.expr)

end PropertyWrapper
