import PropertyWrapper.Expansion.Rendering

/-!
# Imports of generated code

Generated code uses a few names that the module may not import yet. Missing imports are placed in one
block, after the documentation text of the module and its imports of future features.
-/

namespace PropertyWrapper

open Source

/-- A name and the module that provides it. -/
structure Provision where
  module : String
  name : String
deriving DecidableEq, Repr

/-- The decorator of storages. -/
def storageProvision : Provision := ⟨"functools", storageDecorator⟩

/-- The mark of storages that are never rebound. -/
def finalProvision : Provision := ⟨"typing", finalMark⟩

/-- The constructor of configurations. -/
def configProvision : Provision := ⟨"macrofy", configConstructor⟩

/-- The import of a name. -/
def Provision.statement (provision : Provision) : Stmt :=
  .importFrom 1 0 (some provision.module) [⟨provision.name, none⟩]

/-- Whether an import binds a name. -/
def Source.ImportAlias.binds (name : String) (binding : ImportAlias) : Bool :=
  (binding.boundTo.getD binding.name) = name

/-- Whether a statement imports something under a name. -/
def importBinds (name : String) : Stmt → Bool
  | .imports _ names => names.any (·.binds name)
  | .importFrom _ _ _ names => names.any (·.binds name)
  | _ => false

/-- Whether a statement is a text that stands alone. -/
def isDocumentation : Stmt → Bool
  | .expr _ (.constant _ (.str _ _)) => true
  | _ => false

/-- Whether a statement imports features of the future. -/
def isFutureImport : Stmt → Bool
  | .importFrom _ _ (some module) _ => module = "__future__"
  | _ => false

/-- A module body with a block of statements after its documentation and future imports. -/
def insertImports (block : List Stmt) (body : List Stmt) : List Stmt :=
  match body with
  | [] => block
  | first :: rest =>
    let (documentation, others) := if isDocumentation first then ([first], rest) else ([], body)
    documentation ++ others.takeWhile isFutureImport ++ block ++ others.dropWhile isFutureImport

/-- A module body with imports of those names that no import of the module binds. -/
def provide (provisions : List Provision) (body : List Stmt) : List Stmt :=
  let missing := provisions.filter fun provision => !body.any (importBinds provision.name)
  insertImports (missing.map Provision.statement) body

end PropertyWrapper
