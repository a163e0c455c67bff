import PropertyWrapper.Expansion.Trace
import PropertyWrapper.Lifting.Attribute
import PropertyWrapper.Registry.Basic

/-!
# Wrapped properties of a module

The second pass over a module: every annotated assignment or definition of a class body that a
registered wrapper is attached to is replaced by generated declarations. What becomes of a statement
depends on that statement and the registry alone.
-/

namespace PropertyWrapper

open Source

/-- A wrapper attached to a statement: the index of its expression among the attributes, the
expression, and the configuration that it resolves to. -/
structure Attachment where
  index : Nat
  entry : Expr
  config : WrapperConfig

/-- The wrappers attached to a statement in order. -/
def attachments (registry : Registry) (stmt : Stmt) : List Attachment :=
  (attributeExprs stmt).zipIdx.filterMap fun (entry, index) =>
    (registry.resolve (referenceName entry)).map (⟨index, entry, ·⟩)

/-- What is noted about a synthesis. -/
def synthesisEvent (filename : String) (config : WrapperConfig) (attr : Attribute)
    (target : Target) : Event :=
  match (synthesize config attr target).diagnostic with
  | some diagnostic => .diagnosed (diagnostic.inFile filename)
  | none => .synthesized target.displayName attr.name config.storageBinding

/-- Warns of all wrappers but the first. -/
def ignoreAttachments (line : Nat) : List Attachment → Trace Unit
  | [] => pure ()
  | extra :: extras => do
    let text ← Trace.printing extra.entry.text
    Trace.note (.ignored text line)
    ignoreAttachments line extras

/-- What replaces a statement that a wrapper is attached to. -/
def expandAttached (filename : String) (stmt : Stmt) (first : Attachment)
    (extras : List Attachment) : Trace (List Stmt) := do
  ignoreAttachments stmt.line extras
  let attr ← Trace.printing (liftAttribute first.entry)
  let target ← Trace.printing (liftTarget stmt (some first.index))
  Trace.note (synthesisEvent filename first.config attr target)
  Trace.ofResult ((synthesize first.config attr target).declarations.statements.mapError .render)

/-- What becomes of a statement of a class body, apart from its own body. -/
def expandMember (registry : Registry) (filename : String) (stmt : Stmt) : Trace (List Stmt) :=
  match attachments registry stmt with
  | [] => pure [stmt]
  | first :: extras => expandAttached filename stmt first extras

mutual

/-- What a statement becomes in the second pass. -/
def expandStmt (registry : Registry) (filename : String) (inClass : Bool) :
    Stmt → Trace (List Stmt)
  | .classDef line name bases keywords body decorators => do
    let body ← expandBody registry filename true body
    let stmt := Stmt.classDef line name bases keywords body decorators
    if inClass then expandMember registry filename stmt else return [stmt]
  | stmt => if inClass then expandMember registry filename stmt else pure [stmt]

/-- What the statements of a module or class body become in the second pass. -/
def expandBody (registry : Registry) (filename : String) (inClass : Bool) :
    List Stmt → Trace (List Stmt)
  | [] => pure []
  | stmt :: rest => do
    let first ← expandStmt registry filename inClass stmt
    let others ← expandBody registry filename inClass rest
    return first ++ others

end

end PropertyWrapper
