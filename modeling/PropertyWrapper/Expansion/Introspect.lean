import PropertyWrapper.Expansion.Trace
import PropertyWrapper.Lifting.Attribute

/-!
# Wrapper types of a module

The first pass over a module: every marked definition at module level or in a class body loses its
mark, and behind a wrapper type its configuration is inserted. Inner classes come before the class
that holds them.
-/

namespace PropertyWrapper

open Source

/-- Whether a decorator marks a wrapper type. -/
def isWrapperMark (decorator : Expr) : Bool := refersTo (referenceName decorator) ["macrofy"]

/-- The first wrapper mark on a statement. -/
def wrapperMark? (stmt : Stmt) : Option Expr := stmt.decorators.find? isWrapperMark

/-- A statement without its first wrapper mark. -/
def withoutMark : Stmt → Stmt
  | .function line isAsync name params body decorators returns =>
    .function line isAsync name params body (decorators.eraseP isWrapperMark) returns
  | .classDef line name bases keywords body decorators =>
    .classDef line name bases keywords body (decorators.eraseP isWrapperMark)
  | stmt => stmt

/-- A marked statement without its mark, followed by the configuration of the type that it
declares. -/
def introspectMarked (filename : String) (mark : Expr) (stmt : Stmt) : Trace (List Stmt) := do
  let declaration ← Trace.printing (liftDeclaration stmt)
  let attr ← Trace.printing (liftAttribute mark)
  match expandWrapper attr declaration with
  | .ok generated =>
    Trace.note (.introspected declaration.name declaration.kind generated.config)
    Trace.note (.generated generated)
    return [stmt, generated.statement]
  | .error diagnostic =>
    Trace.note (.diagnosed (diagnostic.inFile filename))
    return [stmt]

/-- What a statement becomes when its own mark, if it has one, is resolved. -/
def introspectMark (filename : String) (stmt : Stmt) : Trace (List Stmt) :=
  match wrapperMark? stmt with
  | none => pure [stmt]
  | some mark => introspectMarked filename mark (withoutMark stmt)

mutual

/-- What a statement becomes in the first pass. -/
def introspectStmt (filename : String) : Stmt → Trace (List Stmt)
  | .classDef line name bases keywords body decorators => do
    let body ← introspectBody filename body
    introspectMark filename (.classDef line name bases keywords body decorators)
  | stmt => introspectMark filename stmt

/-- What the statements of a module or class body become in the first pass. -/
def introspectBody (filename : String) : List Stmt → Trace (List Stmt)
  | [] => pure []
  | stmt :: rest => do
    let first ← introspectStmt filename stmt
    let others ← introspectBody filename rest
    return first ++ others

end

end PropertyWrapper
