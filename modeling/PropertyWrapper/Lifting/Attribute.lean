import PropertyWrapper.Lifting.Declaration
import PropertyWrapper.Model.Attribute
import PropertyWrapper.Sorting.Stable

/-!
# Attributes and their targets

An attribute is a decorator of a definition or a metadata entry of an annotation. Its arguments are
listed as they stand in the source, also where a named argument stands before a positional one.
-/

namespace PropertyWrapper

open Sorting Source

/-! ## Attributes -/

/-- A positional or unpacked argument with its place. -/
def liftPositional (arg : Expr) : Except PrintError (Position × Argument) := do
  return (arg.pos, { value := ← arg.text })

/-- A named argument or an unpacked mapping with its place. -/
def liftKeyword (keyword : Keyword) : Except PrintError (Position × Argument) := do
  let text ← keyword.value.text
  match keyword.name with
  | some label => return (keyword.pos, { value := text, label := some label })
  | none => return (keyword.pos, { value := "**" ++ text })

/-- The arguments of a call in source order. -/
def liftArguments (args : List Expr) (keywords : List Keyword) :
    Except PrintError (List Argument) := do
  let positioned := (← args.mapM liftPositional) ++ (← keywords.mapM liftKeyword)
  return (sortStably (fun a b => a.1.le b.1) positioned).map (·.2)

/-- The attribute that an expression denotes. -/
def liftAttribute (e : Expr) : Except PrintError Attribute := do
  match e with
  | .call pos func args keywords =>
    return {
      name := ← func.text
      arguments := ← liftArguments args keywords
      line := pos.line
      column := pos.column }
  | _ => return { name := ← e.text, line := e.pos.line, column := e.pos.column }

/-! ## Annotations with metadata -/

/-- The parts of an annotation with metadata: its head, the type, and the metadata entries. -/
structure Annotated where
  head : Expr
  base : Expr
  metadata : List Expr

/-- The parts of an annotation, if it carries metadata. -/
def annotated? : Expr → Option Annotated
  | .subscript _ head (.tuple _ (base :: entry :: entries)) =>
    if refersTo (dottedName head) ["Annotated"] then some ⟨head, base, entry :: entries⟩ else none
  | _ => none

/-- The text of an annotation without one of its metadata entries. -/
def Annotated.textWithout (parts : Annotated) (entry : Option Nat) : Except PrintError String := do
  let remaining := entry.elim parts.metadata parts.metadata.eraseIdx
  if remaining.isEmpty then parts.base.text
  else
    let texts ← (parts.base :: remaining).mapM Expr.text
    return (← parts.head.text) ++ "[" ++ commaSeparated texts ++ "]"

/-! ## Targets -/

/-- The expressions of a statement that can be attributes: the metadata of an annotated assignment or
the decorators of a definition. -/
def attributeExprs : Stmt → List Expr
  | .annAssign _ _ hint _ _ => ((annotated? hint).map (·.metadata)).getD []
  | stmt => stmt.decorators

/-- The type that an annotation states: it loses the metadata entry with a given index. The annotation
has to have a text as a whole all the same. -/
def statedType (hint : Expr) (entry : Option Nat) : Except PrintError String := do
  let whole ← hint.text
  match annotated? hint with
  | some parts => parts.textWithout entry
  | none => return whole

/-- What an attribute is attached to. Of an annotated assignment the type loses the metadata entry
that the attribute is, given by its index. -/
def liftTarget (stmt : Stmt) (entry : Option Nat) : Except PrintError Target := do
  match stmt with
  | .annAssign line target hint value _ =>
    let type ← statedType hint entry
    return .member {
      patterns := [← liftPattern target]
      type := some type
      initializer := ← value.mapM Expr.text
      line }
  | _ => return .declaration (← liftDeclaration stmt)

end PropertyWrapper
