import PropertyWrapper.Proofs.Expansion.Settled

/-!
# Declarations of replaced statements

What replaces a statement of a class body is written from the declarations that the first wrapper attached
to it stands for. Of an annotated plain name these are the declarations of a wrapped property.

* `Declares` : the declarations that replace a statement;
* `exists_declares` : a statement with a wrapper is replaced by the statements of such declarations;
* `Declares.eq_wrappedDeclarations` : the declarations of an annotated plain name.
-/

namespace PropertyWrapper

open Source

/-- Some declarations are those that replace a statement with a wrapper. -/
def Declares (registry : Registry) (stmt : Stmt) (declarations : Declarations) : Prop :=
  ∃ first extras attr target, attachments registry stmt = first :: extras
    ∧ liftAttribute first.entry = .ok attr ∧ liftTarget stmt (some first.index) = .ok target
    ∧ declarations = (synthesize first.config attr target).declarations

/-- A statement with a wrapper is replaced by the statements of its declarations. -/
theorem exists_declares {registry : Registry} {filename : String} {stmt : Stmt} {stmts : List Stmt}
    (hsome : attachments registry stmt ≠ [])
    (h : (expandMember registry filename stmt).result = .ok stmts) :
    ∃ declarations, Declares registry stmt declarations ∧ declarations.statements = .ok stmts := by
  have hstep := memberStep_of_result h
  generalize (expandMember registry filename stmt).events = events at hstep
  cases hstep with
  | kept hnone => exact absurd hnone hsome
  | @replaced first extras attr target _ warnings hsome hwarnings hattr htarget hstmts =>
    exact ⟨_, ⟨first, extras, attr, target, hsome, hattr, htarget, rfl⟩, hstmts⟩

/-- The statements of the declarations that replace a sound statement are functions with their roles. -/
theorem Declares.presents {registry : Registry} {astray : Bool} {stmt : Stmt} {declarations : Declarations}
    {stmts : List Stmt} (h : Declares registry stmt declarations) (hfits : registry.Fits astray)
    (hsound : stmt.isSound = true) (hstmts : declarations.statements = .ok stmts) :
    Presents astray declarations.roles stmts := by
  obtain ⟨first, extras, attr, target, hsome, hattr, htarget, rfl⟩ := h
  exact presents_of_replaced hfits hsound hsome hattr htarget hstmts

section Property

variable {registry : Registry} {line : Nat} {pos : Position} {identifier : String} {hint : Expr}
  {value : Option Expr} {bare : Bool}

/-- What replaces an annotated plain name are the declarations of a wrapped property, with the
configuration that its first wrapper resolves to. -/
theorem Declares.eq_wrappedDeclarations {first : Attachment} {extras : List Attachment}
    {declarations : Declarations}
    (h : Declares registry (.annAssign line (.name pos identifier) hint value bare) declarations)
    (hsome : attachments registry (.annAssign line (.name pos identifier) hint value bare)
      = first :: extras) :
    ∃ attr type initializer, liftAttribute first.entry = .ok attr
      ∧ declarations = wrappedDeclarations first.config attr
        { patterns := [.identifier identifier], type := some type, initializer, line } identifier := by
  obtain ⟨first', extras', attr, target, hsome', hattr, htarget, rfl⟩ := h
  obtain ⟨rfl, rfl⟩ := List.cons.inj (hsome.symm.trans hsome')
  obtain ⟨type, pattern, initializer, -, hpattern, -, rfl⟩ := liftTarget_annAssign htarget
  cases hpattern
  exact ⟨attr, type, initializer, hattr, rfl⟩

end Property

end PropertyWrapper
