import PropertyWrapper.Proofs.Expansion.Settled

/-!
# What the first pass inserts

The first pass changes a module in two ways: every definition that it reaches loses its first wrapper mark,
and behind some classes the configuration of the class is inserted.

* `bodyStripped` : a body without the first mark of each definition that the first pass reaches;
* `Inserts` : the assignments of some configurations are inserted into a body, each behind its class;
* `inserts_of_introspects` : without what it inserted, the first pass has only removed first marks.
-/

namespace PropertyWrapper

open Source

/-! ## Removed marks -/

mutual

/-- A statement in which every definition that the first pass reaches has lost its first mark. -/
def Source.Stmt.stripped : Stmt → Stmt
  | .classDef line name bases keywords body decorators =>
    .classDef line name bases keywords (bodyStripped body) (decorators.eraseP isWrapperMark)
  | stmt => withoutMark stmt

/-- A body in which every definition that the first pass reaches has lost its first mark. -/
def bodyStripped : List Stmt → List Stmt
  | [] => []
  | stmt :: rest => stmt.stripped :: bodyStripped rest

end

theorem stripped_of_not_class {stmt : Stmt} (h : stmt.isClass = false) :
    stmt.stripped = withoutMark stmt := by
  cases stmt with
  | classDef => cases h
  | _ => rfl

theorem isClass_withoutMark (stmt : Stmt) : (withoutMark stmt).isClass = stmt.isClass := by
  cases stmt <;> rfl

/-! ## Inserted configurations -/

/-- `body` is `plain` with the assignments of some configurations inserted, in this order. Each of them
stands directly behind the class that it is named after, in the same body as the class. -/
inductive Inserts : List Stmt → List ConfigDeclaration → List Stmt → Prop where
  | nil : Inserts [] [] []
  | other {stmt : Stmt} {rest others : List Stmt} {configs : List ConfigDeclaration}
      (hclass : stmt.isClass = false) (hrest : Inserts rest configs others) :
      Inserts (stmt :: rest) configs (stmt :: others)
  | classDef {line : Nat} {name : String} {bases : List Expr} {keywords : List Keyword}
      {body body' rest others : List Stmt} {decorators : List Expr}
      {inner configs : List ConfigDeclaration} {own : Option ConfigDeclaration}
      (hbody : Inserts body inner body')
      (hown : ∀ declaration ∈ own, declaration.name = configName name ∧ declaration.wrapper = name)
      (hrest : Inserts rest configs others) :
      Inserts (.classDef line name bases keywords body decorators :: rest)
        (inner ++ own.toList ++ configs)
        (.classDef line name bases keywords body' decorators
          :: (own.toList.map ConfigDeclaration.statement ++ others))

/-- Only classes have configurations. -/
theorem isClass_of_introspect {stmt : Stmt} {declaration : Declaration} {config : WrapperConfig}
    (hdeclaration : liftDeclaration stmt = .ok declaration) (h : introspect declaration = .ok config) :
    stmt.isClass = true := by
  obtain ⟨members, -, hmembers⟩ := bind_eq_ok_iff.1 hdeclaration
  cases hmembers
  cases stmt with
  | classDef => rfl
  | _ => cases h

/-- A mark becomes at most one configuration, that of a class behind it. -/
theorem exists_own_of_markStep {filename : String} {stmt : Stmt} {stmts : List Stmt}
    {events : List Event} (h : MarkStep filename stmt stmts events) :
    ∃ own : Option ConfigDeclaration, events.filterMap Event.config? = own.toList
      ∧ stmts = withoutMark stmt :: own.toList.map ConfigDeclaration.statement
      ∧ ∀ declaration ∈ own, stmt.isClass = true ∧ declaration.name = configName (withoutMark stmt).name
        ∧ declaration.wrapper = (withoutMark stmt).name := by
  cases h with
  | unmarked hmark =>
    rw [withoutMark_of_none hmark]
    exact ⟨none, rfl, rfl, fun _ h => by cases h⟩
  | @wrapper mark declaration attr config hmark hdeclaration hattr hconfig =>
    refine ⟨some (declaration.withConfig config), rfl, rfl, ?_⟩
    rintro _ ⟨⟩
    have hclass := isClass_of_introspect hdeclaration hconfig
    obtain ⟨members, -, hmembers⟩ := bind_eq_ok_iff.1 hdeclaration
    cases hmembers
    rw [isClass_withoutMark] at hclass
    exact ⟨hclass, rfl, rfl⟩
  | refused hmark hdeclaration hattr hproblem => exact ⟨none, rfl, rfl, fun _ h => by cases h⟩

/-- Without the configurations that it inserted, the first pass has only removed first marks. -/
theorem inserts_of_introspects {filename : String} {body body' : List Stmt} {events : List Event}
    (h : Introspects filename body body' events) :
    Inserts (bodyStripped body) (events.filterMap Event.config?) body' := by
  induction h with
  | nil => exact .nil
  | @other stmt rest first others events events' hclass hstep hrest ih =>
    obtain ⟨own, hconfigs, rfl, hown⟩ := exists_own_of_markStep hstep
    have hnone : own = none := by
      rw [Option.eq_none_iff_forall_not_mem]
      intro declaration hdeclaration
      rw [(hown declaration hdeclaration).1] at hclass
      cases hclass
    subst hnone
    rw [List.filterMap_append, hconfigs, bodyStripped, stripped_of_not_class hclass]
    exact .other (by rw [isClass_withoutMark, hclass]) ih
  | @classDef line name bases keywords body body' rest first others decorators inner events events'
      hbody hstep hrest ihbody ihrest =>
    obtain ⟨own, hconfigs, rfl, hown⟩ := exists_own_of_markStep hstep
    rw [List.filterMap_append, List.filterMap_append, hconfigs, bodyStripped, Stmt.stripped]
    exact .classDef ihbody (fun declaration hdeclaration => (hown declaration hdeclaration).2) ihrest

end PropertyWrapper
