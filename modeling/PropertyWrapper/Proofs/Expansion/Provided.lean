import PropertyWrapper.Proofs.Expansion.Counts

/-!
# Imports of the names that generated code uses

Generated code uses names of other modules, and an expansion adds an import of each such name that no import
of the module binds. Whether an import of the module comes in front of the code that needs it is not looked
at: an import behind it is enough to keep the name from being imported earlier.

* `filter_isImport_of_expandTree` : the passes leave the imports of a module alone;
* `provide_cases` : a name is bound by the module itself or by an import in front of all its code;
* `imported_before_iff` : when a name is imported in front of a statement.
-/

namespace PropertyWrapper

open Source

/-! ## Imports and the passes -/

/-- Whether a statement is an import. -/
def Source.Stmt.isImport : Stmt → Bool
  | .imports .. | .importFrom .. => true
  | _ => false

theorem isImport_of_binds {name : String} {stmt : Stmt} (h : importBinds name stmt = true) :
    stmt.isImport = true := by
  cases stmt with
  | imports => rfl
  | importFrom => rfl
  | _ => cases h

theorem any_importBinds_filter (name : String) (body : List Stmt) :
    (body.filter Stmt.isImport).any (importBinds name) = body.any (importBinds name) := by
  induction body with
  | nil => rfl
  | cons stmt rest ih =>
    rw [List.any_cons, List.filter_cons]
    cases himport : stmt.isImport with
    | true => rw [if_pos rfl, List.any_cons, ih]
    | false =>
      have hbinds : importBinds name stmt = false := by
        rw [← Bool.not_eq_true]
        intro hbinds
        rw [isImport_of_binds hbinds] at himport
        cases himport
      rw [if_neg Bool.false_ne_true, ih, hbinds, Bool.false_or]

/-- A statement with a mark is no import, neither with the mark nor without it. -/
theorem isImport_of_mark {stmt : Stmt} {mark : Expr} (h : wrapperMark? stmt = some mark) :
    stmt.isImport = false ∧ (withoutMark stmt).isImport = false := by
  cases stmt with
  | function => exact ⟨rfl, rfl⟩
  | classDef => exact ⟨rfl, rfl⟩
  | _ => cases h

theorem filter_isImport_of_markStep {filename : String} {stmt : Stmt} {stmts : List Stmt}
    {events : List Event} (h : MarkStep filename stmt stmts events) :
    stmts.filter Stmt.isImport = [stmt].filter Stmt.isImport := by
  cases h with
  | unmarked hmark => rfl
  | wrapper hmark hdeclaration hattr hconfig =>
    obtain ⟨hbefore, hbehind⟩ := isImport_of_mark hmark
    rw [List.filter_cons, hbehind, List.filter_singleton, List.filter_singleton, hbefore]
    rfl
  | refused hmark hdeclaration hattr hproblem =>
    obtain ⟨hbefore, hbehind⟩ := isImport_of_mark hmark
    rw [List.filter_singleton, hbehind, List.filter_singleton, hbefore]
    rfl

theorem filter_isImport_of_introspects {filename : String} {body body' : List Stmt} {events : List Event}
    (h : Introspects filename body body' events) :
    body'.filter Stmt.isImport = body.filter Stmt.isImport := by
  induction h with
  | nil => rfl
  | @other stmt rest first others events events' hclass hstep hrest ih =>
    rw [List.filter_append, filter_isImport_of_markStep hstep, ih, ← List.filter_append]
    rfl
  | classDef hbody hstep hrest ihbody ihrest =>
    rw [List.filter_append, filter_isImport_of_markStep hstep, ihrest]
    rfl

theorem filter_isImport_of_expands {registry : Registry} {filename : String} {inClass : Bool}
    {body body' : List Stmt} {events : List Event}
    (h : Expands registry filename inClass body body' events) (hmodule : inClass = false) :
    body'.filter Stmt.isImport = body.filter Stmt.isImport := by
  induction h with
  | nil => rfl
  | other hclass hrest ih => rw [List.filter_cons, List.filter_cons, ih rfl]
  | classDef hbody hrest ihbody ihrest =>
    rw [List.filter_cons, List.filter_cons, ihrest rfl]
    rfl
  | member => cases hmodule
  | memberClass => cases hmodule

/-- The passes leave the imports of a module alone. -/
theorem filter_isImport_of_expandTree {registry : Registry} {filename : String} {body tree : List Stmt}
    (h : (expandTree registry filename body).result = .ok tree) :
    tree.filter Stmt.isImport = body.filter Stmt.isImport := by
  obtain ⟨marked, introspected, synthesized, hfirst, hsecond, -⟩ := expandTree_result h
  rw [filter_isImport_of_expands hsecond rfl, filter_isImport_of_introspects hfirst]

/-! ## Added imports -/

theorem importBinds_statement (provision : Provision) :
    importBinds provision.name provision.statement = true := by
  simp [importBinds, Provision.statement, ImportAlias.binds]

/-- The imports that are added are those of the names that no import of the module binds. -/
theorem provide_cases (provisions : List Provision) (body : List Stmt) :
    ∃ front block back, body = front ++ back ∧ provide provisions body = front ++ block ++ back
      ∧ (∀ stmt ∈ front, stmt.isPreamble = true)
      ∧ block = (provisions.filter fun provision =>
        !body.any (importBinds provision.name)).map Provision.statement := by
  obtain ⟨front, back, hbody, hinsert, hfront⟩ :=
    insertImports_eq ((provisions.filter fun provision =>
      !body.any (importBinds provision.name)).map Provision.statement) body
  exact ⟨front, _, back, hbody, hinsert, hfront, rfl⟩

/-- The imports that are added for some names bind one of these names exactly if nothing in the body binds
it. -/
theorem any_importBinds_missing {provisions : List Provision} {provision : Provision} (body : List Stmt)
    (hused : provision ∈ provisions) :
    ((provisions.filter fun other => !body.any (importBinds other.name)).map Provision.statement).any
      (importBinds provision.name) = !body.any (importBinds provision.name) := by
  rw [Bool.eq_iff_iff, List.any_map, List.any_eq_true]
  constructor
  · rintro ⟨other, hother, hbinds⟩
    have hname : other.name = provision.name := by
      simpa [importBinds, Provision.statement, ImportAlias.binds] using hbinds
    rw [← hname]
    exact (List.mem_filter.1 hother).2
  · intro hnone
    exact ⟨provision, List.mem_filter.2 ⟨hused, hnone⟩, importBinds_statement provision⟩

/-- A name that generated code uses is imported somewhere in the expanded module. The statements that can
hold generated code are those of `back`; the name is imported in front of such a statement exactly if
some import of the module in front of it binds the name, or no import of the module does. -/
theorem imported_before_iff (registry : Registry) (filename : String) (body body' : List Stmt)
    (provision : Provision) (hused : provision ∈ usedProvisions (expandModule registry filename body).events)
    (h : (expandModule registry filename body).result = .ok body') :
    ∃ tree front block back, (expandTree registry filename body).result = .ok tree
      ∧ tree = front ++ back ∧ body' = front ++ block ++ back
      ∧ (∀ stmt ∈ front, stmt.isPreamble = true) ∧ (∀ stmt ∈ block, stmt.isImport = true)
      ∧ body'.any (importBinds provision.name) = true
      ∧ ∀ before stmt behind, back = before ++ stmt :: behind →
        ((front ++ block ++ before).any (importBinds provision.name) = true
          ↔ (front ++ before).any (importBinds provision.name) = true
            ∨ body.any (importBinds provision.name) = false) := by
  obtain ⟨tree, htree, rfl, hevents⟩ := expandModule_result h
  rw [hevents] at hused
  obtain ⟨front, block, back, hbody, hprovide, hfront, hblock⟩ :=
    provide_cases (usedProvisions (expandTree registry filename body).events) tree
  have himports : tree.any (importBinds provision.name) = body.any (importBinds provision.name) := by
    rw [← any_importBinds_filter, filter_isImport_of_expandTree htree, any_importBinds_filter]
  -- The block holds an import of the name exactly if the module itself has none.
  have hmissing : block.any (importBinds provision.name) = !body.any (importBinds provision.name) := by
    rw [hblock, any_importBinds_missing tree hused, himports]
  refine ⟨tree, front, block, back, htree, hbody, hprovide, hfront, ?_, ?_, ?_⟩
  · rw [hblock]
    intro stmt hstmt
    obtain ⟨other, -, rfl⟩ := List.mem_map.1 hstmt
    rfl
  · rw [hprovide, List.any_append, List.any_append]
    rw [hbody, List.any_append] at himports
    rw [hmissing, ← himports]
    cases front.any (importBinds provision.name) <;> cases back.any (importBinds provision.name) <;> rfl
  · intro before stmt behind hback
    rw [List.any_append, List.any_append, List.any_append, hmissing]
    simp only [Bool.or_eq_true, Bool.not_eq_true']
    exact or_right_comm

/-! ## Instances -/

/-- A class with a wrapped property, and behind it an import of a name that the generated code uses. -/
def lateImportSource : String :=
  "class A:\n    x: Annotated[int, E]\nfrom functools import cached_property\n"

/-- The storages in each statement of an expanded module, and whether the statement imports their
decorator. -/
def storageUses? (source : String) : Option (List (Nat × Bool)) := do
  let body ← (parseModule source).toOption
  let body' ← (expandModule soleWrapper "m.py" body).result.toOption
  return body'.map fun stmt => (stmt.tally Stmt.isStorage, importBinds storageDecorator stmt)

/-- The decorator of a storage is imported behind its class. -/
theorem imported_behind_storage :
    storageUses? lateImportSource = some [(0, false), (1, false), (0, true)] := by
  simp only [storageUses?, Direct.parseModule_eq, Direct.expandModule_eq]
  decide +kernel

/-- In a module without imports all generated code stands behind the import of its decorator. -/
theorem imported_before_wrappedTree :
    storageProvision ∈ usedProvisions (expandModule soleWrapper "m.py" wrappedTree).events
      ∧ ∃ front block back, expandedTree 1 1 1 1 0 = front ++ block ++ back
        ∧ ∀ before stmt behind, back = before ++ stmt :: behind →
          (front ++ block ++ before).any (importBinds storageDecorator) = true := by
  have hused : storageProvision ∈ usedProvisions (expandModule soleWrapper "m.py" wrappedTree).events := by
    rw [expandModule_wrappedTree]
    decide
  have hexpand : (expandModule soleWrapper "m.py" wrappedTree).result = .ok (expandedTree 1 1 1 1 0) := by
    rw [expandModule_wrappedTree]
  obtain ⟨tree, front, block, back, -, -, hbody, -, -, -, hiff⟩ :=
    imported_before_iff soleWrapper "m.py" wrappedTree (expandedTree 1 1 1 1 0) storageProvision hused hexpand
  exact ⟨hused, front, block, back, hbody, fun before stmt behind hback =>
    (hiff before stmt behind hback).2 (.inr rfl)⟩

end PropertyWrapper
