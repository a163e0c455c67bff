import PropertyWrapper.Proofs.Expansion.Evaluation
import PropertyWrapper.Proofs.Expansion.Settled
import PropertyWrapper.Proofs.Source.Unplaced

/-!
# Expansion is idempotent

What an expansion gives is settled for the registry that it started with, although that registry knows
less than the one of the second pass. A second expansion therefore changes nothing and reports nothing,
and a source that was expanded comes back as it is.

* `expandModule_of_settled` : a settled module is left alone;
* `settled_of_expandModule` : what an expansion gives is settled;
* `expansion_idempotent` : both together, for trees and for sources.
-/

namespace PropertyWrapper

open Source

/-! ## Imports -/

/-- Whether a statement can stand in front of added imports. -/
def Source.Stmt.isPreamble (stmt : Stmt) : Bool := isDocumentation stmt || isFutureImport stmt

/-- A block of imports is inserted at one place, behind documentation and imports of future features. -/
theorem insertImports_eq (block body : List Stmt) :
    ∃ front back, body = front ++ back ∧ insertImports block body = front ++ block ++ back
      ∧ ∀ stmt ∈ front, stmt.isPreamble = true := by
  have hfuture : ∀ body : List Stmt, ∀ stmt ∈ body.takeWhile isFutureImport, stmt.isPreamble = true := by
    intro body stmt hstmt
    rw [Stmt.isPreamble, List.all_eq_true.1 List.all_takeWhile stmt hstmt, Bool.or_true]
  cases body with
  | nil => exact ⟨[], [], rfl, (List.append_nil _).symm, by simp⟩
  | cons first rest =>
    rw [insertImports]
    cases hfirst : isDocumentation first with
    | true =>
      refine ⟨[first] ++ rest.takeWhile isFutureImport, rest.dropWhile isFutureImport, ?_, rfl, ?_⟩
      · rw [List.append_assoc, List.takeWhile_append_dropWhile]
        rfl
      · refine List.forall_mem_cons.2 ⟨?_, hfuture rest⟩
        rw [Stmt.isPreamble, hfirst, Bool.true_or]
    | false =>
      refine ⟨(first :: rest).takeWhile isFutureImport, (first :: rest).dropWhile isFutureImport, ?_,
        rfl, hfuture _⟩
      rw [List.takeWhile_append_dropWhile]

/-- The imports that are missing stand together in the module. -/
theorem provide_eq (provisions : List Provision) (body : List Stmt) :
    ∃ (missing : List Provision) (front back : List Stmt), body = front ++ back
      ∧ provide provisions body = front ++ missing.map Provision.statement ++ back := by
  obtain ⟨missing, hprovide⟩ : ∃ missing : List Provision,
      provide provisions body = insertImports (missing.map Provision.statement) body := ⟨_, rfl⟩
  obtain ⟨front, back, hbody, hinsert, -⟩ := insertImports_eq (missing.map Provision.statement) body
  exact ⟨missing, front, back, hbody, hprovide.trans hinsert⟩

theorem provide_nil (body : List Stmt) : provide [] body = body := by
  obtain ⟨front, back, hbody, hinsert, -⟩ := insertImports_eq [] body
  rw [List.append_nil, ← hbody] at hinsert
  exact hinsert

/-- Imports of generated code leave a module settled. -/
theorem settled_provide {registry : Registry} {provisions : List Provision} {body : List Stmt}
    (hunmarked : bodyUnmarked body = true) (hunwrapped : bodyUnwrapped registry false body = true) :
    bodyUnmarked (provide provisions body) = true
      ∧ bodyUnwrapped registry false (provide provisions body) = true := by
  have hblock : ∀ missing : List Provision, bodyUnmarked (missing.map Provision.statement) = true
      ∧ bodyUnwrapped registry false (missing.map Provision.statement) = true := by
    intro missing
    rw [bodyUnmarked_eq, bodyUnwrapped_eq, List.all_map, List.all_map]
    exact ⟨List.all_eq_true.2 fun _ _ => rfl, List.all_eq_true.2 fun _ _ => rfl⟩
  obtain ⟨missing, front, back, rfl, hprovide⟩ := provide_eq provisions body
  obtain ⟨hmarks, hwrappers⟩ := hblock missing
  rw [bodyUnmarked_append, Bool.and_eq_true] at hunmarked
  rw [bodyUnwrapped_append, Bool.and_eq_true] at hunwrapped
  rw [hprovide, bodyUnmarked_append, bodyUnmarked_append, bodyUnwrapped_append,
    bodyUnwrapped_append, hunmarked.1, hunmarked.2, hunwrapped.1, hunwrapped.2, hmarks, hwrappers]
  exact ⟨rfl, rfl⟩

/-! ## Trees -/

/-- A settled module is left alone, and nothing is reported about it. -/
theorem expandModule_of_settled {registry : Registry} {body : List Stmt}
    (hunmarked : bodyUnmarked body = true) (hunwrapped : bodyUnwrapped registry false body = true)
    (filename : String) : expandModule registry filename body = ⟨[], .ok body⟩ := by
  have htree : expandTree registry filename body = ⟨[], .ok body⟩ := by
    have hfirst : introspectBody filename body = pure body :=
      introspectBody_of_unmarked body hunmarked
    have hsecond : expandBody registry filename false body = pure body :=
      expandBody_of_unwrapped body hunwrapped
    rw [expandTree, hfirst]
    exact hsecond
  rw [expandModule, htree]
  change (⟨[], .ok (provide [] body)⟩ : Trace (List Stmt)) = _
  rw [provide_nil]

/-- What an expansion gives is settled for the registry that it started with. -/
theorem settled_of_expandModule {registry : Registry} (hapart : registry.IsApart)
    (hfits : registry.Fits true) {filename : String} {body body' : List Stmt}
    (hsound : bodySound body = true) (hmarks : bodyMarksOnce body = true)
    (h : (expandModule registry filename body).result = .ok body') :
    bodyUnmarked body' = true ∧ bodyUnwrapped registry false body' = true := by
  obtain ⟨tree, htree, rfl, -⟩ := expandModule_result h
  obtain ⟨marked, introspected, synthesized, hfirst, hsecond, -⟩ := expandTree_result htree
  obtain ⟨hsound', hconfigs⟩ := sound_of_introspects hfirst hsound
  have hunmarked := unmarked_of_introspects hfirst hmarks
  have hextended := Registry.forall_overlay hfits (fits_configEntries true hconfigs)
  have hsettles := settles_of_expands hapart hextended (fun name => Registry.resolve_of_overlay)
    hsecond hsound' hunmarked
  exact settled_provide hsettles.unmarked hsettles.unwrapped

/-! ## Trees that were printed and read again -/

theorem any_isWrapperMark_unplaced (decorators : List Expr) :
    (decorators.map Expr.unplaced).any isWrapperMark = decorators.any isWrapperMark := by
  rw [List.any_map]
  congr 1
  funext e
  rw [Function.comp_apply, isWrapperMark, isWrapperMark, referenceName_unplaced]

theorem resolvesAny_unplaced (registry : Registry) (exprs : List Expr) :
    registry.resolvesAny (exprs.map Expr.unplaced) = registry.resolvesAny exprs := by
  rw [Registry.resolvesAny, List.any_map]
  congr 1
  funext e
  rw [Function.comp_apply, referenceName_unplaced]

theorem isClass_unplaced (stmt : Stmt) : stmt.unplaced.isClass = stmt.isClass := by
  cases stmt <;> rfl

/-- Whether a body is unmarked does not depend on places. -/
theorem bodyUnmarked_unplaced (body : List Stmt) :
    bodyUnmarked (unplacedBody body) = bodyUnmarked body := by
  induction body using bodyInduction with
  | nil => rfl
  | other stmt rest hclass ih =>
    have hclass' : stmt.unplaced.isClass = false := by rw [isClass_unplaced, hclass]
    rw [unplacedBody, bodyUnmarked, bodyUnmarked, isUnmarked_of_not_class hclass',
      isUnmarked_of_not_class hclass, decorators_unplaced, any_isWrapperMark_unplaced, ih]
  | classDef line name bases keywords inner decorators rest ihinner ihrest =>
    rw [unplacedBody, Stmt.unplaced, bodyUnmarked, bodyUnmarked, Stmt.isUnmarked, Stmt.isUnmarked,
      unplacedAll_eq, any_isWrapperMark_unplaced, ihinner, ihrest]

/-- Whether a body is unwrapped does not depend on places. -/
theorem bodyUnwrapped_unplaced (registry : Registry) (inClass : Bool) (body : List Stmt) :
    bodyUnwrapped registry inClass (unplacedBody body) = bodyUnwrapped registry inClass body := by
  induction body using bodyInduction generalizing inClass with
  | nil => rfl
  | other stmt rest hclass ih =>
    have hclass' : stmt.unplaced.isClass = false := by rw [isClass_unplaced, hclass]
    rw [unplacedBody, bodyUnwrapped, bodyUnwrapped, isUnwrapped_of_not_class hclass',
      isUnwrapped_of_not_class hclass, attributeExprs_unplaced, resolvesAny_unplaced, ih]
  | classDef line name bases keywords inner decorators rest ihinner ihrest =>
    rw [unplacedBody, Stmt.unplaced, bodyUnwrapped, bodyUnwrapped, Stmt.isUnwrapped, Stmt.isUnwrapped,
      unplacedAll_eq, resolvesAny_unplaced, ihinner, ihrest]

/-- The text of a module, closed by a line end, is read as the same module up to places. -/
def ReadsBack (body : List Stmt) : Prop :=
  ∀ text, printModule body = .ok text →
    ∃ read, parseModule (text ++ "\n") = .ok read ∧ unplacedBody read = unplacedBody body

/-! ## Uneventful expansions -/

theorem eq_of_markStep_nil {filename : String} {stmt : Stmt} {stmts : List Stmt} {events : List Event}
    (h : MarkStep filename stmt stmts events) (hnil : events = []) : stmts = [stmt] := by
  cases h with
  | unmarked hmark => rfl
  | wrapper => cases hnil
  | refused => cases hnil

/-- Without events the first pass changes nothing. -/
theorem eq_of_introspects_nil {filename : String} {body body' : List Stmt} {events : List Event}
    (h : Introspects filename body body' events) (hnil : events = []) : body' = body := by
  induction h with
  | nil => rfl
  | other hclass hstep hrest ih =>
    obtain ⟨hevents, hevents'⟩ := List.append_eq_nil_iff.1 hnil
    rw [eq_of_markStep_nil hstep hevents, ih hevents']
    rfl
  | classDef hbody hstep hrest ihbody ihrest =>
    obtain ⟨hevents, hevents'⟩ := List.append_eq_nil_iff.1 hnil
    obtain ⟨hinner, hevents⟩ := List.append_eq_nil_iff.1 hevents
    rw [eq_of_markStep_nil hstep hevents, ihbody hinner, ihrest hevents']
    rfl

theorem eq_of_memberStep_nil {registry : Registry} {filename : String} {stmt : Stmt}
    {stmts : List Stmt} {events : List Event} (h : MemberStep registry filename stmt stmts events)
    (hnil : events = []) : stmts = [stmt] := by
  cases h with
  | kept hnone => rfl
  | replaced => simp at hnil

/-- Without events the second pass changes nothing. -/
theorem eq_of_expands_nil {registry : Registry} {filename : String} {inClass : Bool}
    {body body' : List Stmt} {events : List Event}
    (h : Expands registry filename inClass body body' events) (hnil : events = []) : body' = body := by
  induction h with
  | nil => rfl
  | other hclass hrest ih => rw [ih hnil]
  | member hclass hstep hrest ih =>
    obtain ⟨hevents, hevents'⟩ := List.append_eq_nil_iff.1 hnil
    rw [eq_of_memberStep_nil hstep hevents, ih hevents']
    rfl
  | classDef hbody hrest ihbody ihrest =>
    obtain ⟨hinner, hevents⟩ := List.append_eq_nil_iff.1 hnil
    rw [ihbody hinner, ihrest hevents]
  | memberClass hbody hstep hrest ihbody ihrest =>
    obtain ⟨hevents, hevents'⟩ := List.append_eq_nil_iff.1 hnil
    obtain ⟨hinner, hevents⟩ := List.append_eq_nil_iff.1 hevents
    rw [eq_of_memberStep_nil hstep hevents, ihbody hinner, ihrest hevents']
    rfl

/-- An expansion without events leaves its module as it is. -/
theorem eq_of_expandModule_nil {registry : Registry} {filename : String} {body body' : List Stmt}
    (h : (expandModule registry filename body).result = .ok body')
    (hnil : (expandModule registry filename body).events = []) : body' = body := by
  obtain ⟨tree, htree, rfl, hevents⟩ := expandModule_result h
  obtain ⟨marked, introspected, synthesized, hfirst, hsecond, hevents'⟩ := expandTree_result htree
  rw [hnil] at hevents
  rw [← hevents] at hevents' ⊢
  obtain ⟨hintrospected, hsynthesized⟩ := List.append_eq_nil_iff.1 hevents'.symm
  rw [eq_of_expands_nil hsecond hsynthesized, eq_of_introspects_nil hfirst hintrospected]
  exact provide_nil body

/-! ## Sources -/

/-- The steps of the expansion of a source. -/
theorem expandSource_result {registry : Registry} {filename source : String} {outcome : Outcome}
    (h : (expandSource registry filename source).result = .ok outcome) :
    ∃ body body', parseModule source = .ok body
      ∧ (expandModule registry filename body).result = .ok body'
      ∧ ((expandModule registry filename body).events = [] ∧ outcome = { source }
        ∨ ∃ text, printModule body' = .ok text
          ∧ outcome = .ofEvents (text ++ "\n") (expandModule registry filename body).events) := by
  obtain ⟨body, hbody, h, -⟩ := Trace.result_bind h
  obtain ⟨body', hbody', h, -⟩ := Trace.result_bind h
  refine ⟨body, body', mapError_eq_ok_iff.1 hbody, hbody', ?_⟩
  split at h
  · rename_i hempty
    cases h
    exact .inl ⟨List.isEmpty_iff.1 hempty, rfl⟩
  · obtain ⟨text, htext, h, -⟩ := Trace.result_bind h
    cases h
    exact .inr ⟨text, Trace.result_printing.1 htext, rfl⟩

/-- The outcome of an expansion in which something happens. -/
theorem expandSource_of_event {registry : Registry} {filename source text : String}
    {body body' : List Stmt} {event : Event} {events : List Event}
    (hread : parseModule source = .ok body)
    (hmodule : expandModule registry filename body = ⟨event :: events, .ok body'⟩)
    (htext : printModule body' = .ok text) :
    (expandSource registry filename source).result
      = .ok (.ofEvents (text ++ "\n") (event :: events)) := by
  unfold expandSource
  rw [hread, Trace.bind_of_ok rfl]
  dsimp only
  rw [hmodule, Trace.bind_of_ok rfl]
  dsimp only
  rw [List.isEmpty_cons, if_neg Bool.false_ne_true, htext, Trace.bind_of_ok rfl]
  rfl

theorem expandSource_of_settled {registry : Registry} {source : String} {body : List Stmt}
    (hread : parseModule source = .ok body) (hunmarked : bodyUnmarked body = true)
    (hunwrapped : bodyUnwrapped registry false body = true) (filename : String) :
    expandSource registry filename source = ⟨[], .ok { source }⟩ := by
  have hmodule := expandModule_of_settled hunmarked hunwrapped filename
  unfold expandSource
  rw [hread, Trace.bind_of_ok rfl]
  dsimp only
  rw [hmodule, Trace.bind_of_ok rfl]
  rfl

/-- Expansion is idempotent for a registry that knows none of the decorators of generated functions and
whose texts are single expressions, on modules in which no definition is marked twice. A second expansion of a tree
leaves it as it is and reports nothing. If the expanded tree is read back from its text, so is a second
expansion of the source. -/
theorem expansion_idempotent (registry : Registry) (hapart : registry.IsApart)
    (hexpressions : registry.HoldsExpressions) :
    (∀ (filename filename' : String) (body body' : List Stmt), bodySound body = true →
      bodyMarksOnce body = true → (expandModule registry filename body).result = .ok body' →
        expandModule registry filename' body' = ⟨[], .ok body'⟩)
    ∧ ∀ (filename filename' source : String) (body body' : List Stmt) (outcome : Outcome),
      parseModule source = .ok body → bodyMarksOnce body = true →
      (expandModule registry filename body).result = .ok body' → ReadsBack body' →
      (expandSource registry filename source).result = .ok outcome →
        expandSource registry filename' outcome.source = ⟨[], .ok { source := outcome.source }⟩ := by
  constructor
  · intro filename filename' body body' hsound hmarks h
    obtain ⟨hunmarked, hunwrapped⟩ := settled_of_expandModule hapart hexpressions.fits hsound hmarks h
    exact expandModule_of_settled hunmarked hunwrapped filename'
  · intro filename filename' source body body' outcome hread hmarks hexpand hback h
    have hsound := bodySound_parseModule hread
    obtain ⟨hunmarked, hunwrapped⟩ := settled_of_expandModule hapart hexpressions.fits hsound hmarks hexpand
    obtain ⟨body₁, body₁', hread₁, hexpand₁, hcases⟩ := expandSource_result h
    obtain rfl : body = body₁ := Except.ok.inj (hread.symm.trans hread₁)
    obtain rfl : body' = body₁' := Except.ok.inj (hexpand.symm.trans hexpand₁)
    rcases hcases with ⟨hnil, rfl⟩ | ⟨text, htext, rfl⟩
    · obtain rfl := eq_of_expandModule_nil hexpand hnil
      exact expandSource_of_settled hread hunmarked hunwrapped filename'
    · obtain ⟨read, hread', hsame⟩ := hback text htext
      refine expandSource_of_settled hread' ?_ ?_ filename'
      · rw [← bodyUnmarked_unplaced, hsame, bodyUnmarked_unplaced, hunmarked]
      · rw [← bodyUnwrapped_unplaced, hsame, bodyUnwrapped_unplaced, hunwrapped]

/-! ## An instance -/

/-- A registry with one wrapper, which keeps all defaults. -/
def soleWrapper : Registry := ⟨[(.text "E", {})]⟩

theorem isApart_soleWrapper : soleWrapper.IsApart := by
  have hother : ∀ name : String, name ≠ "E" → soleWrapper.find? (.text name) = none := by
    intro name hname
    have hne : (Document.Scalar.text name == .text "E") = false := by simpa using hname
    rw [soleWrapper, Registry.find?, List.lookup_cons, hne]
    rfl
  have hresolve : ∀ name : String, lastComponent name ≠ "E" →
      soleWrapper.resolve (some name) = none := by
    intro name hlast
    have hname : name ≠ "E" := by
      rintro rfl
      exact hlast (by decide)
    simp only [Registry.resolve, Option.bind_some, hother name hname, hother _ hlast]
    rfl
  have hproperty : lastComponent "property" ≠ "E" := by decide
  have hstorage : lastComponent "cached_property" ≠ "E" := by decide
  intro mark name
  cases mark with
  | property => exact hresolve _ hproperty
  | storage => exact hresolve _ hstorage
  | setter =>
    apply hresolve
    rw [Mark.reference, lastComponent_setter]
    decide

theorem holdsExpressions_soleWrapper : soleWrapper.HoldsExpressions := by
  intro entry hentry
  obtain rfl := List.mem_singleton.1 hentry
  exact ⟨by simp, by simp⟩

/-- A class with one wrapped property. -/
def wrappedSource : String := "class A:\n    x: Annotated[int, E]\n"

/-- The class with its property expanded, as it is printed. -/
def expandedText : String :=
  "from functools import cached_property\nfrom typing import Final\n\nclass A:\n\n    @property\n" ++
  "    def x(self) -> int:\n        return self._x.wrapped_value\n\n    @cached_property\n" ++
  "    def _x(self) -> Final[E]:\n        return E()"

def wrappedTree : List Stmt :=
  [.classDef 1 "A" [] [] [.annAssign 2 (.name ⟨2, 4⟩ "x")
    (.subscript ⟨2, 7⟩ (.name ⟨2, 7⟩ "Annotated")
      (.tuple ⟨2, 17⟩ [.name ⟨2, 17⟩ "int", .name ⟨2, 22⟩ "E"])) none true] []]

/-- The tree of the expanded class, by the lines of its parts and the column of its body. -/
def expandedTree (final line getter storage column : Nat) : List Stmt :=
  let receiver := Parameters.mk [] [.mk "self" none none] none [] none
  let value : Position := ⟨getter + 2, column + 11⟩
  let created : Position := ⟨storage + 2, column + 11⟩
  [.importFrom 1 0 (some "functools") [⟨"cached_property", none⟩],
   .importFrom final 0 (some "typing") [⟨"Final", none⟩],
   .classDef line "A" [] [] [
     .function (getter + 1) false "x" receiver
       [.ret (getter + 2) (some (.attribute value (.attribute value (.name value "self") "_x")
         "wrapped_value"))]
       [.name ⟨getter, column + 1⟩ "property"] (some (.name ⟨getter + 1, column + 15⟩ "int")),
     .function (storage + 1) false "_x" receiver
       [.ret (storage + 2) (some (.call created (.name created "E") [] []))]
       [.name ⟨storage, column + 1⟩ "cached_property"]
       (some (.subscript ⟨storage + 1, column + 16⟩ (.name ⟨storage + 1, column + 16⟩ "Final")
         (.name ⟨storage + 1, column + 22⟩ "E")))] []]

theorem parseModule_wrappedSource : parseModule wrappedSource = .ok wrappedTree := by
  rw [Direct.parseModule_eq]
  rfl

theorem expandModule_wrappedTree : expandModule soleWrapper "m.py" wrappedTree
    = ⟨[.synthesized "x" "E" .immutable], .ok (expandedTree 1 1 1 1 0)⟩ := by
  rw [Direct.expandModule_eq]
  rfl

theorem printModule_expandedTree : printModule (expandedTree 1 1 1 1 0) = .ok expandedText :=
  eq_ok_of_toOption (by decide +kernel)

set_option maxRecDepth 8000 in
theorem readsBack_expandedTree : ReadsBack (expandedTree 1 1 1 1 0) := by
  intro text htext
  obtain rfl : expandedText = text :=
    Except.ok.inj (printModule_expandedTree.symm.trans htext)
  have hread : parseModule (expandedText ++ "\n") = .ok (expandedTree 2 4 6 10 4) := by
    rw [Direct.parseModule_eq]
    rfl
  have hsame : unplacedBody (expandedTree 2 4 6 10 4) = unplacedBody (expandedTree 1 1 1 1 0) := by
    rfl
  exact ⟨expandedTree 2 4 6 10 4, hread, hsame⟩

/-- The expanded class and its text are left as they are. -/
theorem expansion_idempotent_soleWrapper :
    expandModule soleWrapper "m.py" (expandedTree 1 1 1 1 0) = ⟨[], .ok (expandedTree 1 1 1 1 0)⟩
    ∧ expandSource soleWrapper "m.py" (expandedText ++ "\n")
      = ⟨[], .ok { source := expandedText ++ "\n" }⟩ := by
  have hexpand : (expandModule soleWrapper "m.py" wrappedTree).result
      = .ok (expandedTree 1 1 1 1 0) := by
    rw [expandModule_wrappedTree]
  have hsource := expandSource_of_event parseModule_wrappedSource expandModule_wrappedTree
    printModule_expandedTree
  have hsound : bodySound wrappedTree = true := by rfl
  have hmarks : bodyMarksOnce wrappedTree = true := by rfl
  obtain ⟨htrees, hsources⟩ :=
    expansion_idempotent soleWrapper isApart_soleWrapper holdsExpressions_soleWrapper
  have htree := htrees "m.py" "m.py" wrappedTree _ hsound hmarks hexpand
  have hagain := hsources "m.py" "m.py" wrappedSource wrappedTree _ _ parseModule_wrappedSource hmarks
    hexpand readsBack_expandedTree hsource
  exact ⟨htree, hagain⟩

end PropertyWrapper
