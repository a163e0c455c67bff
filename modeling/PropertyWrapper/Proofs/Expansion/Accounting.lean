import PropertyWrapper.Proofs.Expansion.Counts
import PropertyWrapper.Proofs.Expansion.Reach

/-!
# What is reported about each attachment

Nothing that the passes come across is lost or reported twice: a mark gives a configuration or a problem,
and a statement of a class body with a wrapper attached to it gives an expansion or a problem.

* `Reported` : what the second pass reports about some statements of class bodies;
* `reported_of_steps` : its steps report this;
* `Accounted` : what an outcome says, by what the passes reach in a module;
* `accounted_of_expandSource` : every outcome says this.
-/

namespace PropertyWrapper

open Source

/-! ## Marks and attachments -/

/-- Whether a statement has a wrapper mark. -/
def Source.Stmt.isMarked (stmt : Stmt) : Bool := stmt.decorators.any isWrapperMark

/-- Whether an attribute of a statement refers to a registered wrapper. -/
def Source.Stmt.isAttached (registry : Registry) (stmt : Stmt) : Bool :=
  registry.resolvesAny (attributeExprs stmt)

/-- Whether a statement annotates a plain name. -/
def Source.Stmt.annotatesName : Stmt → Bool
  | .annAssign _ (.name ..) _ _ _ => true
  | _ => false

/-- Whether a wrapper is attached to something other than a plain name. -/
def Source.Stmt.isRefused (registry : Registry) (stmt : Stmt) : Bool :=
  stmt.isAttached registry && !stmt.annotatesName

/-- The problem that the first wrapper attached to a statement gives in a file when it cannot be
expanded. -/
def RefusedAs (registry : Registry) (filename : String) (stmt : Stmt) (diagnostic : Diagnostic) : Prop :=
  ∃ first extras attr, attachments registry stmt = first :: extras ∧ liftAttribute first.entry = .ok attr
    ∧ diagnostic = (Diagnostic.at? .unexpectedTarget (some attr)).inFile filename

/-- How many diagnostics report a problem. -/
def problemCount (problem : Problem) (diagnostics : List Diagnostic) : Nat :=
  diagnostics.countP (·.problem = problem)

theorem problemCount_append (problem : Problem) (diagnostics diagnostics' : List Diagnostic) :
    problemCount problem (diagnostics ++ diagnostics')
      = problemCount problem diagnostics + problemCount problem diagnostics' :=
  List.countP_append

theorem wrapperMark?_isSome (stmt : Stmt) : (wrapperMark? stmt).isSome = stmt.isMarked := by
  exact List.isSome_find?

theorem isWrapped_eq (registry : Registry) (stmt : Stmt) :
    stmt.isWrapped registry = (stmt.isAttached registry && stmt.annotatesName) := by
  cases stmt with
  | annAssign line target hint value bare =>
    cases target with
    | name => exact (Bool.and_true _).symm
    | _ => exact (Bool.and_false _).symm
  | _ => exact (Bool.and_false _).symm

theorem isAttached_iff {registry : Registry} {stmt : Stmt} :
    stmt.isAttached registry = true ↔ attachments registry stmt ≠ [] := by
  rw [Ne, attachments_eq_nil_iff, Bool.not_eq_false]
  rfl

section SameHead

variable {stmt stmt' : Stmt}

theorem SameHead.annotatesName_eq (h : SameHead stmt stmt') :
    stmt'.annotatesName = stmt.annotatesName := by
  cases h <;> rfl

theorem SameHead.isAttached_eq (h : SameHead stmt stmt') (registry : Registry) :
    stmt'.isAttached registry = stmt.isAttached registry := by
  rw [Stmt.isAttached, Stmt.isAttached, h.attributeExprs_eq]

theorem SameHead.isRefused_eq (h : SameHead stmt stmt') (registry : Registry) :
    stmt'.isRefused registry = stmt.isRefused registry := by
  rw [Stmt.isRefused, Stmt.isRefused, h.isAttached_eq, h.annotatesName_eq]

theorem SameHead.isWrapped_eq (h : SameHead stmt stmt') (registry : Registry) :
    stmt'.isWrapped registry = stmt.isWrapped registry := by
  rw [PropertyWrapper.isWrapped_eq, PropertyWrapper.isWrapped_eq, h.isAttached_eq, h.annotatesName_eq]

theorem SameHead.refusedAs (h : SameHead stmt stmt') {registry : Registry} {filename : String}
    {diagnostic : Diagnostic} (hrefused : RefusedAs registry filename stmt' diagnostic) :
    RefusedAs registry filename stmt diagnostic := by
  obtain ⟨first, extras, attr, hsome, hattr, heq⟩ := hrefused
  rw [h.attachments_eq] at hsome
  exact ⟨first, extras, attr, hsome, hattr, heq⟩

end SameHead

/-! ## Reports of the second pass -/

/-- What the second pass reports about some statements of class bodies. -/
structure Reported (registry : Registry) (filename : String) (members : List Stmt)
    (events : List Event) : Prop where
  expanded : expandedCount events = members.countP (Stmt.isWrapped registry)
  refused : List.Forall₂ (RefusedAs registry filename) (members.filter (Stmt.isRefused registry))
    (events.filterMap Event.diagnostic?)
  ignored : (events.filterMap Event.warning?).length
    = (members.map fun stmt => (attachments registry stmt).length - 1).sum
  configs : events.filterMap Event.config? = []

namespace Reported

variable {registry : Registry} {filename : String}

theorem nil : Reported registry filename [] [] := ⟨rfl, .nil, rfl, rfl⟩

theorem append {members members' : List Stmt} {events events' : List Event}
    (h : Reported registry filename members events) (h' : Reported registry filename members' events') :
    Reported registry filename (members ++ members') (events ++ events') where
  expanded := by rw [expandedCount_append, List.countP_append, h.expanded, h'.expanded]
  refused := by
    rw [List.filter_append, List.filterMap_append]
    exact List.rel_append h.refused h'.refused
  ignored := by
    rw [List.filterMap_append, List.length_append, List.map_append, List.sum_append, h.ignored,
      h'.ignored]
  configs := by rw [List.filterMap_append, h.configs, h'.configs, List.append_nil]

/-- What is reported about a class does not depend on its body. -/
theorem of_sameHead {stmt stmt' : Stmt} {events : List Event} (hsame : SameHead stmt stmt')
    (h : Reported registry filename [stmt'] events) : Reported registry filename [stmt] events where
  expanded := by
    rw [h.expanded, List.countP_singleton, List.countP_singleton, hsame.isWrapped_eq]
  refused := by
    have hrefused := h.refused
    rw [List.filter_singleton, hsame.isRefused_eq] at hrefused
    rw [List.filter_singleton]
    cases hcase : stmt.isRefused registry with
    | false =>
      rw [hcase] at hrefused
      exact hrefused
    | true =>
      rw [hcase] at hrefused
      obtain ⟨diagnostic, rest, hdiagnostic, hrest, heq⟩ := List.forall₂_cons_left_iff.1 hrefused
      rw [heq]
      exact .cons (hsame.refusedAs hdiagnostic) hrest
  ignored := by
    rw [h.ignored, List.map_singleton, List.map_singleton, hsame.attachments_eq]
  configs := h.configs

end Reported

/-- Each further wrapper is warned of once. -/
theorem warnings_ignoreAttachments {line : Nat} {extras : List Attachment}
    (h : (ignoreAttachments line extras).result = .ok ()) :
    ((ignoreAttachments line extras).events.filterMap Event.warning?).length = extras.length := by
  induction extras with
  | nil => rfl
  | cons extra extras ih =>
    rw [ignoreAttachments] at h ⊢
    obtain ⟨text, -, h, hevents⟩ := Trace.result_bind h
    obtain ⟨_, -, h, hevents'⟩ := Trace.result_bind h
    rw [hevents, hevents', Trace.events_printing, Trace.events_note, List.nil_append,
      List.singleton_append]
    change (_ :: List.filterMap _ _).length = _
    rw [List.length_cons, List.length_cons, ih h]

/-- Warnings are neither problems nor configurations. -/
theorem quiet_of_warnings {events : List Event} (h : ∀ event ∈ events, event.isWarning = true) :
    events.filterMap Event.diagnostic? = [] ∧ events.filterMap Event.config? = [] := by
  rw [List.filterMap_eq_nil_iff, List.filterMap_eq_nil_iff]
  constructor
  · intro event hevent
    have hwarning := h event hevent
    cases event with
    | ignored text line => rfl
    | _ => cases hwarning
  · intro event hevent
    have hwarning := h event hevent
    cases event with
    | ignored text line => rfl
    | _ => cases hwarning

/-- What is noted about a synthesis: a storage, or the problem with its target. -/
theorem synthesisEvent_cases (filename : String) (config : WrapperConfig) (attr : Attribute)
    (target : Target) :
    (target.single?.isSome = true
        ∧ [synthesisEvent filename config attr target].filterMap Event.diagnostic? = [])
      ∨ (target.single?.isSome = false
        ∧ [synthesisEvent filename config attr target].filterMap Event.diagnostic?
          = [(Diagnostic.at? .unexpectedTarget (some attr)).inFile filename]) := by
  unfold synthesisEvent synthesize
  cases target.single? with
  | none => exact .inr ⟨rfl, rfl⟩
  | some single => exact .inl ⟨rfl, rfl⟩

/-- Nothing is reported about a statement without a wrapper. -/
theorem reported_of_kept {registry : Registry} {stmt : Stmt} (filename : String)
    (hnone : attachments registry stmt = []) : Reported registry filename [stmt] [] := by
  have hattached : stmt.isAttached registry = false := attachments_eq_nil_iff.1 hnone
  refine ⟨?_, ?_, ?_, rfl⟩
  · rw [List.countP_singleton, isWrapped_eq, hattached]
    rfl
  · rw [List.filter_singleton, Stmt.isRefused, hattached]
    exact .nil
  · rw [List.map_singleton, hnone]
    rfl

/-- An expansion or a problem is reported about a statement with a wrapper, and a warning for each
further one. -/
theorem reported_of_attached {registry : Registry} {filename : String} {stmt : Stmt} {stmts : List Stmt}
    {first : Attachment} {extras : List Attachment} (hsome : attachments registry stmt = first :: extras)
    (h : (expandAttached filename stmt first extras).result = .ok stmts) :
    Reported registry filename [stmt] (expandAttached filename stmt first extras).events := by
  obtain ⟨_, hignore, h, hevents⟩ := Trace.result_bind h
  obtain ⟨attr, hattr, h, hevents₁⟩ := Trace.result_bind h
  obtain ⟨target, htarget, h, hevents₂⟩ := Trace.result_bind h
  obtain ⟨_, -, h, hevents₃⟩ := Trace.result_bind h
  rw [Trace.result_printing] at hattr htarget
  have hall : (expandAttached filename stmt first extras).events
      = (ignoreAttachments stmt.line extras).events
        ++ [synthesisEvent filename first.config attr target] := by
    rw [expandAttached, hevents, hevents₁, hevents₂, hevents₃]
    rfl
  have hwarnings := isWarning_of_ignoreAttachments hignore
  obtain ⟨hquiet, hquiet'⟩ := quiet_of_warnings hwarnings
  have hne : attachments registry stmt ≠ [] := by simp [hsome]
  have hattached := isAttached_iff.2 hne
  have hsingle := isSome_single?_liftTarget hne htarget
  have hname : target.single?.isSome = stmt.annotatesName := by
    rw [hsingle, isWrapped_eq, hattached, Bool.true_and]
  -- The warnings come first; what is noted last is an expansion or a problem, by the shape of the target.
  rw [hall]
  constructor
  · rw [expandedCount_append, expandedCount_of_warnings hwarnings, expandedCount_synthesisEvent,
      hsingle, Nat.zero_add, List.countP_singleton]
    cases stmt.isWrapped registry <;> rfl
  · rw [List.filterMap_append, hquiet, List.nil_append, List.filter_singleton, Stmt.isRefused, hattached,
      ← hname]
    rcases synthesisEvent_cases filename first.config attr target with ⟨hplain, hnone⟩ | ⟨hplain, hproblem⟩
    · rw [hplain, hnone]
      exact .nil
    · rw [hplain, hproblem]
      exact .cons ⟨first, extras, attr, hsome, hattr, rfl⟩ .nil
  · rw [List.filterMap_append, List.length_append, warnings_ignoreAttachments hignore, List.map_singleton,
      List.sum_singleton, hsome, List.length_cons, Nat.add_sub_cancel]
    unfold synthesisEvent
    split <;> rfl
  · rw [List.filterMap_append, hquiet', List.nil_append]
    unfold synthesisEvent
    split <;> rfl

/-- What the second pass reports about one statement of a class body. -/
theorem reported_of_expandMember {registry : Registry} {filename : String} {stmt : Stmt}
    {stmts : List Stmt} (h : (expandMember registry filename stmt).result = .ok stmts) :
    Reported registry filename [stmt] (expandMember registry filename stmt).events := by
  cases hcase : attachments registry stmt with
  | nil =>
    have hexpand : expandMember registry filename stmt = pure [stmt] := by rw [expandMember, hcase]
    rw [hexpand]
    exact reported_of_kept filename hcase
  | cons first extras =>
    have hexpand : expandMember registry filename stmt = expandAttached filename stmt first extras := by
      rw [expandMember, hcase]
    rw [hexpand] at h ⊢
    exact reported_of_attached hcase h

/-- The steps of the second pass report this about the statements that it reaches. -/
theorem reported_of_steps {registry : Registry} {filename : String} {members treated : List Stmt}
    {events : List Event} (h : Steps registry filename members treated events) :
    Reported registry filename members events := by
  obtain ⟨hsame, hresult, rfl⟩ := h
  induction hsame with
  | nil => exact .nil
  | @cons stmt stmt' members treated hstmt hrest ih =>
    obtain ⟨⟨stmts, hstmts⟩, hothers⟩ := List.forall_mem_cons.1 hresult
    have hfirst := (reported_of_expandMember hstmts).of_sameHead hstmt
    rw [List.flatMap_cons]
    exact hfirst.append (ih hothers)

/-! ## Outcomes -/

/-- What an outcome says, with the warnings on the way: `body` is the module, `marked` what the first
pass makes of it, and `extended` the registry of the second pass. -/
structure Accounted (extended : Registry) (filename : String) (body marked : List Stmt)
    (outcome : Outcome) (warnings : List String) : Prop where
  /-- Each marked statement gives a configuration or a problem of the first pass. -/
  marks : (bodyReached body).countP Stmt.isMarked
    = outcome.generated + problemCount .unsupportedDeclaration outcome.diagnostics
      + problemCount .missingWrappedValue outcome.diagnostics
  /-- Each statement with a wrapper gives an expansion or a problem of the second pass. -/
  attached : ((bodyMembers false marked).countP (Stmt.isAttached extended) : Int)
    = outcome.expanded + problemCount .unexpectedTarget outcome.diagnostics
  /-- The problems of the second pass are those of the statements that annotate no plain name. -/
  refusals : problemCount .unexpectedTarget outcome.diagnostics
    = (bodyMembers false marked).countP fun stmt => stmt.isAttached extended && !stmt.annotatesName
  /-- Each wrapper behind the first one of a statement gives a warning. -/
  warnings : warnings.length
    = ((bodyMembers false marked).map fun stmt => (attachments extended stmt).length - 1).sum
  /-- The problems of the first pass come first. Both are in the order of the statements, and each tells
  the attribute that it is about. -/
  diagnostics : ∃ verdicts refusals,
    List.Forall₂ (MarkSite.Judged filename) (bodyMarkSites filename body) verdicts
      ∧ List.Forall₂ (RefusedAs extended filename)
        ((bodyMembers false marked).filter (Stmt.isRefused extended)) refusals
      ∧ outcome.configs = verdicts.filterMap Except.toOption
      ∧ outcome.diagnostics = verdicts.filterMap Verdict.refusal? ++ refusals

/-- A mark is refused for one of the two problems of types. -/
theorem problem_of_judged {filename : String} {site : MarkSite} {diagnostic : Diagnostic}
    (h : site.Judged filename (.error diagnostic)) :
    diagnostic.problem = .unsupportedDeclaration ∨ diagnostic.problem = .missingWrappedValue := by
  obtain ⟨attr, declaration, -, -, hverdict⟩ := h
  rw [expandWrapper, introspect] at hverdict
  split at hverdict
  · cases hverdict
  · rename_i problem hproblem
    cases hverdict
    split at hproblem
    · split at hproblem
      · cases hproblem
        exact .inr rfl
      · cases hproblem
    · cases hproblem
      exact .inl rfl

/-- Verdicts are configurations, types of an unsupported kind, and types without a wrapped value. -/
theorem length_verdicts {filename : String} {sites : List MarkSite} {verdicts : List Verdict}
    (h : List.Forall₂ (MarkSite.Judged filename) sites verdicts) :
    sites.length = (verdicts.filterMap Except.toOption).length
        + problemCount .unsupportedDeclaration (verdicts.filterMap Verdict.refusal?)
        + problemCount .missingWrappedValue (verdicts.filterMap Verdict.refusal?)
      ∧ problemCount .unexpectedTarget (verdicts.filterMap Verdict.refusal?) = 0 := by
  induction h with
  | nil => exact ⟨rfl, rfl⟩
  | @cons site verdict sites verdicts hsite hrest ih =>
    -- One more verdict adds one to the configurations or to one of the two kinds of problems.
    obtain ⟨hlength, hnone⟩ := ih
    cases verdict with
    | ok declaration =>
      have hconfigs : (Except.ok declaration :: verdicts).filterMap Except.toOption
          = declaration :: verdicts.filterMap Except.toOption := rfl
      have hproblems : (Except.ok declaration :: verdicts).filterMap Verdict.refusal?
          = verdicts.filterMap Verdict.refusal? := rfl
      rw [hconfigs, hproblems, List.length_cons, List.length_cons, hlength]
      exact ⟨by omega, hnone⟩
    | error diagnostic =>
      have hconfigs : (Except.error diagnostic :: verdicts).filterMap Except.toOption
          = verdicts.filterMap Except.toOption := rfl
      have hproblems : (Except.error diagnostic :: verdicts).filterMap Verdict.refusal?
          = diagnostic :: verdicts.filterMap Verdict.refusal? := rfl
      rw [hconfigs, hproblems, List.length_cons, hlength]
      rcases problem_of_judged hsite with hproblem | hproblem
      · simp only [problemCount, List.countP_cons, hproblem] at hnone ⊢
        simp [hnone]
        omega
      · simp only [problemCount, List.countP_cons, hproblem] at hnone ⊢
        simp [hnone]
        omega

theorem length_bodyMarkSites (filename : String) (body : List Stmt) :
    (bodyMarkSites filename body).length = (bodyReached body).countP Stmt.isMarked := by
  have hmarks := congrArg List.length (mark_bodyMarkSites filename body)
  rw [List.length_map, List.length_filterMap_eq_countP] at hmarks
  rw [hmarks]
  congr 1
  funext stmt
  exact wrapperMark?_isSome stmt

/-- All refusals of the second pass are about targets. -/
theorem problemCount_refusals {registry : Registry} {filename : String} {members : List Stmt}
    {refusals : List Diagnostic} (h : List.Forall₂ (RefusedAs registry filename) members refusals) :
    problemCount .unexpectedTarget refusals = members.length
      ∧ problemCount .unsupportedDeclaration refusals = 0
      ∧ problemCount .missingWrappedValue refusals = 0 := by
  have hall : ∀ diagnostic ∈ refusals, diagnostic.problem = .unexpectedTarget := by
    induction h with
    | nil => simp
    | cons hfirst hrest ih =>
      obtain ⟨_, _, attr, -, -, rfl⟩ := hfirst
      exact List.forall_mem_cons.2 ⟨rfl, ih⟩
  refine ⟨?_, ?_, ?_⟩
  · rw [problemCount, h.length_eq, List.countP_eq_length]
    simpa using hall
  · rw [problemCount, List.countP_eq_zero]
    intro diagnostic hdiagnostic
    simp [hall diagnostic hdiagnostic]
  · rw [problemCount, List.countP_eq_zero]
    intro diagnostic hdiagnostic
    simp [hall diagnostic hdiagnostic]

/-- What an expansion notes about a source is what it notes about its module, and the outcome tells it. -/
theorem events_expandSource {registry : Registry} {filename source : String} {body : List Stmt}
    {outcome : Outcome} (hread : parseModule source = .ok body)
    (h : (expandSource registry filename source).result = .ok outcome) :
    (expandSource registry filename source).events = (expandModule registry filename body).events
      ∧ outcome.configs = (expandModule registry filename body).events.filterMap Event.config?
      ∧ outcome.diagnostics = (expandModule registry filename body).events.filterMap Event.diagnostic?
      ∧ outcome.expanded = expandedCount (expandModule registry filename body).events := by
  unfold expandSource at h ⊢
  obtain ⟨body₁, hread₁, h, hevents⟩ := Trace.result_bind h
  obtain rfl : body = body₁ := Except.ok.inj (hread.symm.trans (mapError_eq_ok_iff.1 hread₁))
  obtain ⟨body', -, h, hevents'⟩ := Trace.result_bind h
  rw [hevents, Trace.events_ofResult, List.nil_append, hevents']
  split at h
  · rename_i hempty
    cases h
    rw [List.isEmpty_iff.1 hempty]
    exact ⟨rfl, rfl, rfl, rfl⟩
  · rename_i hsome
    obtain ⟨text, -, h, hevents''⟩ := Trace.result_bind h
    cases h
    rw [if_neg hsome, hevents'']
    exact ⟨List.append_nil _, rfl, rfl, rfl⟩

/-- A statement with a wrapper is either wrapped or refused. -/
theorem countP_isAttached (registry : Registry) (members : List Stmt) :
    members.countP (Stmt.isAttached registry)
      = members.countP (Stmt.isWrapped registry) + members.countP (Stmt.isRefused registry) := by
  induction members with
  | nil => rfl
  | cons stmt members ih =>
    rw [List.countP_cons, List.countP_cons, List.countP_cons, ih, isWrapped_eq, Stmt.isRefused]
    cases stmt.isAttached registry
    · simp
    · cases stmt.annotatesName
      · simp
        omega
      · simp
        omega

/-- Every mark and every attached wrapper is accounted for exactly once in what an expansion of a source
reports. -/
theorem accounted_of_expandSource (registry : Registry) (filename source : String) (body : List Stmt)
    (outcome : Outcome) (hread : parseModule source = .ok body)
    (h : (expandSource registry filename source).result = .ok outcome) :
    ∃ marked, (introspectBody filename body).result = .ok marked
      ∧ Accounted (registry.overlay (configEntries (introspectBody filename body).events)) filename body
        marked outcome ((expandSource registry filename source).events.filterMap Event.warning?) := by
  obtain ⟨hevents, hconfigs, hdiagnostics, hexpanded⟩ := events_expandSource hread h
  obtain ⟨body₁, body', hread₁, hexpand, -⟩ := expandSource_result h
  obtain rfl : body = body₁ := Except.ok.inj (hread.symm.trans hread₁)
  obtain ⟨tree, htree, -, hevents₁⟩ := expandModule_result hexpand
  obtain ⟨marked, hmarked, htree', hevents₂⟩ := Trace.result_bind htree
  obtain ⟨verdicts, hverdicts, hfirst⟩ := verdicts_of_introspectBody body hmarked
  obtain ⟨treated, hsteps⟩ := steps_of_expandBody marked htree'
  have hsecond := reported_of_steps hsteps
  -- The outcome is read off the events of both passes, one behind the other.
  change (expandTree registry filename body).events = _ at hevents₂
  rw [hevents₁, hevents₂] at hevents hconfigs hdiagnostics hexpanded
  obtain ⟨hlength, hnone⟩ := length_verdicts hverdicts
  obtain ⟨hrefusals, hunsupported, hmissing⟩ := problemCount_refusals hsecond.refused
  rw [List.filterMap_append, hfirst.configs, hsecond.configs, List.append_nil] at hconfigs
  rw [List.filterMap_append, hfirst.diagnostics] at hdiagnostics
  have hstorages : expandedCount (introspectBody filename body).events = 0 := by
    rw [expandedCount, hfirst.storages]
    rfl
  rw [expandedCount_append, hstorages, Nat.zero_add, hsecond.expanded] at hexpanded
  refine ⟨marked, hmarked, ?_⟩
  constructor
  · rw [← length_bodyMarkSites, hlength, Outcome.generated, hconfigs, hdiagnostics, problemCount_append,
      problemCount_append, hunsupported, hmissing]
    rfl
  · rw [hexpanded, hdiagnostics, problemCount_append, hnone, Nat.zero_add, hrefusals,
      ← List.countP_eq_length_filter, countP_isAttached]
    exact Int.natCast_add _ _
  · rw [hdiagnostics, problemCount_append, hnone, Nat.zero_add, hrefusals, List.countP_eq_length_filter]
    rfl
  · rw [hevents, List.filterMap_append, hfirst.warnings, List.nil_append, hsecond.ignored]
  · exact ⟨verdicts, _, hverdicts, hsecond.refused, hconfigs, hdiagnostics⟩

/-! ## An instance -/

/-- A class with a wrapper type, a property with two wrappers and a function with one, and a marked
function. -/
def attachedSource : String :=
  "class A:\n    @macrofy\n    class W:\n        wrapped_value: int\n" ++
  "    x: Annotated[int, W, E]\n    @E\n    def g(self):\n        pass\n@macrofy\ndef f():\n    pass\n"

/-- What is reported about the source: the number of expansions, the configurations and the problems. -/
def attachedReport : Int × List ConfigDeclaration × List Diagnostic :=
  (1,
   [{ name := "WMacro"
      config := { wrappedIsSettable := true, isReference := true }
      wrapper := "W" }],
   [{ problem := .unsupportedDeclaration
      attributeName := "macrofy"
      line := 9
      column := 1
      filename := "m.py" },
    { problem := .unexpectedTarget
      attributeName := "E"
      line := 6
      column := 5
      filename := "m.py" }])

theorem expandSource_attachedSource :
    (parseModule attachedSource).toOption.isSome = true
      ∧ ((expandSource soleWrapper "m.py" attachedSource).result.toOption.map fun outcome =>
        (outcome.expanded, outcome.configs, outcome.diagnostics)) = some attachedReport
      ∧ (expandSource soleWrapper "m.py" attachedSource).events.filterMap Event.warning?
        = ["Only one wrapper per property is expanded; ignoring E on line 5"] := by
  simp only [Direct.parseModule_eq, Direct.expandSource_eq]
  decide +kernel

/-- The two marks, the two statements with wrappers and the further wrapper are accounted for. -/
theorem accounted_attachedSource :
    ∃ body marked outcome, parseModule attachedSource = .ok body
      ∧ (expandSource soleWrapper "m.py" attachedSource).result = .ok outcome
      ∧ (outcome.expanded, outcome.configs, outcome.diagnostics) = attachedReport
      ∧ (introspectBody "m.py" body).result = .ok marked
      ∧ Accounted (soleWrapper.overlay (configEntries (introspectBody "m.py" body).events)) "m.py" body
        marked outcome ["Only one wrapper per property is expanded; ignoring E on line 5"] := by
  obtain ⟨hsome, hmap, hwarnings⟩ := expandSource_attachedSource
  obtain ⟨body, hbody⟩ := Option.isSome_iff_exists.1 hsome
  obtain ⟨outcome, houtcome, hreport⟩ := Option.map_eq_some_iff.1 hmap
  have hread := eq_ok_of_toOption hbody
  have hexpand := eq_ok_of_toOption houtcome
  obtain ⟨marked, hmarked, haccounted⟩ :=
    accounted_of_expandSource soleWrapper "m.py" attachedSource body outcome hread hexpand
  rw [hwarnings] at haccounted
  exact ⟨body, marked, outcome, hread, hexpand, hreport, hmarked, haccounted⟩

end PropertyWrapper
