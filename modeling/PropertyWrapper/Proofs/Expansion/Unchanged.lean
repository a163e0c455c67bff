import PropertyWrapper.Proofs.Expansion.Accounting

/-!
# Unchanged modules

An expansion changes a source exactly if it finds a mark or a statement with a wrapper, and exactly if it has
something to report.

* `HasNothing` : an expansion finds nothing in a module;
* `bodyUnmarked_iff`, `bodyUnwrapped_iff` : the checks for settled modules, by the statements that are reached;
* `hasNothing_of_expandTree` : where nothing is reported nothing was found;
* `unchanged_iff` : a source stays unchanged exactly if nothing is reported, and if nothing is found in it.
-/

namespace PropertyWrapper

open Source

/-- An expansion finds nothing in a module: no definition at module level or in a class body is marked, and
no wrapper is attached to a statement of a class body. -/
structure HasNothing (registry : Registry) (body : List Stmt) : Prop where
  unmarked : ∀ stmt ∈ bodyReached body, stmt.isMarked = false
  unattached : ∀ stmt ∈ bodyMembers false body, stmt.isAttached registry = false

/-! ## Settled modules -/

theorem bodyUnmarked_iff (body : List Stmt) :
    bodyUnmarked body = true ↔ ∀ stmt ∈ bodyReached body, stmt.isMarked = false := by
  induction body using bodyInduction with
  | nil => simp [bodyUnmarked, bodyReached]
  | other stmt rest hclass ih =>
    rw [bodyUnmarked, isUnmarked_of_not_class hclass, bodyReached, reached_of_not_class hclass,
      Bool.and_eq_true, Bool.not_eq_true', ih, List.forall_mem_append, List.forall_mem_singleton]
    rfl
  | classDef line name bases keywords inner decorators rest ihinner ihrest =>
    rw [bodyUnmarked, Stmt.isUnmarked, bodyReached, Stmt.reached, Bool.and_eq_true, Bool.and_eq_true,
      Bool.not_eq_true', ihinner, ihrest, List.forall_mem_append, List.forall_mem_append,
      List.forall_mem_singleton]
    rfl

theorem bodyUnwrapped_iff (registry : Registry) (inClass : Bool) (body : List Stmt) :
    bodyUnwrapped registry inClass body = true
      ↔ ∀ stmt ∈ bodyMembers inClass body, stmt.isAttached registry = false := by
  induction body using bodyInduction generalizing inClass with
  | nil => simp [bodyUnwrapped, bodyMembers]
  | other stmt rest hclass ih =>
    rw [bodyUnwrapped, isUnwrapped_of_not_class hclass, bodyMembers, members_of_not_class hclass,
      Bool.and_eq_true, ih, List.forall_mem_append]
    cases inClass with
    | false => simp
    | true => simp [Stmt.isAttached]
  | classDef line name bases keywords inner decorators rest ihinner ihrest =>
    rw [bodyUnwrapped, Stmt.isUnwrapped, bodyMembers, Stmt.members, Bool.and_eq_true, Bool.and_eq_true,
      ihinner, ihrest, List.forall_mem_append, List.forall_mem_append]
    cases inClass with
    | false => simp
    | true => simp [Stmt.isAttached, attributeExprs, Stmt.decorators]

/-- A source in which there is nothing to find is returned as it is. -/
theorem expandSource_of_hasNothing {registry : Registry} {source : String} {body : List Stmt}
    (hread : parseModule source = .ok body) (h : HasNothing registry body) (filename : String) :
    expandSource registry filename source = ⟨[], .ok { source }⟩ :=
  expandSource_of_settled hread ((bodyUnmarked_iff body).2 h.unmarked)
    ((bodyUnwrapped_iff registry false body).2 h.unattached) filename

/-! ## Reports -/

/-- Without verdicts there are no marks. -/
theorem unmarked_of_reports {filename : String} {body : List Stmt} {events : List Event}
    {verdicts : List Verdict}
    (hverdicts : List.Forall₂ (MarkSite.Judged filename) (bodyMarkSites filename body) verdicts)
    (hreports : Reports events verdicts) (hconfigs : events.filterMap Event.config? = [])
    (hdiagnostics : events.filterMap Event.diagnostic? = []) :
    ∀ stmt ∈ bodyReached body, stmt.isMarked = false := by
  obtain ⟨hlength, -⟩ := length_verdicts hverdicts
  rw [← hreports.configs, ← hreports.diagnostics, hconfigs, hdiagnostics, length_bodyMarkSites] at hlength
  have hzero := List.countP_eq_zero.1 hlength
  exact fun stmt hstmt => Bool.not_eq_true _ ▸ hzero stmt hstmt

/-- Where the second pass reports nothing no wrapper is attached. -/
theorem unattached_of_reported {registry : Registry} {filename : String} {members : List Stmt}
    {events : List Event} (h : Reported registry filename members events)
    (hexpanded : expandedCount events = 0) (hdiagnostics : events.filterMap Event.diagnostic? = []) :
    ∀ stmt ∈ members, stmt.isAttached registry = false := by
  have hrefused := h.refused.length_eq
  rw [hdiagnostics, ← List.countP_eq_length_filter] at hrefused
  have hattached := countP_isAttached registry members
  rw [← h.expanded, hexpanded, hrefused] at hattached
  have hzero := List.countP_eq_zero.1 hattached
  exact fun stmt hstmt => Bool.not_eq_true _ ▸ hzero stmt hstmt

/-- Where an expansion generates nothing, expands nothing and has no problems, it has found nothing. -/
theorem hasNothing_of_expandTree {registry : Registry} {filename : String} {body tree : List Stmt}
    (h : (expandTree registry filename body).result = .ok tree)
    (hconfigs : (expandTree registry filename body).events.filterMap Event.config? = [])
    (hdiagnostics : (expandTree registry filename body).events.filterMap Event.diagnostic? = [])
    (hexpanded : expandedCount (expandTree registry filename body).events = 0) :
    HasNothing registry body := by
  obtain ⟨marked, hmarked, htree, hevents⟩ := Trace.result_bind h
  change (expandTree registry filename body).events = _ at hevents
  rw [hevents, List.filterMap_append, List.append_eq_nil_iff] at hconfigs hdiagnostics
  rw [hevents, expandedCount_append] at hexpanded
  obtain ⟨verdicts, hverdicts, hreports⟩ := verdicts_of_introspectBody body hmarked
  have hunmarked := unmarked_of_reports hverdicts hreports hconfigs.1 hdiagnostics.1
  -- Without marks the first pass does nothing, so the second one works on the module as it is.
  have hpass : introspectBody filename body = pure body :=
    introspectBody_of_unmarked body ((bodyUnmarked_iff body).2 hunmarked)
  rw [hpass] at hmarked htree hdiagnostics hexpanded
  obtain rfl := Except.ok.inj hmarked
  obtain ⟨treated, hsteps⟩ := steps_of_expandBody body htree
  refine ⟨hunmarked, unattached_of_reported (reported_of_steps hsteps) ?_ hdiagnostics.2⟩
  exact (Nat.add_eq_zero_iff.1 hexpanded).2

/-! ## Outcomes -/

/-- An unchanged outcome reports nothing and returns the source. -/
theorem eq_of_unchanged {registry : Registry} {filename source : String} {outcome : Outcome}
    (h : (expandSource registry filename source).result = .ok outcome)
    (hchanged : outcome.changed = false) : outcome = { source } := by
  obtain ⟨_, _, -, -, ⟨-, houtcome⟩ | ⟨text, -, rfl⟩⟩ := expandSource_result h
  · exact houtcome
  · cases hchanged

/-- A source stays unchanged exactly if the expansion has nothing to report, and exactly if there is nothing
in it to find. In this case the expansion does not fail. -/
theorem unchanged_iff (registry : Registry) (filename source : String) (body : List Stmt)
    (hread : parseModule source = .ok body) :
    (HasNothing registry body → ∃ outcome, (expandSource registry filename source).result = .ok outcome)
    ∧ ∀ outcome, (expandSource registry filename source).result = .ok outcome →
      List.TFAE [outcome.changed = false,
        outcome.expanded + outcome.generated + outcome.diagnostics.length = 0,
        HasNothing registry body]
      ∧ (outcome.changed = false → outcome.source = source) := by
  refine ⟨fun h => ⟨{ source }, by rw [expandSource_of_hasNothing hread h]⟩, fun outcome h => ⟨?_, ?_⟩⟩
  · tfae_have 1 → 2 := by
      intro hchanged
      rw [eq_of_unchanged h hchanged]
      rfl
    tfae_have 2 → 3 := by
      intro hzero
      obtain ⟨-, hconfigs, hdiagnostics, hexpanded⟩ := events_expandSource hread h
      obtain ⟨body₁, body', hread₁, hexpand, -⟩ := expandSource_result h
      obtain rfl : body = body₁ := Except.ok.inj (hread.symm.trans hread₁)
      obtain ⟨tree, htree, -, hevents⟩ := expandModule_result hexpand
      rw [Outcome.generated, hconfigs, hdiagnostics, hexpanded, hevents] at hzero
      apply hasNothing_of_expandTree htree
      · exact List.length_eq_zero_iff.1 (by omega)
      · exact List.length_eq_zero_iff.1 (by omega)
      · omega
    tfae_have 3 → 1 := by
      intro hnothing
      rw [expandSource_of_hasNothing hread hnothing] at h
      obtain rfl := Except.ok.inj h
      rfl
    tfae_finish
  · intro hchanged
    rw [eq_of_unchanged h hchanged]

/-! ## An instance -/

/-- An annotation with the registered wrapper at module level, and one with an unknown wrapper in a nested
class. -/
def looseSource : String :=
  "x: Annotated[int, E]\nclass A:\n    class B:\n        y: Annotated[int, W]\n"

theorem nothing_in_looseSource :
    ((parseModule looseSource).toOption.map fun body =>
      (bodyReached body).any Stmt.isMarked || (bodyMembers false body).any (Stmt.isAttached soleWrapper))
      = some false := by
  rw [Direct.parseModule_eq]
  decide +kernel

/-- The source is returned as it is, and nothing is reported. -/
theorem unchanged_looseSource :
    ∃ body outcome, parseModule looseSource = .ok body ∧ HasNothing soleWrapper body
      ∧ (expandSource soleWrapper "m.py" looseSource).result = .ok outcome ∧ outcome.changed = false
      ∧ outcome.expanded + outcome.generated + outcome.diagnostics.length = 0
      ∧ outcome.source = looseSource := by
  obtain ⟨body, hbody, hany⟩ := Option.map_eq_some_iff.1 nothing_in_looseSource
  rw [Bool.or_eq_false_iff, List.any_eq_false, List.any_eq_false] at hany
  have hnothing : HasNothing soleWrapper body :=
    ⟨fun stmt hstmt => Bool.eq_false_iff.2 (hany.1 stmt hstmt),
      fun stmt hstmt => Bool.eq_false_iff.2 (hany.2 stmt hstmt)⟩
  obtain ⟨hsucceeds, hall⟩ :=
    unchanged_iff soleWrapper "m.py" looseSource body (eq_ok_of_toOption hbody)
  obtain ⟨outcome, houtcome⟩ := hsucceeds hnothing
  obtain ⟨htfae, hsource⟩ := hall outcome houtcome
  have hchanged := (htfae.out 0 2).2 hnothing
  exact ⟨body, outcome, eq_ok_of_toOption hbody, hnothing, houtcome, hchanged, (htfae.out 0 1).1 hchanged,
    hsource hchanged⟩

end PropertyWrapper
