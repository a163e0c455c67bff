import PropertyWrapper.Proofs.Expansion.Idempotence

/-!
# Places of diagnostics

Every diagnostic of an expansion stands where an attribute of the source stands, so neither its line nor
its column is negative.

* `Diagnostic.IsPlaced` : a diagnostic whose line and column are not negative;
* `placed_of_expandSource` : the diagnostics of an expansion.
-/

namespace PropertyWrapper

open Source

/-- Neither the line nor the column of a diagnostic is negative. -/
def Diagnostic.IsPlaced (diagnostic : Diagnostic) : Prop := 0 ≤ diagnostic.line ∧ 0 ≤ diagnostic.column

/-- The diagnostics among events are placed. -/
def EventsPlaced (events : List Event) : Prop :=
  ∀ event ∈ events, ∀ diagnostic ∈ event.diagnostic?, diagnostic.IsPlaced

theorem EventsPlaced.append {events events' : List Event} (h : EventsPlaced events)
    (h' : EventsPlaced events') : EventsPlaced (events ++ events') :=
  List.forall_mem_append.2 ⟨h, h'⟩

/-- An attribute stands where its expression stands. -/
theorem placed_of_liftAttribute {e : Expr} {attr : Attribute} (h : liftAttribute e = .ok attr)
    (problem : Problem) (filename : Option String) :
    ((Diagnostic.at? problem (some attr)).inFile filename).IsPlaced := by
  have hattr : 0 ≤ attr.line ∧ 0 ≤ attr.column := by
    rw [liftAttribute.eq_def] at h
    split at h
    · obtain ⟨name, -, h⟩ := bind_eq_ok_iff.1 h
      obtain ⟨arguments, -, h⟩ := bind_eq_ok_iff.1 h
      cases h
      exact ⟨Int.natCast_nonneg _, Int.natCast_nonneg _⟩
    · obtain ⟨name, -, h⟩ := bind_eq_ok_iff.1 h
      cases h
      exact ⟨Int.natCast_nonneg _, Int.natCast_nonneg _⟩
  exact hattr

section Steps

variable {registry : Registry} {filename : String} {stmt : Stmt} {stmts body body' : List Stmt}
  {events : List Event}

theorem placed_of_markStep (h : MarkStep filename stmt stmts events) : EventsPlaced events := by
  cases h with
  | unmarked => simp [EventsPlaced]
  | wrapper => simp [EventsPlaced, Event.diagnostic?]
  | refused hmark hdeclaration hattr hproblem =>
    simp only [EventsPlaced, List.forall_mem_singleton, Event.diagnostic?, Option.mem_some_iff]
    rintro _ rfl
    exact placed_of_liftAttribute hattr _ _

theorem placed_of_introspects (h : Introspects filename body body' events) : EventsPlaced events := by
  induction h with
  | nil => simp [EventsPlaced]
  | other hclass hstep hrest ih => exact (placed_of_markStep hstep).append ih
  | classDef hbody hstep hrest ihbody ihrest =>
    exact (ihbody.append (placed_of_markStep hstep)).append ihrest

theorem placed_synthesisEvent {config : WrapperConfig} {attr : Attribute} {target : Target} {e : Expr}
    (hattr : liftAttribute e = .ok attr) : EventsPlaced [synthesisEvent filename config attr target] := by
  rw [EventsPlaced, List.forall_mem_singleton, synthesisEvent]
  split
  · rename_i diagnostic hdiagnostic
    rintro _ ⟨⟩
    obtain rfl : Diagnostic.at? .unexpectedTarget (some attr) = diagnostic := by
      rw [synthesize] at hdiagnostic
      split at hdiagnostic
      · cases hdiagnostic
      · exact Option.some.inj hdiagnostic
    exact placed_of_liftAttribute hattr _ _
  · simp [Event.diagnostic?]

theorem placed_of_warnings (h : ∀ event ∈ events, event.isWarning = true) : EventsPlaced events := by
  intro event hevent
  have hwarning := h event hevent
  cases event with
  | ignored => simp [Event.diagnostic?]
  | introspected | generated | synthesized | diagnosed => cases hwarning

theorem placed_of_memberStep (h : MemberStep registry filename stmt stmts events) :
    EventsPlaced events := by
  cases h with
  | kept => simp [EventsPlaced]
  | replaced hsome hwarnings hattr htarget hstmts =>
    exact (placed_of_warnings hwarnings).append (placed_synthesisEvent hattr)

theorem placed_of_expands {inClass : Bool} (h : Expands registry filename inClass body body' events) :
    EventsPlaced events := by
  induction h with
  | nil => simp [EventsPlaced]
  | other hclass hrest ih => exact ih
  | member hclass hstep hrest ih => exact (placed_of_memberStep hstep).append ih
  | classDef hbody hrest ihbody ihrest => exact ihbody.append ihrest
  | memberClass hbody hstep hrest ihbody ihrest =>
    exact (ihbody.append (placed_of_memberStep hstep)).append ihrest

end Steps

/-- The diagnostics of an expansion are placed. -/
theorem placed_of_expandSource {registry : Registry} {filename source : String} {outcome : Outcome}
    (h : (expandSource registry filename source).result = .ok outcome) :
    ∀ diagnostic ∈ outcome.diagnostics, diagnostic.IsPlaced := by
  obtain ⟨body, body', -, hexpand, ⟨-, rfl⟩ | ⟨text, -, rfl⟩⟩ := expandSource_result h
  · simp
  · obtain ⟨tree, htree, -, hevents⟩ := expandModule_result hexpand
    obtain ⟨marked, introspected, synthesized, hfirst, hsecond, hevents'⟩ := expandTree_result htree
    have hplaced : EventsPlaced (introspected ++ synthesized) :=
      (placed_of_introspects hfirst).append (placed_of_expands hsecond)
    intro diagnostic hmem
    rw [Outcome.ofEvents, hevents, hevents'] at hmem
    obtain ⟨event, hevent, hsome⟩ := List.mem_filterMap.1 hmem
    exact hplaced event hevent diagnostic hsome

end PropertyWrapper
