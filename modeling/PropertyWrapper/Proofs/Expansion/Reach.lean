import PropertyWrapper.Proofs.Expansion.Settled

/-!
# What the passes reach

The first pass reaches the statements of a module and of the classes in it, the second one those of the
classes alone. Both treat a class behind the statements of its body. Each pass is then one step for each
statement that it reaches, in this order.

* `bodyReached`, `bodyMembers` : the statements that the passes reach, in their order;
* `bodyMarkSites` : the marks that the first pass meets, with what they stand on when it meets them;
* `verdicts_of_introspectBody` : the first pass gives one verdict for each mark, and nothing else;
* `steps_of_expandBody` : the second pass takes one step for each statement of a class body.
-/

namespace PropertyWrapper

open Source

/-! ## Orders -/

mutual

/-- The statements that the first pass reaches in a statement, a class behind those of its body. -/
def Source.Stmt.reached : Stmt → List Stmt
  | .classDef line name bases keywords body decorators =>
    bodyReached body ++ [.classDef line name bases keywords body decorators]
  | stmt => [stmt]

/-- The statements that the first pass reaches in a body. -/
def bodyReached : List Stmt → List Stmt
  | [] => []
  | stmt :: rest => stmt.reached ++ bodyReached rest

end

mutual

/-- The statements of class bodies that the second pass reaches in a statement. -/
def Source.Stmt.members (inClass : Bool) : Stmt → List Stmt
  | .classDef line name bases keywords body decorators =>
    bodyMembers true body
      ++ if inClass then [.classDef line name bases keywords body decorators] else []
  | stmt => if inClass then [stmt] else []

/-- The statements of class bodies that the second pass reaches in a body. -/
def bodyMembers (inClass : Bool) : List Stmt → List Stmt
  | [] => []
  | stmt :: rest => stmt.members inClass ++ bodyMembers inClass rest

end

theorem reached_of_not_class {stmt : Stmt} (h : stmt.isClass = false) : stmt.reached = [stmt] := by
  cases stmt with
  | classDef => cases h
  | _ => rfl

theorem members_of_not_class {inClass : Bool} {stmt : Stmt} (h : stmt.isClass = false) :
    stmt.members inClass = if inClass then [stmt] else [] := by
  cases stmt with
  | classDef => cases h
  | _ => rfl

/-! ## Marks and verdicts -/

/-- A mark that the first pass meets, and the statement that it stands on: without the mark, and with
what the pass has made of its body. -/
structure MarkSite where
  mark : Expr
  stmt : Stmt

/-- The mark on a statement, if it has one. -/
def Source.Stmt.markSite? (stmt : Stmt) : Option MarkSite :=
  (wrapperMark? stmt).map fun mark => ⟨mark, withoutMark stmt⟩

/-- What the first pass makes of a body. -/
def introspectedBody (filename : String) (body : List Stmt) : List Stmt :=
  match (introspectBody filename body).result with
  | .ok body' => body'
  | .error _ => body

mutual

/-- The marks that the first pass meets in a statement. -/
def Source.Stmt.markSites (filename : String) : Stmt → List MarkSite
  | .classDef line name bases keywords body decorators =>
    bodyMarkSites filename body
      ++ (Stmt.classDef line name bases keywords (introspectedBody filename body)
          decorators).markSite?.toList
  | stmt => stmt.markSite?.toList

/-- The marks that the first pass meets in a body. -/
def bodyMarkSites (filename : String) : List Stmt → List MarkSite
  | [] => []
  | stmt :: rest => stmt.markSites filename ++ bodyMarkSites filename rest

end

theorem markSites_of_not_class {filename : String} {stmt : Stmt} (h : stmt.isClass = false) :
    stmt.markSites filename = stmt.markSite?.toList := by
  cases stmt with
  | classDef => cases h
  | _ => rfl

/-- What is decided about a mark: the configuration generated for the type that it stands on, or the
problem that is reported. -/
abbrev Verdict := Except Diagnostic ConfigDeclaration

/-- The problem that a verdict reports. -/
def Verdict.refusal? : Verdict → Option Diagnostic
  | .ok _ => none
  | .error diagnostic => some diagnostic

/-- The verdict on a mark is that on its attribute and on the declaration of its statement, in a file. -/
def MarkSite.Judged (filename : String) (site : MarkSite) (verdict : Verdict) : Prop :=
  ∃ attr declaration, liftAttribute site.mark = .ok attr ∧ liftDeclaration site.stmt = .ok declaration
    ∧ verdict = (expandWrapper attr declaration).mapError (Diagnostic.inFile filename)

/-- Some events report some verdicts and nothing else of interest. -/
structure Reports (events : List Event) (verdicts : List Verdict) : Prop where
  configs : events.filterMap Event.config? = verdicts.filterMap Except.toOption
  diagnostics : events.filterMap Event.diagnostic? = verdicts.filterMap Verdict.refusal?
  storages : events.filterMap Event.storage? = []
  warnings : events.filterMap Event.warning? = []

theorem Reports.nil : Reports [] [] := ⟨rfl, rfl, rfl, rfl⟩

theorem Reports.append {events events' : List Event} {verdicts verdicts' : List Verdict}
    (h : Reports events verdicts) (h' : Reports events' verdicts') :
    Reports (events ++ events') (verdicts ++ verdicts') where
  configs := by rw [List.filterMap_append, List.filterMap_append, h.configs, h'.configs]
  diagnostics := by rw [List.filterMap_append, List.filterMap_append, h.diagnostics, h'.diagnostics]
  storages := by rw [List.filterMap_append, h.storages, h'.storages, List.append_nil]
  warnings := by rw [List.filterMap_append, h.warnings, h'.warnings, List.append_nil]

/-- What is decided about the mark on a statement. -/
theorem verdict_of_markStep {filename : String} {stmt : Stmt} {stmts : List Stmt}
    {events : List Event} (h : MarkStep filename stmt stmts events) :
    ∃ verdicts, List.Forall₂ (MarkSite.Judged filename) stmt.markSite?.toList verdicts
      ∧ Reports events verdicts := by
  cases h with
  | unmarked hmark =>
    have hsite : stmt.markSite? = none := by rw [Stmt.markSite?, hmark, Option.map_none]
    rw [hsite]
    exact ⟨[], .nil, .nil⟩
  | @wrapper mark declaration attr config hmark hdeclaration hattr hconfig =>
    have hsite : stmt.markSite? = some ⟨mark, withoutMark stmt⟩ := by
      rw [Stmt.markSite?, hmark, Option.map_some]
    have hverdict : expandWrapper attr declaration = .ok (declaration.withConfig config) := by
      rw [expandWrapper, hconfig]
    rw [hsite]
    refine ⟨[.ok (declaration.withConfig config)], .cons ?_ .nil, rfl, rfl, rfl, rfl⟩
    refine ⟨attr, declaration, hattr, hdeclaration, ?_⟩
    rw [hverdict]
    rfl
  | @refused mark declaration attr problem hmark hdeclaration hattr hproblem =>
    have hsite : stmt.markSite? = some ⟨mark, withoutMark stmt⟩ := by
      rw [Stmt.markSite?, hmark, Option.map_some]
    have hverdict : expandWrapper attr declaration = .error (.at? problem (some attr)) := by
      rw [expandWrapper, hproblem]
    rw [hsite]
    refine ⟨[.error ((Diagnostic.at? problem (some attr)).inFile filename)], .cons ?_ .nil, rfl, rfl,
      rfl, rfl⟩
    refine ⟨attr, declaration, hattr, hdeclaration, ?_⟩
    rw [hverdict]
    rfl

/-- The first pass gives one verdict for each mark that it meets, in order, and reports nothing else. -/
theorem verdicts_of_introspectBody {filename : String} (body : List Stmt) {body' : List Stmt}
    (h : (introspectBody filename body).result = .ok body') :
    ∃ verdicts, List.Forall₂ (MarkSite.Judged filename) (bodyMarkSites filename body) verdicts
      ∧ Reports (introspectBody filename body).events verdicts := by
  induction body using bodyInduction generalizing body' with
  | nil => exact ⟨[], .nil, .nil⟩
  | other stmt rest hclass ih =>
    obtain ⟨first, others, hfirst, hothers, -, hevents⟩ := introspectBody_cons h
    rw [introspectStmt_of_not_class hclass] at hfirst hevents
    obtain ⟨own, hown, hreports⟩ := verdict_of_markStep (markStep_of_result hfirst)
    obtain ⟨following, hfollowing, hreports'⟩ := ih hothers
    rw [hevents, bodyMarkSites, markSites_of_not_class hclass]
    exact ⟨own ++ following, List.rel_append hown hfollowing, hreports.append hreports'⟩
  | classDef line name bases keywords inner decorators rest ihinner ihrest =>
    obtain ⟨first, others, hfirst, hothers, -, hevents⟩ := introspectBody_cons h
    rw [introspectStmt] at hfirst hevents
    obtain ⟨inner', hinner, hmark, hevents'⟩ := Trace.result_bind hfirst
    obtain ⟨inside, hinside, hreports⟩ := ihinner hinner
    obtain ⟨own, hown, hreports'⟩ := verdict_of_markStep (markStep_of_result hmark)
    obtain ⟨following, hfollowing, hreports''⟩ := ihrest hothers
    -- The mark stands on the class with what the pass has made of its body.
    have hinner' : introspectedBody filename inner = inner' := by rw [introspectedBody, hinner]
    rw [hevents, hevents', bodyMarkSites, Stmt.markSites, hinner']
    exact ⟨inside ++ own ++ following, List.rel_append (List.rel_append hinside hown) hfollowing,
      (hreports.append hreports').append hreports''⟩

theorem filterMap_singleton {α β : Type} (f : α → Option β) (a : α) :
    [a].filterMap f = (f a).toList := by
  rw [List.filterMap_cons]
  cases f a <;> rfl

theorem mark_markSite? (stmt : Stmt) :
    stmt.markSite?.toList.map MarkSite.mark = (wrapperMark? stmt).toList := by
  rw [Stmt.markSite?]
  cases wrapperMark? stmt <;> rfl

/-- The marks that the first pass meets are the first marks of the statements that it reaches. -/
theorem mark_bodyMarkSites (filename : String) (body : List Stmt) :
    (bodyMarkSites filename body).map MarkSite.mark = (bodyReached body).filterMap wrapperMark? := by
  induction body using bodyInduction with
  | nil => rfl
  | other stmt rest hclass ih =>
    rw [bodyMarkSites, bodyReached, markSites_of_not_class hclass, reached_of_not_class hclass,
      List.map_append, List.filterMap_append, mark_markSite?, filterMap_singleton, ih]
  | classDef line name bases keywords inner decorators rest ihinner ihrest =>
    rw [bodyMarkSites, bodyReached, Stmt.markSites, Stmt.reached, List.map_append, List.map_append,
      List.filterMap_append, List.filterMap_append, ihinner, ihrest, mark_markSite?, filterMap_singleton]
    rfl

/-! ## Members and steps -/

/-- Two statements are the same, or classes that differ in their bodies alone. -/
inductive SameHead : Stmt → Stmt → Prop where
  | refl (stmt : Stmt) : SameHead stmt stmt
  | classDef {line : Nat} {name : String} {bases : List Expr} {keywords : List Keyword}
      {body body' : List Stmt} {decorators : List Expr} :
      SameHead (.classDef line name bases keywords body decorators)
        (.classDef line name bases keywords body' decorators)

theorem SameHead.attributeExprs_eq {stmt stmt' : Stmt} (h : SameHead stmt stmt') :
    attributeExprs stmt' = attributeExprs stmt := by
  cases h <;> rfl

theorem SameHead.attachments_eq {stmt stmt' : Stmt} (h : SameHead stmt stmt') (registry : Registry) :
    attachments registry stmt' = attachments registry stmt := by
  rw [attachments, attachments, h.attributeExprs_eq]

theorem SameHead.eq_of_not_class {stmt stmt' : Stmt} (h : SameHead stmt stmt')
    (hclass : stmt.isClass = false) : stmt' = stmt := by
  cases h with
  | refl => rfl
  | classDef => cases hclass

/-- The second pass takes a step for each of some statements that differ in class bodies at most from
those that it reaches. -/
structure Steps (registry : Registry) (filename : String) (members treated : List Stmt)
    (events : List Event) : Prop where
  same : List.Forall₂ SameHead members treated
  result : ∀ stmt ∈ treated, ∃ stmts, (expandMember registry filename stmt).result = .ok stmts
  events_eq : events = treated.flatMap fun stmt => (expandMember registry filename stmt).events

namespace Steps

variable {registry : Registry} {filename : String}

theorem nil : Steps registry filename [] [] [] := ⟨.nil, by simp, rfl⟩

theorem append {members members' treated treated' : List Stmt} {events events' : List Event}
    (h : Steps registry filename members treated events)
    (h' : Steps registry filename members' treated' events') :
    Steps registry filename (members ++ members') (treated ++ treated') (events ++ events') where
  same := List.rel_append h.same h'.same
  result := List.forall_mem_append.2 ⟨h.result, h'.result⟩
  events_eq := by rw [List.flatMap_append, h.events_eq, h'.events_eq]

/-- A statement other than a class is reached as it is. -/
theorem mem_treated {members treated : List Stmt} {events : List Event} {stmt : Stmt}
    (h : Steps registry filename members treated events) (hclass : stmt.isClass = false)
    (hmem : stmt ∈ members) : stmt ∈ treated := by
  have hsame := h.same
  clear h
  induction hsame with
  | nil => cases hmem
  | cons hfirst hrest ih =>
    rcases List.mem_cons.1 hmem with rfl | hmem
    · rw [hfirst.eq_of_not_class hclass]
      exact List.mem_cons_self
    · exact List.mem_cons_of_mem _ (ih hmem)

theorem single {stmt stmt' : Stmt} {stmts : List Stmt} (hsame : SameHead stmt stmt')
    (h : (expandMember registry filename stmt').result = .ok stmts) :
    Steps registry filename [stmt] [stmt'] (expandMember registry filename stmt').events where
  same := .cons hsame .nil
  result := List.forall_mem_singleton.2 ⟨stmts, h⟩
  events_eq := by rw [List.flatMap_singleton]

end Steps

/-- The second pass takes one step for each statement of a class body that it reaches, in order. -/
theorem steps_of_expandBody {registry : Registry} {filename : String} {inClass : Bool}
    (body : List Stmt) {body' : List Stmt}
    (h : (expandBody registry filename inClass body).result = .ok body') :
    ∃ treated, Steps registry filename (bodyMembers inClass body) treated
      (expandBody registry filename inClass body).events := by
  induction body using bodyInduction generalizing inClass body' with
  | nil => exact ⟨[], .nil⟩
  | other stmt rest hclass ih =>
    obtain ⟨first, others, hfirst, hothers, -, hevents⟩ := expandBody_cons h
    rw [expandStmt_of_not_class hclass] at hfirst hevents
    obtain ⟨following, hfollowing⟩ := ih hothers
    rw [hevents, bodyMembers, members_of_not_class hclass]
    cases inClass with
    | false => exact ⟨[] ++ following, Steps.nil.append hfollowing⟩
    | true => exact ⟨[stmt] ++ following, (Steps.single (.refl stmt) hfirst).append hfollowing⟩
  | classDef line name bases keywords inner decorators rest ihinner ihrest =>
    obtain ⟨first, others, hfirst, hothers, -, hevents⟩ := expandBody_cons h
    rw [expandStmt] at hfirst hevents
    obtain ⟨inner', hinner, hown, hevents'⟩ := Trace.result_bind hfirst
    obtain ⟨inside, hinside⟩ := ihinner hinner
    obtain ⟨following, hfollowing⟩ := ihrest hothers
    rw [hevents, hevents', bodyMembers, Stmt.members]
    cases inClass with
    | false => exact ⟨inside ++ [] ++ following, (hinside.append .nil).append hfollowing⟩
    | true => exact ⟨inside ++ [_] ++ following, (hinside.append (.single .classDef hown)).append hfollowing⟩

end PropertyWrapper
