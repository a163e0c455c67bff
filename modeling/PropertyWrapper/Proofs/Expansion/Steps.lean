import PropertyWrapper.Expansion.Module
import PropertyWrapper.Proofs.Expansion.Trace

/-!
# What the two passes can do

Each pass is described as a relation between the statements that go in, the statements that come out and
the events on the way. All that is known about an expansion that does not fail follows from these
relations, by induction on them.

* `bodyInduction` : induction along the classes of a body;
* `MarkStep`, `MemberStep` : what can become of one statement in the first and in the second pass;
* `Introspects`, `Expands` : what can become of a body;
* `introspects_of_result`, `expands_of_result` : the passes do nothing else;
* `expandModule_result` : a whole expansion.
-/

namespace PropertyWrapper

open Source

/-! ## Classes of a body -/

/-- Whether a statement is a class. -/
def Source.Stmt.isClass : Stmt → Bool
  | .classDef .. => true
  | _ => false

/-- The body of a class. -/
def Source.Stmt.classBody : Stmt → List Stmt
  | .classDef _ _ _ _ body _ => body
  | _ => []

/-- Induction along the classes of a body. Both passes go into the bodies of classes and nowhere else, so
all other statements are one case. -/
@[elab_as_elim]
theorem bodyInduction {motive : List Stmt → Prop} (nil : motive [])
    (other : ∀ stmt rest, stmt.isClass = false → motive rest → motive (stmt :: rest))
    (classDef : ∀ line name bases keywords inner decorators rest, motive inner → motive rest →
      motive (.classDef line name bases keywords inner decorators :: rest)) (body : List Stmt) :
    motive body := by
  cases body with
  | nil => exact nil
  | cons stmt rest =>
    have hrest := bodyInduction nil other classDef rest
    cases stmt with
    | classDef line name bases keywords inner decorators =>
      exact classDef line name bases keywords inner decorators rest
        (bodyInduction nil other classDef inner) hrest
    | _ => exact other _ rest rfl hrest
termination_by body

/-! ## First pass -/

/-- What can become of the mark on a statement: there is none, it stands on a wrapper type, or it is
refused. -/
inductive MarkStep (filename : String) (stmt : Stmt) : List Stmt → List Event → Prop where
  | unmarked (hmark : wrapperMark? stmt = none) : MarkStep filename stmt [stmt] []
  | wrapper {mark : Expr} {declaration : Declaration} {attr : Attribute} {config : WrapperConfig}
      (hmark : wrapperMark? stmt = some mark)
      (hdeclaration : liftDeclaration (withoutMark stmt) = .ok declaration)
      (hattr : liftAttribute mark = .ok attr) (hconfig : introspect declaration = .ok config) :
      MarkStep filename stmt [withoutMark stmt, (declaration.withConfig config).statement]
        [.introspected declaration.name declaration.kind config,
          .generated (declaration.withConfig config)]
  | refused {mark : Expr} {declaration : Declaration} {attr : Attribute} {problem : Problem}
      (hmark : wrapperMark? stmt = some mark)
      (hdeclaration : liftDeclaration (withoutMark stmt) = .ok declaration)
      (hattr : liftAttribute mark = .ok attr) (hproblem : introspect declaration = .error problem) :
      MarkStep filename stmt [withoutMark stmt]
        [.diagnosed ((Diagnostic.at? problem (some attr)).inFile filename)]

/-- What can become of a body in the first pass. The body of a class comes before the mark of the
class. -/
inductive Introspects (filename : String) : List Stmt → List Stmt → List Event → Prop where
  | nil : Introspects filename [] [] []
  | other {stmt : Stmt} {rest first others : List Stmt} {events events' : List Event}
      (hclass : stmt.isClass = false) (hstep : MarkStep filename stmt first events)
      (hrest : Introspects filename rest others events') :
      Introspects filename (stmt :: rest) (first ++ others) (events ++ events')
  | classDef {line : Nat} {name : String} {bases : List Expr} {keywords : List Keyword}
      {body body' rest first others : List Stmt} {decorators : List Expr}
      {inner events events' : List Event} (hbody : Introspects filename body body' inner)
      (hstep : MarkStep filename (.classDef line name bases keywords body' decorators) first events)
      (hrest : Introspects filename rest others events') :
      Introspects filename (.classDef line name bases keywords body decorators :: rest)
        (first ++ others) (inner ++ events ++ events')

theorem markStep_of_result {filename : String} {stmt : Stmt} {stmts : List Stmt}
    (h : (introspectMark filename stmt).result = .ok stmts) :
    MarkStep filename stmt stmts (introspectMark filename stmt).events := by
  unfold introspectMark at h ⊢
  split at h
  · rename_i hmark
    cases h
    exact .unmarked hmark
  · rename_i mark hmark
    obtain ⟨declaration, hdeclaration, h, hevents⟩ := Trace.result_bind h
    obtain ⟨attr, hattr, h, hevents'⟩ := Trace.result_bind h
    rw [Trace.result_printing] at hdeclaration hattr
    rw [introspectMarked, hevents, hevents']
    unfold expandWrapper at h ⊢
    cases hconfig : introspect declaration with
    | ok config =>
      rw [hconfig] at h
      cases h
      exact .wrapper hmark hdeclaration hattr hconfig
    | error problem =>
      rw [hconfig] at h
      cases h
      exact .refused hmark hdeclaration hattr hconfig

theorem introspectStmt_of_not_class {filename : String} {stmt : Stmt} (h : stmt.isClass = false) :
    introspectStmt filename stmt = introspectMark filename stmt := by
  cases stmt with
  | classDef => cases h
  | _ => rfl

/-- The first pass treats the statements of a body one after the other. -/
theorem introspectBody_cons {filename : String} {stmt : Stmt} {rest body' : List Stmt}
    (h : (introspectBody filename (stmt :: rest)).result = .ok body') :
    ∃ first others, (introspectStmt filename stmt).result = .ok first
      ∧ (introspectBody filename rest).result = .ok others ∧ body' = first ++ others
      ∧ (introspectBody filename (stmt :: rest)).events
        = (introspectStmt filename stmt).events ++ (introspectBody filename rest).events := by
  rw [introspectBody] at h ⊢
  obtain ⟨first, hfirst, h, hevents⟩ := Trace.result_bind h
  obtain ⟨others, hothers, h, hevents'⟩ := Trace.result_bind h
  cases h
  rw [hevents, hevents', Trace.events_pure, List.append_nil]
  exact ⟨first, others, hfirst, hothers, rfl, rfl⟩

/-- The first pass does what its relation says. -/
theorem introspects_of_result {filename : String} (body : List Stmt) {body' : List Stmt}
    (h : (introspectBody filename body).result = .ok body') :
    Introspects filename body body' (introspectBody filename body).events := by
  induction body using bodyInduction generalizing body' with
  | nil =>
    cases h
    exact .nil
  | other stmt rest hclass ih =>
    obtain ⟨first, others, hfirst, hothers, rfl, hevents⟩ := introspectBody_cons h
    rw [introspectStmt_of_not_class hclass] at hfirst hevents
    rw [hevents]
    exact .other hclass (markStep_of_result hfirst) (ih hothers)
  | classDef line name bases keywords inner decorators rest ihinner ihrest =>
    obtain ⟨first, others, hfirst, hothers, rfl, hevents⟩ := introspectBody_cons h
    rw [introspectStmt] at hfirst hevents
    obtain ⟨inner', hinner, hmark, hevents'⟩ := Trace.result_bind hfirst
    rw [hevents, hevents']
    exact .classDef (ihinner hinner) (markStep_of_result hmark) (ihrest hothers)

/-! ## Second pass -/

/-- Whether an event only warns. -/
def Event.isWarning : Event → Bool
  | .ignored .. => true
  | _ => false

/-- What can become of a statement of a class body: no wrapper is attached to it, or it is replaced. -/
inductive MemberStep (registry : Registry) (filename : String) (stmt : Stmt) :
    List Stmt → List Event → Prop where
  | kept (hnone : attachments registry stmt = []) : MemberStep registry filename stmt [stmt] []
  | replaced {first : Attachment} {extras : List Attachment} {attr : Attribute} {target : Target}
      {stmts : List Stmt} {warnings : List Event} (hsome : attachments registry stmt = first :: extras)
      (hwarnings : ∀ event ∈ warnings, event.isWarning = true)
      (hattr : liftAttribute first.entry = .ok attr)
      (htarget : liftTarget stmt (some first.index) = .ok target)
      (hstmts : (synthesize first.config attr target).declarations.statements = .ok stmts) :
      MemberStep registry filename stmt stmts
        (warnings ++ [synthesisEvent filename first.config attr target])

/-- What can become of a body in the second pass. At module level only classes change, and they keep
their places. -/
inductive Expands (registry : Registry) (filename : String) :
    Bool → List Stmt → List Stmt → List Event → Prop where
  | nil {inClass : Bool} : Expands registry filename inClass [] [] []
  | other {stmt : Stmt} {rest others : List Stmt} {events : List Event}
      (hclass : stmt.isClass = false) (hrest : Expands registry filename false rest others events) :
      Expands registry filename false (stmt :: rest) (stmt :: others) events
  | member {stmt : Stmt} {rest first others : List Stmt} {events events' : List Event}
      (hclass : stmt.isClass = false) (hstep : MemberStep registry filename stmt first events)
      (hrest : Expands registry filename true rest others events') :
      Expands registry filename true (stmt :: rest) (first ++ others) (events ++ events')
  | classDef {line : Nat} {name : String} {bases : List Expr} {keywords : List Keyword}
      {body body' rest others : List Stmt} {decorators : List Expr} {inner events : List Event}
      (hbody : Expands registry filename true body body' inner)
      (hrest : Expands registry filename false rest others events) :
      Expands registry filename false (.classDef line name bases keywords body decorators :: rest)
        (.classDef line name bases keywords body' decorators :: others) (inner ++ events)
  | memberClass {line : Nat} {name : String} {bases : List Expr} {keywords : List Keyword}
      {body body' rest first others : List Stmt} {decorators : List Expr}
      {inner events events' : List Event} (hbody : Expands registry filename true body body' inner)
      (hstep : MemberStep registry filename (.classDef line name bases keywords body' decorators)
        first events)
      (hrest : Expands registry filename true rest others events') :
      Expands registry filename true (.classDef line name bases keywords body decorators :: rest)
        (first ++ others) (inner ++ events ++ events')

theorem isWarning_of_ignoreAttachments {line : Nat} {extras : List Attachment}
    (h : (ignoreAttachments line extras).result = .ok ()) :
    ∀ event ∈ (ignoreAttachments line extras).events, event.isWarning = true := by
  induction extras with
  | nil => simp [ignoreAttachments]
  | cons extra extras ih =>
    rw [ignoreAttachments] at h ⊢
    obtain ⟨text, -, h, hevents⟩ := Trace.result_bind h
    obtain ⟨_, -, h, hevents'⟩ := Trace.result_bind h
    rw [hevents, hevents']
    intro event hevent
    rcases List.mem_cons.1 hevent with rfl | hevent
    · rfl
    · exact ih h event hevent

theorem memberStep_of_result {registry : Registry} {filename : String} {stmt : Stmt}
    {stmts : List Stmt} (h : (expandMember registry filename stmt).result = .ok stmts) :
    MemberStep registry filename stmt stmts (expandMember registry filename stmt).events := by
  unfold expandMember at h ⊢
  split at h
  · rename_i hnone
    cases h
    exact .kept hnone
  · rename_i first extras hsome
    obtain ⟨_, hignore, h, hevents⟩ := Trace.result_bind h
    obtain ⟨attr, hattr, h, hevents₁⟩ := Trace.result_bind h
    obtain ⟨target, htarget, h, hevents₂⟩ := Trace.result_bind h
    obtain ⟨_, -, h, hevents₃⟩ := Trace.result_bind h
    rw [Trace.result_printing] at hattr htarget
    have hstmts := mapError_eq_ok_iff.1 h
    have hwarnings := isWarning_of_ignoreAttachments hignore
    rw [expandAttached, hevents, hevents₁, hevents₂, hevents₃]
    exact .replaced hsome hwarnings hattr htarget hstmts

theorem expandStmt_of_not_class {registry : Registry} {filename : String} {inClass : Bool} {stmt : Stmt}
    (h : stmt.isClass = false) :
    expandStmt registry filename inClass stmt =
      if inClass then expandMember registry filename stmt else pure [stmt] := by
  cases stmt with
  | classDef => cases h
  | _ => rfl

/-- The second pass treats the statements of a body one after the other. -/
theorem expandBody_cons {registry : Registry} {filename : String} {inClass : Bool} {stmt : Stmt}
    {rest body' : List Stmt}
    (h : (expandBody registry filename inClass (stmt :: rest)).result = .ok body') :
    ∃ first others, (expandStmt registry filename inClass stmt).result = .ok first
      ∧ (expandBody registry filename inClass rest).result = .ok others ∧ body' = first ++ others
      ∧ (expandBody registry filename inClass (stmt :: rest)).events
        = (expandStmt registry filename inClass stmt).events
          ++ (expandBody registry filename inClass rest).events := by
  rw [expandBody] at h ⊢
  obtain ⟨first, hfirst, h, hevents⟩ := Trace.result_bind h
  obtain ⟨others, hothers, h, hevents'⟩ := Trace.result_bind h
  cases h
  rw [hevents, hevents', Trace.events_pure, List.append_nil]
  exact ⟨first, others, hfirst, hothers, rfl, rfl⟩

/-- The second pass does what its relation says. -/
theorem expands_of_result {registry : Registry} {filename : String} {inClass : Bool}
    (body : List Stmt) {body' : List Stmt}
    (h : (expandBody registry filename inClass body).result = .ok body') :
    Expands registry filename inClass body body' (expandBody registry filename inClass body).events := by
  induction body using bodyInduction generalizing inClass body' with
  | nil =>
    cases h
    exact .nil
  | other stmt rest hclass ih =>
    obtain ⟨first, others, hfirst, hothers, rfl, hevents⟩ := expandBody_cons h
    rw [expandStmt_of_not_class hclass] at hfirst hevents
    rw [hevents]
    cases inClass with
    | false =>
      cases hfirst
      exact .other hclass (ih hothers)
    | true => exact .member hclass (memberStep_of_result hfirst) (ih hothers)
  | classDef line name bases keywords inner decorators rest ihinner ihrest =>
    obtain ⟨first, others, hfirst, hothers, rfl, hevents⟩ := expandBody_cons h
    rw [expandStmt] at hfirst hevents
    obtain ⟨inner', hinner, hown, hevents'⟩ := Trace.result_bind hfirst
    rw [hevents, hevents']
    cases inClass with
    | false =>
      cases hown
      simpa using Expands.classDef (ihinner hinner) (ihrest hothers)
    | true => exact .memberClass (ihinner hinner) (memberStep_of_result hown) (ihrest hothers)

/-! ## Whole modules -/

/-- What both passes do: the second one works with the registry that the first one extends. -/
theorem expandTree_result {registry : Registry} {filename : String} {body tree : List Stmt}
    (h : (expandTree registry filename body).result = .ok tree) :
    ∃ marked introspected synthesized, Introspects filename body marked introspected
      ∧ Expands (registry.overlay (configEntries introspected)) filename false marked tree synthesized
      ∧ (expandTree registry filename body).events = introspected ++ synthesized := by
  obtain ⟨marked, hmarked, htree, hevents⟩ := Trace.result_bind h
  exact ⟨marked, _, _, introspects_of_result body hmarked, expands_of_result marked htree, hevents⟩

/-- An expansion is both passes, then imports of what the generated code uses. -/
theorem expandModule_result {registry : Registry} {filename : String} {body body' : List Stmt}
    (h : (expandModule registry filename body).result = .ok body') :
    ∃ tree, (expandTree registry filename body).result = .ok tree
      ∧ body' = provide (usedProvisions (expandTree registry filename body).events) tree
      ∧ (expandModule registry filename body).events = (expandTree registry filename body).events := by
  obtain ⟨tree, htree, hprovide, hevents⟩ := Trace.result_bind h
  cases hprovide
  refine ⟨tree, htree, rfl, ?_⟩
  rw [Trace.events_pure, List.append_nil] at hevents
  exact hevents

end PropertyWrapper
