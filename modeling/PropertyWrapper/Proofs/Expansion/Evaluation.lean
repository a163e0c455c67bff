import PropertyWrapper.Expansion.Module
import PropertyWrapper.Proofs.Source.Evaluation

/-!
# Evaluating expansions

The expansion of a given source with the readers that compute on characters.
-/

namespace PropertyWrapper

open Source Text

namespace Direct

/-! ## Declarations -/

/-- The statements of rendered texts; texts that are blank as a whole have none, and those with lone
surrogates cannot be read. -/
def readRendered (texts : List LooseText) : Except RenderError (List Stmt) :=
  match texts.mapM LooseText.string? with
  | some texts =>
    let text := String.intercalate "\n" texts
    if (Source.Direct.characters text).all isBlank then .ok []
    else (Source.Direct.parseModule text).mapError .unreadable
  | none => .error (.unreadable ⟨.surrogates (firstSurrogates (LooseText.join "\n" texts).points), 0⟩)

theorem readRendered_eq (texts : List LooseText) :
    PropertyWrapper.readRendered texts = readRendered texts := by
  have h := PropertyWrapper.readRendered.eq_1 texts
  simp only [Source.Direct.toList_eq_characters, Source.Direct.parseModule_eq] at h
  exact h

/-- The statements of generated declarations: the accessors of the property, then its peers. -/
def statements (declarations : Declarations) : Except RenderError (List Stmt) := do
  let accessors ← readRendered (← declarations.accessors.mapM Accessor.render)
  let peers ← readRendered (← declarations.peers.mapM Peer.render).flatten
  return accessors ++ peers

theorem statements_eq (declarations : Declarations) : declarations.statements = statements declarations := by
  unfold statements Declarations.statements
  simp only [readRendered_eq]

/-! ## Statements -/

/-- What replaces a statement that a wrapper is attached to. -/
def expandAttached (filename : String) (stmt : Stmt) (first : Attachment)
    (extras : List Attachment) : Trace (List Stmt) := do
  ignoreAttachments stmt.line extras
  let attr ← Trace.printing (liftAttribute first.entry)
  let target ← Trace.printing (liftTarget stmt (some first.index))
  Trace.note (synthesisEvent filename first.config attr target)
  Trace.ofResult ((statements (synthesize first.config attr target).declarations).mapError .render)

theorem expandAttached_eq (filename : String) (stmt : Stmt) (first : Attachment) (extras : List Attachment) :
    PropertyWrapper.expandAttached filename stmt first extras = expandAttached filename stmt first extras := by
  unfold expandAttached PropertyWrapper.expandAttached
  simp only [statements_eq]

/-- What becomes of a statement of a class body, apart from its own body. -/
def expandMember (registry : Registry) (filename : String) (stmt : Stmt) : Trace (List Stmt) :=
  match attachments registry stmt with
  | [] => pure [stmt]
  | first :: extras => expandAttached filename stmt first extras

theorem expandMember_eq (registry : Registry) (filename : String) (stmt : Stmt) :
    PropertyWrapper.expandMember registry filename stmt = expandMember registry filename stmt := by
  have h := PropertyWrapper.expandMember.eq_1 registry filename stmt
  simp only [expandAttached_eq] at h
  exact h

mutual

/-- What a statement becomes in the second pass. -/
def expandStmt (registry : Registry) (filename : String) (inClass : Bool) :
    Stmt → Trace (List Stmt)
  | .classDef line name bases keywords body decorators => do
    let body ← expandBody registry filename true body
    let stmt := Stmt.classDef line name bases keywords body decorators
    if inClass then expandMember registry filename stmt else return [stmt]
  | stmt => if inClass then expandMember registry filename stmt else pure [stmt]

/-- What the statements of a module or class body become in the second pass. -/
def expandBody (registry : Registry) (filename : String) (inClass : Bool) :
    List Stmt → Trace (List Stmt)
  | [] => pure []
  | stmt :: rest => do
    let first ← expandStmt registry filename inClass stmt
    let others ← expandBody registry filename inClass rest
    return first ++ others

end

mutual

theorem expandStmt_eq (registry : Registry) (filename : String) (inClass : Bool) (stmt : Stmt) :
    PropertyWrapper.expandStmt registry filename inClass stmt
      = expandStmt registry filename inClass stmt := by
  cases stmt
  case classDef line name bases keywords body decorators =>
    simp only [expandStmt, PropertyWrapper.expandStmt, expandMember_eq,
      expandBody_eq registry filename true body]
  all_goals simp only [expandStmt, PropertyWrapper.expandStmt, expandMember_eq]

theorem expandBody_eq (registry : Registry) (filename : String) (inClass : Bool) (body : List Stmt) :
    PropertyWrapper.expandBody registry filename inClass body
      = expandBody registry filename inClass body := by
  match body with
  | [] => simp only [expandBody, PropertyWrapper.expandBody]
  | stmt :: rest =>
    simp only [expandBody, PropertyWrapper.expandBody, expandStmt_eq registry filename inClass stmt,
      expandBody_eq registry filename inClass rest]

end

/-! ## Modules -/

/-- The two passes over a module, without imports. -/
def expandTree (registry : Registry) (filename : String) (body : List Stmt) : Trace (List Stmt) :=
  let first := introspectBody filename body
  first.andThen fun body =>
    expandBody (registry.overlay (configEntries first.events)) filename false body

theorem expandTree_eq (registry : Registry) (filename : String) (body : List Stmt) :
    PropertyWrapper.expandTree registry filename body = expandTree registry filename body := by
  unfold expandTree PropertyWrapper.expandTree
  simp only [expandBody_eq]

/-- The expansion of a module. -/
def expandModule (registry : Registry) (filename : String) (body : List Stmt) : Trace (List Stmt) :=
  let passes := expandTree registry filename body
  passes.andThen fun body => pure (provide (usedProvisions passes.events) body)

theorem expandModule_eq (registry : Registry) (filename : String) (body : List Stmt) :
    PropertyWrapper.expandModule registry filename body = expandModule registry filename body := by
  rw [PropertyWrapper.expandModule, expandTree_eq, expandModule]

/-- The expansion of a source. When nothing happened the source is returned as it is. -/
def expandSource (registry : Registry) (filename source : String) : Trace Outcome := do
  let body ← Trace.ofResult ((Source.Direct.parseModule source).mapError .source)
  let expansion := expandModule registry filename body
  let expanded ← expansion
  if expansion.events.isEmpty then return { source }
  else
    let text ← Trace.printing (printModule expanded)
    return .ofEvents (text ++ "\n") expansion.events

theorem expandSource_eq (registry : Registry) (filename source : String) :
    PropertyWrapper.expandSource registry filename source = expandSource registry filename source := by
  unfold expandSource PropertyWrapper.expandSource
  simp only [Source.Direct.parseModule_eq, expandModule_eq]

end Direct

end PropertyWrapper
