import PropertyWrapper.Proofs.Expansion.Registry
import PropertyWrapper.Proofs.Expansion.Rendered
import PropertyWrapper.Proofs.Expansion.Steps

/-!
# Settled modules

A module is settled for a registry when neither pass finds anything in it: no definition is marked, and
nothing in a class body has an attribute that resolves. Both passes leave a settled module alone, and
what an expansion gives is settled.

* `introspectBody_of_unmarked`, `expandBody_of_unwrapped` : the passes leave settled modules alone;
* `unmarked_of_introspects` : the first pass removes all marks;
* `settles_of_expands` : the second pass leaves nothing to expand, and no marks.
-/

namespace PropertyWrapper

open Source Text

/-! ## Unmarked modules -/

mutual

/-- Whether no definition that the first pass reaches in a statement is marked. -/
def Source.Stmt.isUnmarked : Stmt → Bool
  | .classDef _ _ _ _ body decorators => bodyUnmarked body && !decorators.any isWrapperMark
  | stmt => !stmt.decorators.any isWrapperMark

/-- Whether no definition that the first pass reaches in a body is marked. -/
def bodyUnmarked : List Stmt → Bool
  | [] => true
  | stmt :: rest => stmt.isUnmarked && bodyUnmarked rest

end

mutual

/-- Whether every definition that the first pass reaches in a statement has one mark at most. -/
def Source.Stmt.marksOnce : Stmt → Bool
  | .classDef _ _ _ _ body decorators =>
    bodyMarksOnce body && decide (decorators.countP isWrapperMark ≤ 1)
  | stmt => decide (stmt.decorators.countP isWrapperMark ≤ 1)

/-- Whether every definition that the first pass reaches in a body has one mark at most. -/
def bodyMarksOnce : List Stmt → Bool
  | [] => true
  | stmt :: rest => stmt.marksOnce && bodyMarksOnce rest

end

theorem isUnmarked_of_not_class {stmt : Stmt} (h : stmt.isClass = false) :
    stmt.isUnmarked = !stmt.decorators.any isWrapperMark := by
  cases stmt with
  | classDef => cases h
  | _ => rfl

theorem bodyUnmarked_eq (body : List Stmt) : bodyUnmarked body = body.all Stmt.isUnmarked := by
  induction body with
  | nil => rfl
  | cons stmt rest ih => rw [bodyUnmarked, List.all_cons, ih]

theorem bodyUnmarked_append (body body' : List Stmt) :
    bodyUnmarked (body ++ body') = (bodyUnmarked body && bodyUnmarked body') := by
  simp only [bodyUnmarked_eq, List.all_append]

theorem wrapperMark?_of_any {stmt : Stmt} (h : stmt.decorators.any isWrapperMark = false) :
    wrapperMark? stmt = none := by
  rw [wrapperMark?, List.find?_eq_none]
  simpa using h

theorem any_of_wrapperMark? {stmt : Stmt} (h : wrapperMark? stmt = none) :
    stmt.decorators.any isWrapperMark = false := by
  rw [wrapperMark?, List.find?_eq_none] at h
  simpa using h

theorem withoutMark_of_none {stmt : Stmt} (h : wrapperMark? stmt = none) : withoutMark stmt = stmt := by
  rw [wrapperMark?, List.find?_eq_none] at h
  cases stmt with
  | function line isAsync name params body decorators returns =>
    rw [Stmt.decorators] at h
    rw [withoutMark, List.eraseP_of_forall_not h]
  | classDef line name bases keywords body decorators =>
    rw [Stmt.decorators] at h
    rw [withoutMark, List.eraseP_of_forall_not h]
  | _ => rfl

theorem introspectMark_of_any {filename : String} {stmt : Stmt}
    (h : stmt.decorators.any isWrapperMark = false) : introspectMark filename stmt = pure [stmt] := by
  rw [introspectMark, wrapperMark?_of_any h]

/-- The first pass leaves an unmarked body alone. -/
theorem introspectBody_of_unmarked {filename : String} (body : List Stmt) (h : bodyUnmarked body = true) :
    introspectBody filename body = pure body := by
  induction body using bodyInduction with
  | nil => rfl
  | other stmt rest hclass ih =>
    simp only [bodyUnmarked, isUnmarked_of_not_class hclass, Bool.and_eq_true, Bool.not_eq_true'] at h
    rw [introspectBody, introspectStmt_of_not_class hclass, introspectMark_of_any h.1, ih h.2]
    rfl
  | classDef line name bases keywords inner decorators rest ihinner ihrest =>
    simp only [bodyUnmarked, Stmt.isUnmarked, Bool.and_eq_true, Bool.not_eq_true'] at h
    have hclass : introspectStmt filename (.classDef line name bases keywords inner decorators)
        = pure [.classDef line name bases keywords inner decorators] := by
      rw [introspectStmt, ihinner h.1.1]
      exact introspectMark_of_any h.1.2
    rw [introspectBody, hclass, ihrest h.2]
    rfl

theorem any_eraseP {decorators : List Expr} (h : decorators.countP isWrapperMark ≤ 1) :
    (decorators.eraseP isWrapperMark).any isWrapperMark = false := by
  induction decorators with
  | nil => rfl
  | cons decorator decorators ih =>
    rw [List.eraseP_cons]
    cases hmark : isWrapperMark decorator with
    | true =>
      rw [List.countP_cons_of_pos hmark] at h
      have hzero : decorators.countP isWrapperMark = 0 := by omega
      simpa using hzero
    | false =>
      rw [List.countP_cons_of_neg (by simp [hmark])] at h
      simp only [cond_false, List.any_cons, hmark, Bool.false_or]
      exact ih h

/-- A statement with one mark at most, whose own body is unmarked, has no mark without its first one. -/
theorem isUnmarked_withoutMark {stmt : Stmt} (hbody : ∀ line name bases keywords body decorators,
      stmt = .classDef line name bases keywords body decorators → bodyUnmarked body = true)
    (h : stmt.decorators.countP isWrapperMark ≤ 1) : (withoutMark stmt).isUnmarked = true := by
  cases stmt with
  | function line isAsync name params body decorators returns =>
    simpa [withoutMark, Stmt.isUnmarked, Stmt.decorators] using any_eraseP h
  | classDef line name bases keywords body decorators =>
    have hinner := hbody _ _ _ _ _ _ rfl
    have hany : (decorators.eraseP isWrapperMark).any isWrapperMark = false := any_eraseP h
    rw [withoutMark, Stmt.isUnmarked, hinner, hany]
    rfl
  | _ => rfl

theorem isUnmarked_of_markStep {filename : String} {stmt : Stmt} {stmts : List Stmt}
    {events : List Event} (h : MarkStep filename stmt stmts events)
    (hbody : ∀ line name bases keywords body decorators,
      stmt = .classDef line name bases keywords body decorators → bodyUnmarked body = true)
    (hmarks : stmt.decorators.countP isWrapperMark ≤ 1) : bodyUnmarked stmts = true := by
  have hstmt := isUnmarked_withoutMark hbody hmarks
  cases h with
  | unmarked hmark =>
    have hany := any_of_wrapperMark? hmark
    cases stmt with
    | classDef line name bases keywords body decorators =>
      have hinner := hbody _ _ _ _ _ _ rfl
      rw [Stmt.decorators] at hany
      rw [bodyUnmarked, bodyUnmarked, Stmt.isUnmarked, hinner, hany]
      rfl
    | _ => simpa [bodyUnmarked, Stmt.isUnmarked] using hany
  | wrapper hmark hdeclaration hattr hconfig =>
    rw [bodyUnmarked, hstmt]
    rfl
  | refused hmark hdeclaration hattr hproblem =>
    rw [bodyUnmarked, hstmt]
    rfl

/-- The first pass removes all marks from a body in which no definition has two. -/
theorem unmarked_of_introspects {filename : String} {body body' : List Stmt} {events : List Event}
    (h : Introspects filename body body' events) (hmarks : bodyMarksOnce body = true) :
    bodyUnmarked body' = true := by
  induction h with
  | nil => rfl
  | @other stmt rest first others events events' hclass hstep hrest ih =>
    simp only [bodyMarksOnce, Bool.and_eq_true] at hmarks
    have hcount : stmt.decorators.countP isWrapperMark ≤ 1 := by
      cases stmt with
      | classDef => cases hclass
      | _ => simpa [Stmt.marksOnce] using hmarks.1
    rw [bodyUnmarked_append, ih hmarks.2, isUnmarked_of_markStep hstep ?_ hcount]
    · rfl
    · rintro _ _ _ _ _ _ rfl
      cases hclass
  | classDef hbody hstep hrest ihbody ihrest =>
    simp only [bodyMarksOnce, Stmt.marksOnce, Bool.and_eq_true, decide_eq_true_eq] at hmarks
    rw [bodyUnmarked_append, ihrest hmarks.2, isUnmarked_of_markStep hstep ?_ hmarks.1.2]
    · rfl
    · rintro _ _ _ _ _ _ ⟨⟩
      exact ihbody hmarks.1.1

/-! ## Sound modules -/

theorem isSound_withoutMark {stmt : Stmt} (h : stmt.isSound = true) :
    (withoutMark stmt).isSound = true := by
  have herase : ∀ decorators : List Expr, decorators.all Expr.isSound = true →
      (decorators.eraseP isWrapperMark).all Expr.isSound = true := by
    intro decorators hall
    rw [List.all_eq_true] at hall ⊢
    exact fun e he => hall e (List.mem_of_mem_eraseP he)
  cases stmt with
  | function line isAsync name params body decorators returns =>
    simp only [Stmt.isSound, Bool.and_eq_true] at h
    simp only [withoutMark, Stmt.isSound, Bool.and_eq_true]
    exact ⟨⟨h.1.1, herase decorators h.1.2⟩, h.2⟩
  | classDef line name bases keywords body decorators =>
    simp only [Stmt.isSound, Bool.and_eq_true] at h
    simp only [withoutMark, Stmt.isSound, Bool.and_eq_true]
    exact ⟨h.1, herase decorators h.2⟩
  | _ => exact h

/-- The configurations that events generate are closed. -/
def ConfigsClosed (events : List Event) : Prop :=
  ∀ event ∈ events, ∀ declaration ∈ event.config?, declaration.config.IsClosed

theorem ConfigsClosed.append {events events' : List Event} (h : ConfigsClosed events)
    (h' : ConfigsClosed events') : ConfigsClosed (events ++ events') :=
  List.forall_mem_append.2 ⟨h, h'⟩

theorem sound_of_markStep {filename : String} {stmt : Stmt} {stmts : List Stmt} {events : List Event}
    (h : MarkStep filename stmt stmts events) (hsound : stmt.isSound = true) :
    bodySound stmts = true ∧ ConfigsClosed events := by
  have hstmt := isSound_withoutMark hsound
  cases h with
  | unmarked hmark => exact ⟨bodySound_singleton hsound, by simp [ConfigsClosed]⟩
  | wrapper hmark hdeclaration hattr hconfig =>
    refine ⟨?_, ?_⟩
    · rw [bodySound, hstmt]
      rfl
    · have hclosed := closed_introspect hstmt hdeclaration hconfig
      simp only [ConfigsClosed, List.forall_mem_cons]
      refine ⟨by simp [Event.config?], ?_, by simp⟩
      rintro _ ⟨⟩
      exact hclosed
  | refused hmark hdeclaration hattr hproblem =>
    exact ⟨bodySound_singleton hstmt, by simp [ConfigsClosed, Event.config?]⟩

/-- The first pass keeps a body sound, and the configurations that it generates are closed. -/
theorem sound_of_introspects {filename : String} {body body' : List Stmt} {events : List Event}
    (h : Introspects filename body body' events) (hsound : bodySound body = true) :
    bodySound body' = true ∧ ConfigsClosed events := by
  induction h with
  | nil => exact ⟨rfl, by simp [ConfigsClosed]⟩
  | other hclass hstep hrest ih =>
    simp only [bodySound, Bool.and_eq_true] at hsound
    obtain ⟨hfirst, hevents⟩ := sound_of_markStep hstep hsound.1
    obtain ⟨hothers, hevents'⟩ := ih hsound.2
    exact ⟨bodySound_append hfirst hothers, hevents.append hevents'⟩
  | classDef hbody hstep hrest ihbody ihrest =>
    simp only [bodySound, Stmt.isSound, Bool.and_eq_true] at hsound
    obtain ⟨hinner, hevents⟩ := ihbody hsound.1.1.2
    obtain ⟨hfirst, hevents'⟩ := sound_of_markStep hstep (by
      simp only [Stmt.isSound, Bool.and_eq_true]
      exact ⟨⟨hsound.1.1.1, hinner⟩, hsound.1.2⟩)
    obtain ⟨hothers, hevents''⟩ := ihrest hsound.2
    exact ⟨bodySound_append hfirst hothers, (hevents.append hevents').append hevents''⟩

theorem fits_configEntries (astray : Bool) {events : List Event} (h : ConfigsClosed events) :
    ∀ entry ∈ configEntries events, entry.2.Fits astray := by
  intro entry hentry
  obtain ⟨declaration, hdeclaration, rfl⟩ := List.mem_map.1 hentry
  obtain ⟨event, hevent, hconfig⟩ := List.mem_filterMap.1 hdeclaration
  exact (h event hevent declaration hconfig).fits astray

/-! ## Unwrapped modules -/

/-- Whether one of some expressions refers to a registered wrapper. -/
def Registry.resolvesAny (registry : Registry) (exprs : List Expr) : Bool :=
  exprs.any fun e => (registry.resolve (referenceName e)).isSome

mutual

/-- Whether nothing that the second pass reaches in a statement has a wrapper attached to it. -/
def Source.Stmt.isUnwrapped (registry : Registry) (inClass : Bool) : Stmt → Bool
  | .classDef _ _ _ _ body decorators =>
    bodyUnwrapped registry true body && !(inClass && registry.resolvesAny decorators)
  | stmt => !(inClass && registry.resolvesAny (attributeExprs stmt))

/-- Whether nothing that the second pass reaches in a body has a wrapper attached to it. -/
def bodyUnwrapped (registry : Registry) (inClass : Bool) : List Stmt → Bool
  | [] => true
  | stmt :: rest => stmt.isUnwrapped registry inClass && bodyUnwrapped registry inClass rest

end

theorem isUnwrapped_of_not_class {registry : Registry} {inClass : Bool} {stmt : Stmt}
    (h : stmt.isClass = false) :
    stmt.isUnwrapped registry inClass = !(inClass && registry.resolvesAny (attributeExprs stmt)) := by
  cases stmt with
  | classDef => cases h
  | _ => rfl

theorem bodyUnwrapped_eq (registry : Registry) (inClass : Bool) (body : List Stmt) :
    bodyUnwrapped registry inClass body = body.all (Stmt.isUnwrapped registry inClass) := by
  induction body with
  | nil => rfl
  | cons stmt rest ih => rw [bodyUnwrapped, List.all_cons, ih]

theorem bodyUnwrapped_append (registry : Registry) (inClass : Bool) (body body' : List Stmt) :
    bodyUnwrapped registry inClass (body ++ body')
      = (bodyUnwrapped registry inClass body && bodyUnwrapped registry inClass body') := by
  simp only [bodyUnwrapped_eq, List.all_append]

/-- No wrapper is attached to a statement exactly if none of its attributes resolves. -/
theorem attachments_eq_nil_iff {registry : Registry} {stmt : Stmt} :
    attachments registry stmt = [] ↔ registry.resolvesAny (attributeExprs stmt) = false := by
  rw [attachments, List.filterMap_eq_nil_iff, Registry.resolvesAny, List.any_eq_false]
  constructor
  · intro h e he
    obtain ⟨index, hindex, rfl⟩ := List.mem_iff_getElem.1 he
    have hmem : ((attributeExprs stmt)[index], index) ∈ (attributeExprs stmt).zipIdx := by
      rw [List.mem_zipIdx_iff_getElem?]
      simp [hindex]
    simpa using h _ hmem
  · rintro h ⟨e, index⟩ hmem
    have he : e ∈ attributeExprs stmt := List.fst_mem_of_mem_zipIdx hmem
    simpa using h e he

theorem expandMember_of_resolvesAny {registry : Registry} (filename : String) {stmt : Stmt}
    (h : registry.resolvesAny (attributeExprs stmt) = false) :
    expandMember registry filename stmt = pure [stmt] := by
  rw [expandMember, attachments_eq_nil_iff.2 h]

/-- The second pass leaves an unwrapped body alone. -/
theorem expandBody_of_unwrapped {registry : Registry} {filename : String} {inClass : Bool}
    (body : List Stmt) (h : bodyUnwrapped registry inClass body = true) :
    expandBody registry filename inClass body = pure body := by
  induction body using bodyInduction generalizing inClass with
  | nil => rfl
  | other stmt rest hclass ih =>
    simp only [bodyUnwrapped, isUnwrapped_of_not_class hclass, Bool.and_eq_true, Bool.not_eq_true',
      Bool.and_eq_false_iff] at h
    have hstmt : expandStmt registry filename inClass stmt = pure [stmt] := by
      rw [expandStmt_of_not_class hclass]
      cases inClass with
      | false => rfl
      | true => exact expandMember_of_resolvesAny filename (h.1.resolve_left (by simp))
    rw [expandBody, hstmt, ih h.2]
    rfl
  | classDef line name bases keywords inner decorators rest ihinner ihrest =>
    simp only [bodyUnwrapped, Stmt.isUnwrapped, Bool.and_eq_true, Bool.not_eq_true',
      Bool.and_eq_false_iff] at h
    have hclass : expandStmt registry filename inClass (.classDef line name bases keywords inner decorators)
        = pure [.classDef line name bases keywords inner decorators] := by
      rw [expandStmt, ihinner h.1.1]
      cases inClass with
      | false => rfl
      | true => exact expandMember_of_resolvesAny filename (h.1.2.resolve_left (by simp))
    rw [expandBody, hclass, ihrest h.2]
    rfl

/-! ## Settled results -/

/-- A registry knows none of the decorators that generated functions have. -/
def Registry.IsApart (registry : Registry) : Prop :=
  ∀ (mark : Mark) (name : String), registry.resolve (some (mark.reference name)) = none

theorem isWrapperMark_of_reference {e : Expr} {mark : Mark} {name : String}
    (h : referenceName e = some (mark.reference name)) : isWrapperMark e = false := by
  rw [isWrapperMark, h]
  cases mark with
  | property =>
    have hother : refersTo (some "property") ["macrofy"] = false := by decide
    exact hother
  | storage =>
    have hother : refersTo (some "cached_property") ["macrofy"] = false := by decide
    exact hother
  | setter =>
    rw [Mark.reference, refersTo, Option.any_some, lastComponent_setter]
    decide

/-- A statement with the heading of a generated function is that function. -/
theorem exists_function_of_heading {stmt : Stmt} {role : Role} (h : heading stmt = role.heading) :
    ∃ line isAsync params body decorator returns,
      stmt = .function line isAsync role.2 params body [decorator] returns
        ∧ referenceName decorator = some (role.1.reference role.2) := by
  cases stmt with
  | function line isAsync name params body decorators returns =>
    obtain ⟨hname, hdecorators⟩ := Prod.mk.inj (Option.some.inj h)
    obtain ⟨decorator, rfl, hreference⟩ := List.map_eq_singleton_iff.1 hdecorators
    exact ⟨line, isAsync, params, body, decorator, returns, by rw [hname], hreference⟩
  | _ => cases h

/-- Generated statements are settled. -/
theorem settled_of_presents {registry : Registry} (hapart : registry.IsApart) {astray inClass : Bool}
    {stmts : List Stmt} {roles : List Role} (h : Presents astray roles stmts) :
    bodyUnmarked stmts = true ∧ bodyUnwrapped registry inClass stmts = true := by
  induction h with
  | nil => exact ⟨rfl, rfl⟩
  | @function role _ _ _ hheading _ ih =>
    obtain ⟨_, _, _, _, decorator, _, rfl, hreference⟩ := exists_function_of_heading hheading
    rw [bodyUnmarked, bodyUnwrapped, ih.1, ih.2]
    simp [Stmt.isUnmarked, Stmt.isUnwrapped, attributeExprs, Stmt.decorators, Registry.resolvesAny,
      isWrapperMark_of_reference hreference, hreference, hapart role.1 role.2]
  | stray _ _ ih =>
    rw [bodyUnmarked, bodyUnwrapped, ih.1, ih.2]
    simp [Stmt.isUnmarked, Stmt.isUnwrapped, attributeExprs, Stmt.decorators, Registry.resolvesAny]

/-- The attributes of a sound statement are sound. -/
theorem isSound_of_mem_attributeExprs {stmt : Stmt} (h : stmt.isSound = true) :
    ∀ e ∈ attributeExprs stmt, e.isSound = true := by
  cases stmt with
  | function line isAsync name params body decorators returns =>
    simp only [Stmt.isSound, Bool.and_eq_true] at h
    exact List.all_eq_true.1 h.1.2
  | classDef line name bases keywords body decorators =>
    simp only [Stmt.isSound, Bool.and_eq_true] at h
    exact List.all_eq_true.1 h.2
  | annAssign line target hint value bare =>
    simp only [Stmt.isSound, Bool.and_eq_true] at h
    intro e he
    rw [attributeExprs] at he
    cases hparts : annotated? hint with
    | none =>
      rw [hparts] at he
      cases he
    | some parts =>
      rw [hparts] at he
      obtain ⟨-, -, hmetadata⟩ := isSound_annotated? h.1.2 hparts
      rw [allSound_eq, List.all_eq_true] at hmetadata
      exact hmetadata e he
  | _ =>
    intro e he
    cases he

/-- An attached wrapper is an attribute of its statement that resolves to its configuration. -/
theorem attachment_of_mem {registry : Registry} {stmt : Stmt} {attachment : Attachment}
    (h : attachment ∈ attachments registry stmt) :
    attachment.entry ∈ attributeExprs stmt
      ∧ registry.resolve (referenceName attachment.entry) = some attachment.config := by
  obtain ⟨⟨e, index⟩, hmem, hfound⟩ := List.mem_filterMap.1 h
  obtain ⟨config, hconfig, rfl⟩ := Option.map_eq_some_iff.1 hfound
  exact ⟨List.fst_mem_of_mem_zipIdx hmem, hconfig⟩

theorem bodySound_readRendered {texts : List LooseText} {stmts : List Stmt}
    (h : readRendered texts = .ok stmts) : bodySound stmts = true := by
  unfold readRendered at h
  split at h
  · dsimp only at h
    split at h
    · cases h
      rfl
    · exact bodySound_parseModule (mapError_eq_ok_iff.1 h)
  · cases h

theorem bodySound_statements {declarations : Declarations} {stmts : List Stmt}
    (h : declarations.statements = .ok stmts) : bodySound stmts = true := by
  obtain ⟨texts, -, h⟩ := bind_eq_ok_iff.1 h
  obtain ⟨accessors, haccessors, h⟩ := bind_eq_ok_iff.1 h
  obtain ⟨texts', -, h⟩ := bind_eq_ok_iff.1 h
  obtain ⟨peers, hpeers, hpure⟩ := bind_eq_ok_iff.1 h
  cases hpure
  exact bodySound_append (bodySound_readRendered haccessors) (bodySound_readRendered hpeers)

/-- What replaces a sound statement are the generated functions of the roles of its declarations. -/
theorem presents_of_replaced {registry : Registry} {astray : Bool} {stmt : Stmt} {first : Attachment}
    {extras : List Attachment} {attr : Attribute} {target : Target} {stmts : List Stmt}
    (hfits : registry.Fits astray) (hsound : stmt.isSound = true)
    (hsome : attachments registry stmt = first :: extras)
    (hattr : liftAttribute first.entry = .ok attr)
    (htarget : liftTarget stmt (some first.index) = .ok target)
    (hstmts : (synthesize first.config attr target).declarations.statements = .ok stmts) :
    Presents astray (synthesize first.config attr target).declarations.roles stmts := by
  obtain ⟨hentry, hconfig⟩ := attachment_of_mem (show first ∈ attachments registry stmt by simp [hsome])
  have hattr' := closed_liftAttribute (isSound_of_mem_attributeExprs hsound first.entry hentry) hattr
  have htarget' := closed_liftTarget hsound htarget
  exact presents_statements (fits_synthesize (Registry.of_resolve hfits hconfig) hattr' htarget') hstmts

/-- The second pass keeps a body sound. -/
theorem sound_of_memberStep {registry : Registry} {filename : String} {stmt : Stmt} {stmts : List Stmt}
    {events : List Event} (h : MemberStep registry filename stmt stmts events)
    (hsound : stmt.isSound = true) : bodySound stmts = true := by
  cases h with
  | kept hnone => exact bodySound_singleton hsound
  | replaced hsome hwarnings hattr htarget hstmts => exact bodySound_statements hstmts

section SoundClass

variable {line : Nat} {name : String} {bases : List Expr} {keywords : List Keyword}
  {inner inner' : List Stmt} {decorators : List Expr}

theorem bodySound_of_classDef
    (h : (Stmt.classDef line name bases keywords inner decorators).isSound = true) :
    bodySound inner = true := by
  simp only [Stmt.isSound, Bool.and_eq_true] at h
  exact h.1.2

/-- A sound class stays sound with another sound body. -/
theorem isSound_withBody
    (h : (Stmt.classDef line name bases keywords inner decorators).isSound = true)
    (hinner : bodySound inner' = true) :
    (Stmt.classDef line name bases keywords inner' decorators).isSound = true := by
  simp only [Stmt.isSound, Bool.and_eq_true] at h ⊢
  exact ⟨⟨h.1.1, hinner⟩, h.2⟩

end SoundClass

theorem sound_of_expands {registry : Registry} {filename : String} {inClass : Bool}
    {body body' : List Stmt} {events : List Event}
    (h : Expands registry filename inClass body body' events) (hsound : bodySound body = true) :
    bodySound body' = true := by
  induction h with
  | nil => rfl
  | other hclass hrest ih =>
    simp only [bodySound, Bool.and_eq_true] at hsound
    rw [bodySound, hsound.1, ih hsound.2]
    rfl
  | member hclass hstep hrest ih =>
    simp only [bodySound, Bool.and_eq_true] at hsound
    exact bodySound_append (sound_of_memberStep hstep hsound.1) (ih hsound.2)
  | classDef hbody hrest ihbody ihrest =>
    simp only [bodySound, Bool.and_eq_true] at hsound ⊢
    exact ⟨isSound_withBody hsound.1 (ihbody (bodySound_of_classDef hsound.1)), ihrest hsound.2⟩
  | memberClass hbody hstep hrest ihbody ihrest =>
    simp only [bodySound, Bool.and_eq_true] at hsound
    have hclass := isSound_withBody hsound.1 (ihbody (bodySound_of_classDef hsound.1))
    exact bodySound_append (sound_of_memberStep hstep hclass) (ihrest hsound.2)

/-- What a pass over a body leaves behind: statements without marks and without wrappers. -/
structure Settles (registry : Registry) (inClass : Bool) (body : List Stmt) : Prop where
  unmarked : bodyUnmarked body = true
  unwrapped : bodyUnwrapped registry inClass body = true

theorem Settles.append {registry : Registry} {inClass : Bool} {body body' : List Stmt}
    (h : Settles registry inClass body) (h' : Settles registry inClass body') :
    Settles registry inClass (body ++ body') where
  unmarked := by rw [bodyUnmarked_append, h.unmarked, h'.unmarked]; rfl
  unwrapped := by rw [bodyUnwrapped_append, h.unwrapped, h'.unwrapped]; rfl

theorem settles_of_memberStep {registry extended : Registry} (hapart : registry.IsApart)
    {astray : Bool} (hfits : extended.Fits astray)
    (hresolve : ∀ name, extended.resolve name = none → registry.resolve name = none)
    {filename : String} {stmt : Stmt} {stmts : List Stmt} {events : List Event}
    (h : MemberStep extended filename stmt stmts events) (hsound : stmt.isSound = true)
    (hunmarked : stmt.isUnmarked = true)
    (hbody : ∀ line name bases keywords body decorators,
      stmt = .classDef line name bases keywords body decorators → bodyUnwrapped registry true body = true) :
    Settles registry true stmts := by
  cases h with
  | kept hnone =>
    have hresolves : registry.resolvesAny (attributeExprs stmt) = false := by
      have hextended := attachments_eq_nil_iff.1 hnone
      rw [Registry.resolvesAny, List.any_eq_false] at hextended ⊢
      intro e he
      simpa using hresolve _ (by simpa using hextended e he)
    refine ⟨by rw [bodyUnmarked, hunmarked]; rfl, ?_⟩
    cases stmt with
    | classDef line name bases keywords body decorators =>
      have hown : registry.resolvesAny decorators = false := hresolves
      rw [bodyUnwrapped, Stmt.isUnwrapped, hbody _ _ _ _ _ _ rfl, hown]
      rfl
    | _ =>
      rw [bodyUnwrapped, Stmt.isUnwrapped, hresolves]
      · rfl
      · simp
  | replaced hsome hwarnings hattr htarget hstmts =>
    have hpresents := presents_of_replaced hfits hsound hsome hattr htarget hstmts
    obtain ⟨hunmarked', hunwrapped⟩ := settled_of_presents hapart hpresents
    exact ⟨hunmarked', hunwrapped⟩

/-- The second pass leaves nothing to expand, also for a registry that the one it used extends. -/
theorem settles_of_expands {registry extended : Registry} (hapart : registry.IsApart)
    {astray : Bool} (hfits : extended.Fits astray)
    (hresolve : ∀ name, extended.resolve name = none → registry.resolve name = none)
    {filename : String} {inClass : Bool} {body body' : List Stmt} {events : List Event}
    (h : Expands extended filename inClass body body' events) (hsound : bodySound body = true)
    (hunmarked : bodyUnmarked body = true) : Settles registry inClass body' := by
  induction h with
  | nil => exact ⟨rfl, rfl⟩
  | @other stmt rest others events hclass hrest ih =>
    simp only [bodySound, bodyUnmarked, Bool.and_eq_true] at hsound hunmarked
    have hfirst : Settles registry false [stmt] := by
      refine ⟨by rw [bodyUnmarked, hunmarked.1]; rfl, ?_⟩
      cases stmt with
      | classDef => cases hclass
      | _ => rfl
    exact hfirst.append (ih hsound.2 hunmarked.2)
  | member hclass hstep hrest ih =>
    simp only [bodySound, bodyUnmarked, Bool.and_eq_true] at hsound hunmarked
    refine Settles.append ?_ (ih hsound.2 hunmarked.2)
    refine settles_of_memberStep hapart hfits hresolve hstep hsound.1 hunmarked.1 ?_
    rintro _ _ _ _ _ _ rfl
    cases hclass
  | @classDef line name bases keywords inner inner' rest others decorators _ _ hbody hrest ihbody ihrest =>
    simp only [bodySound, bodyUnmarked, Stmt.isUnmarked, Bool.and_eq_true] at hsound hunmarked
    have hinner := ihbody (bodySound_of_classDef hsound.1) hunmarked.1.1
    have hfirst : Settles registry false [.classDef line name bases keywords inner' decorators] := by
      refine ⟨?_, ?_⟩
      · rw [bodyUnmarked, Stmt.isUnmarked, hinner.unmarked, hunmarked.1.2]
        rfl
      · rw [bodyUnwrapped, Stmt.isUnwrapped, hinner.unwrapped]
        rfl
    exact hfirst.append (ihrest hsound.2 hunmarked.2)
  | memberClass hbody hstep hrest ihbody ihrest =>
    simp only [bodySound, bodyUnmarked, Stmt.isUnmarked, Bool.and_eq_true] at hsound hunmarked
    have hsound' := bodySound_of_classDef hsound.1
    have hinner := ihbody hsound' hunmarked.1.1
    refine Settles.append ?_ (ihrest hsound.2 hunmarked.2)
    refine settles_of_memberStep hapart hfits hresolve hstep ?_ ?_ ?_
    · exact isSound_withBody hsound.1 (sound_of_expands hbody hsound')
    · rw [Stmt.isUnmarked, hinner.unmarked, hunmarked.1.2]
      rfl
    · rintro _ _ _ _ _ _ ⟨⟩
      exact hinner.unwrapped

end PropertyWrapper
