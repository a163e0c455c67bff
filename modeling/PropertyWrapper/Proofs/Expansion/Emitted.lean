import PropertyWrapper.Proofs.Expansion.Rewritten

/-!
# Wrapper types in the expanded module

Every reported configuration was read off a class before the second pass. The class in the expanded module
has the same configuration if the second pass left its values alone.

* `hasReturnText_of_printModule` : a printed module has printed return types;
* `Emits` : the classes of a module with those that stand in their places in the expanded module;
* `introspect_of_emits` : the configuration of a wrapper type is that of the emitted class.
-/

namespace PropertyWrapper

open Source

/-! ## Printed classes -/

/-- A statement can be printed at some depth. -/
def Source.Stmt.IsPrinted (stmt : Stmt) : Prop := ∃ depth lines, stmt.lines depth = .ok lines

theorem isPrinted_of_blockLines {depth : Nat} {body : List Stmt} {lines : List String}
    (h : blockLines depth body = .ok lines) : ∀ stmt ∈ body, stmt.IsPrinted := by
  induction body generalizing lines with
  | nil => simp
  | cons stmt body ih =>
    rw [blockLines] at h
    obtain ⟨own, hown, h⟩ := bind_eq_ok_iff.1 h
    obtain ⟨others, hothers, -⟩ := bind_eq_ok_iff.1 h
    exact List.forall_mem_cons.2 ⟨⟨depth, own, hown⟩, ih hothers⟩

/-- All statements of a printed body are printed, up to expressions. -/
theorem isPrinted_of_definitionLines {depth : Nat} {body : List Stmt} {lines : List String}
    (h : definitionLines depth body = .ok lines) :
    ∀ stmt ∈ body, stmt.IsPrinted ∨ ∃ line value, stmt = .expr line value := by
  unfold definitionLines at h
  split at h
  · simp
  · obtain ⟨others, hothers, -⟩ := bind_eq_ok_iff.1 h
    exact List.forall_mem_cons.2
      ⟨.inr ⟨_, _, rfl⟩, fun stmt hstmt => .inl (isPrinted_of_blockLines hothers stmt hstmt)⟩
  · obtain ⟨own, hown, h⟩ := bind_eq_ok_iff.1 h
    obtain ⟨others, hothers, -⟩ := bind_eq_ok_iff.1 h
    exact List.forall_mem_cons.2
      ⟨.inl ⟨depth, own, hown⟩, fun stmt hstmt => .inl (isPrinted_of_blockLines hothers stmt hstmt)⟩

/-- A printed function has a printed return type. -/
theorem hasReturnText_of_isPrinted {stmt : Stmt}
    (h : stmt.IsPrinted ∨ ∃ line value, stmt = .expr line value) : stmt.HasReturnText := by
  cases stmt with
  | function line isAsync name params body decorators returns =>
    obtain ⟨depth, lines, h⟩ := h.resolve_right (by rintro ⟨_, _, ⟨⟩⟩)
    rw [Stmt.lines] at h
    obtain ⟨_, -, h⟩ := bind_eq_ok_iff.1 h
    obtain ⟨_, -, h⟩ := bind_eq_ok_iff.1 h
    obtain ⟨text, htext, -⟩ := bind_eq_ok_iff.1 h
    cases returns with
    | none => exact ⟨none, rfl⟩
    | some returns =>
      obtain ⟨own, hown, -⟩ := bind_eq_ok_iff.1 htext
      refine ⟨some own, ?_⟩
      rw [Option.mapM_some, Expr.text, hown]
      rfl
  | _ => trivial

/-- The body of a printed class is printed. -/
theorem isPrinted_of_classDef {line : Nat} {name : String} {bases : List Expr} {keywords : List Keyword}
    {body : List Stmt} {decorators : List Expr}
    (h : (Stmt.classDef line name bases keywords body decorators).IsPrinted) :
    ∀ stmt ∈ body, stmt.IsPrinted ∨ ∃ line value, stmt = .expr line value := by
  obtain ⟨depth, lines, h⟩ := h
  rw [Stmt.lines] at h
  obtain ⟨_, -, h⟩ := bind_eq_ok_iff.1 h
  obtain ⟨_, -, h⟩ := bind_eq_ok_iff.1 h
  obtain ⟨_, -, h⟩ := bind_eq_ok_iff.1 h
  obtain ⟨inner, hinner, -⟩ := bind_eq_ok_iff.1 h
  exact isPrinted_of_definitionLines hinner

/-- All statements that are reached in a printed body are printed, up to expressions. -/
theorem isPrinted_of_mem_bodyReached (body : List Stmt)
    (h : ∀ stmt ∈ body, stmt.IsPrinted ∨ ∃ line value, stmt = .expr line value) :
    ∀ reached ∈ bodyReached body, reached.IsPrinted ∨ ∃ line value, reached = .expr line value := by
  induction body using bodyInduction with
  | nil => simp [bodyReached]
  | other stmt rest hclass ih =>
    obtain ⟨hstmt, hrest⟩ := List.forall_mem_cons.1 h
    rw [bodyReached, reached_of_not_class hclass]
    exact List.forall_mem_cons.2 ⟨hstmt, ih hrest⟩
  | classDef line name bases keywords inner decorators rest ihinner ihrest =>
    obtain ⟨hstmt, hrest⟩ := List.forall_mem_cons.1 h
    have hinner := isPrinted_of_classDef (hstmt.resolve_right (by rintro ⟨_, _, ⟨⟩⟩))
    rw [bodyReached, Stmt.reached]
    refine List.forall_mem_append.2 ⟨List.forall_mem_append.2 ⟨ihinner hinner, ?_⟩, ihrest hrest⟩
    exact List.forall_mem_singleton.2 hstmt

/-- The functions of the classes of a printed module have printed return types. -/
theorem hasReturnText_of_printModule {module body : List Stmt} {text : String} {line : Nat}
    {name : String} {bases : List Expr} {keywords : List Keyword} {decorators : List Expr}
    (h : printModule module = .ok text)
    (hmem : .classDef line name bases keywords body decorators ∈ bodyReached module) :
    ∀ stmt ∈ body, stmt.HasReturnText := by
  obtain ⟨lines, hlines, -⟩ := bind_eq_ok_iff.1 h
  have hprinted := isPrinted_of_mem_bodyReached module (isPrinted_of_definitionLines hlines) _ hmem
  intro stmt hstmt
  exact hasReturnText_of_isPrinted
    (isPrinted_of_classDef (hprinted.resolve_right (by rintro ⟨_, _, ⟨⟩⟩)) stmt hstmt)

/-! ## Emitted classes -/

/-- A class in a body and the one that stands in its place in the expanded body. The second pass replaces
neither the class nor one of those around it. -/
inductive Emits (registry : Registry) (filename : String) : Bool → List Stmt → Stmt → Stmt → Prop where
  | own {inClass : Bool} {body : List Stmt} {line : Nat} {name : String} {bases : List Expr}
      {keywords : List Keyword} {inner inner' : List Stmt} {decorators : List Expr}
      (hmem : .classDef line name bases keywords inner decorators ∈ body)
      (hkept : inClass = true →
        attachments registry (.classDef line name bases keywords inner decorators) = [])
      (hinner : (expandBody registry filename true inner).result = .ok inner') :
      Emits registry filename inClass body (.classDef line name bases keywords inner decorators)
        (.classDef line name bases keywords inner' decorators)
  | inner {inClass : Bool} {body : List Stmt} {line : Nat} {name : String} {bases : List Expr}
      {keywords : List Keyword} {inner : List Stmt} {decorators : List Expr} {found emitted : Stmt}
      (hmem : .classDef line name bases keywords inner decorators ∈ body)
      (hkept : inClass = true →
        attachments registry (.classDef line name bases keywords inner decorators) = [])
      (h : Emits registry filename true inner found emitted) :
      Emits registry filename inClass body found emitted

/-- A class that the second pass keeps stands in the expanded body, with its own body expanded. -/
theorem mem_of_expandBody {registry : Registry} {filename : String} {inClass : Bool}
    {body body' : List Stmt} {line : Nat} {name : String} {bases : List Expr} {keywords : List Keyword}
    {inner : List Stmt} {decorators : List Expr}
    (hmem : .classDef line name bases keywords inner decorators ∈ body)
    (hkept : inClass = true →
      attachments registry (.classDef line name bases keywords inner decorators) = [])
    (h : (expandBody registry filename inClass body).result = .ok body') :
    ∃ inner', (expandBody registry filename true inner).result = .ok inner'
      ∧ .classDef line name bases keywords inner' decorators ∈ body' := by
  induction body generalizing body' with
  | nil => cases hmem
  | cons stmt rest ih =>
    obtain ⟨first, others, hfirst, hothers, rfl, -⟩ := expandBody_cons h
    rcases List.mem_cons.1 hmem with rfl | hmem
    · rw [expandStmt] at hfirst
      obtain ⟨inner', hinner', hfirst, -⟩ := Trace.result_bind hfirst
      refine ⟨inner', hinner', List.mem_append_left _ ?_⟩
      -- At the level of the module a class always stays; in a class nothing is attached to it.
      cases inClass with
      | false =>
        cases hfirst
        exact List.mem_singleton_self _
      | true =>
        have hnone : attachments registry (.classDef line name bases keywords inner' decorators) = [] :=
          hkept rfl
        dsimp only at hfirst
        rw [if_pos rfl, expandMember, hnone] at hfirst
        cases hfirst
        exact List.mem_singleton_self _
    · obtain ⟨inner', hinner', hmem'⟩ := ih hmem hothers
      exact ⟨inner', hinner', List.mem_append_right _ hmem'⟩

theorem mem_reached_self (stmt : Stmt) : stmt ∈ stmt.reached := by
  cases stmt with
  | classDef =>
    rw [Stmt.reached]
    exact List.mem_append_right _ (List.mem_singleton_self _)
  | _ => exact List.mem_singleton_self _

theorem mem_bodyReached_of_mem {body : List Stmt} {stmt reached : Stmt} (hstmt : stmt ∈ body)
    (h : reached ∈ stmt.reached) : reached ∈ bodyReached body := by
  induction body with
  | nil => cases hstmt
  | cons first rest ih =>
    rcases List.mem_cons.1 hstmt with rfl | hstmt
    · exact List.mem_append_left _ h
    · exact List.mem_append_right _ (ih hstmt)

/-- An emitted class stands in the expanded body. -/
theorem mem_bodyReached_of_emits {registry : Registry} {filename : String} {inClass : Bool}
    {body body' : List Stmt} {found emitted : Stmt}
    (h : Emits registry filename inClass body found emitted)
    (hbody : (expandBody registry filename inClass body).result = .ok body') :
    emitted ∈ bodyReached body' := by
  induction h generalizing body' with
  | own hmem hkept hinner =>
    obtain ⟨inner', hinner', hmem'⟩ := mem_of_expandBody hmem hkept hbody
    obtain rfl := Except.ok.inj (hinner.symm.trans hinner')
    exact mem_bodyReached_of_mem hmem' (mem_reached_self _)
  | inner hmem hkept _ ih =>
    obtain ⟨inner', hinner', hmem'⟩ := mem_of_expandBody hmem hkept hbody
    refine mem_bodyReached_of_mem hmem' ?_
    rw [Stmt.reached]
    exact List.mem_append_left _ (ih hinner')

theorem Emits.mono {registry : Registry} {filename : String} {inClass : Bool} {body larger : List Stmt}
    {found emitted : Stmt} (h : Emits registry filename inClass body found emitted)
    (hsubset : body ⊆ larger) : Emits registry filename inClass larger found emitted := by
  cases h with
  | own hmem hkept hinner => exact .own (hsubset hmem) hkept hinner
  | inner hmem hkept h => exact .inner (hsubset hmem) hkept h

/-- Where no class is replaced all classes are emitted. -/
theorem exists_emits {registry : Registry} {filename : String} {inClass : Bool} (body : List Stmt)
    {body' : List Stmt} {found : Stmt} (hclass : found.isClass = true)
    (h : (expandBody registry filename inClass body).result = .ok body')
    (hkept : ∀ member ∈ bodyMembers inClass body, member.isClass = true → attachments registry member = [])
    (hfound : found ∈ bodyReached body) :
    ∃ emitted, Emits registry filename inClass body found emitted := by
  induction body using bodyInduction generalizing inClass body' with
  | nil => cases hfound
  | other stmt rest hother ih =>
    obtain ⟨first, others, -, hothers, -, -⟩ := expandBody_cons h
    rw [bodyMembers] at hkept
    rw [bodyReached, reached_of_not_class hother] at hfound
    rcases List.mem_cons.1 hfound with rfl | hfound
    · rw [hother] at hclass
      cases hclass
    · obtain ⟨emitted, hemitted⟩ := ih hothers (List.forall_mem_append.1 hkept).2 hfound
      exact ⟨emitted, hemitted.mono (List.subset_cons_self stmt rest)⟩
  | classDef line name bases keywords inner decorators rest ihinner ihrest =>
    obtain ⟨first, others, hfirst, hothers, -, -⟩ := expandBody_cons h
    rw [expandStmt] at hfirst
    obtain ⟨inner', hinner', -, -⟩ := Trace.result_bind hfirst
    rw [bodyMembers, Stmt.members] at hkept
    obtain ⟨hkept, hrest⟩ := List.forall_mem_append.1 hkept
    obtain ⟨hinner, hown⟩ := List.forall_mem_append.1 hkept
    have hnone : inClass = true →
        attachments registry (.classDef line name bases keywords inner decorators) = [] := by
      rintro rfl
      exact hown _ (List.mem_singleton_self _) rfl
    rw [bodyReached, Stmt.reached] at hfound
    rcases List.mem_append.1 hfound with hfound | hfound
    · rcases List.mem_append.1 hfound with hfound | hfound
      · obtain ⟨emitted, hemitted⟩ := ihinner hinner' hinner hfound
        exact ⟨emitted, .inner List.mem_cons_self hnone hemitted⟩
      · obtain rfl := List.mem_singleton.1 hfound
        exact ⟨_, .own List.mem_cons_self hnone hinner'⟩
    · obtain ⟨emitted, hemitted⟩ := ihrest hothers hrest hfound
      exact ⟨emitted, hemitted.mono (List.subset_cons_self _ rest)⟩

theorem bodyReached_append (front back : List Stmt) :
    bodyReached (front ++ back) = bodyReached front ++ bodyReached back := by
  induction front with
  | nil => rfl
  | cons stmt front ih => rw [List.cons_append, bodyReached, ih, bodyReached, List.append_assoc]

/-- The first pass keeps a statement, without its mark. -/
theorem withoutMark_mem_of_introspectMark {filename : String} {stmt : Stmt} {stmts : List Stmt}
    (h : (introspectMark filename stmt).result = .ok stmts) : withoutMark stmt ∈ stmts := by
  have hstep := markStep_of_result h
  generalize (introspectMark filename stmt).events = events at hstep
  cases hstep with
  | unmarked hnone =>
    rw [withoutMark_of_none hnone]
    exact List.mem_cons_self
  | wrapper => exact List.mem_cons_self
  | refused => exact List.mem_cons_self

theorem mem_bodyReached_of_introspectMark {filename : String} {stmt : Stmt} {stmts : List Stmt}
    {site : MarkSite} (h : (introspectMark filename stmt).result = .ok stmts)
    (hsite : site ∈ stmt.markSite?.toList) : site.stmt ∈ bodyReached stmts := by
  obtain ⟨mark, -, rfl⟩ := Option.map_eq_some_iff.1 (Option.mem_toList.1 hsite)
  exact mem_bodyReached_of_mem (withoutMark_mem_of_introspectMark h) (mem_reached_self _)

/-- The first pass leaves every marked statement in the module, without its mark. -/
theorem mem_bodyReached_of_bodyMarkSites {filename : String} (body : List Stmt) {body' : List Stmt}
    (h : (introspectBody filename body).result = .ok body') :
    ∀ site ∈ bodyMarkSites filename body, site.stmt ∈ bodyReached body' := by
  induction body using bodyInduction generalizing body' with
  | nil => simp [bodyMarkSites]
  | other stmt rest hclass ih =>
    obtain ⟨first, others, hfirst, hothers, rfl, -⟩ := introspectBody_cons h
    rw [introspectStmt_of_not_class hclass] at hfirst
    rw [bodyMarkSites, markSites_of_not_class hclass, bodyReached_append]
    intro site hsite
    rcases List.mem_append.1 hsite with hsite | hsite
    · exact List.mem_append_left _ (mem_bodyReached_of_introspectMark hfirst hsite)
    · exact List.mem_append_right _ (ih hothers site hsite)
  | classDef line name bases keywords inner decorators rest ihinner ihrest =>
    obtain ⟨first, others, hfirst, hothers, rfl, -⟩ := introspectBody_cons h
    rw [introspectStmt] at hfirst
    obtain ⟨inner', hinner', hmark, -⟩ := Trace.result_bind hfirst
    rw [bodyMarkSites, Stmt.markSites, introspectedBody, hinner', bodyReached_append]
    intro site hsite
    rcases List.mem_append.1 hsite with hsite | hsite
    · refine List.mem_append_left _ ?_
      rcases List.mem_append.1 hsite with hsite | hsite
      · refine mem_bodyReached_of_mem (withoutMark_mem_of_introspectMark hmark) ?_
        rw [withoutMark, Stmt.reached]
        exact List.mem_append_left _ (ihinner hinner' site hsite)
      · exact mem_bodyReached_of_introspectMark hmark hsite
    · exact List.mem_append_right _ (ihrest hothers site hsite)

/-- Emitted classes are expanded classes of sound bodies. -/
theorem exists_classDef_of_emits {registry : Registry} {filename : String} {inClass : Bool}
    {body : List Stmt} {found emitted : Stmt} (h : Emits registry filename inClass body found emitted)
    (hsound : bodySound body = true) :
    ∃ line name bases keywords inner inner' decorators,
      found = .classDef line name bases keywords inner decorators
      ∧ emitted = .classDef line name bases keywords inner' decorators
      ∧ (expandBody registry filename true inner).result = .ok inner' ∧ bodySound inner = true := by
  induction h with
  | own hmem _ hinner =>
    rw [bodySound_eq, List.all_eq_true] at hsound
    have hclass := hsound _ hmem
    simp only [Stmt.isSound, Bool.and_eq_true] at hclass
    exact ⟨_, _, _, _, _, _, _, rfl, rfl, hinner, hclass.1.2⟩
  | inner hmem _ _ ih =>
    rw [bodySound_eq, List.all_eq_true] at hsound
    have hclass := hsound _ hmem
    simp only [Stmt.isSound, Bool.and_eq_true] at hclass
    exact ih hclass.1.2

/-- Added imports leave all classes of a module in it. -/
theorem mem_bodyReached_provide (provisions : List Provision) {body : List Stmt} {reached : Stmt}
    (h : reached ∈ bodyReached body) : reached ∈ bodyReached (provide provisions body) := by
  obtain ⟨missing, front, back, rfl, hprovide⟩ := provide_eq provisions body
  rw [bodyReached_append] at h
  rw [hprovide, bodyReached_append, bodyReached_append]
  rcases List.mem_append.1 h with h | h
  · exact List.mem_append_left _ (List.mem_append_left _ h)
  · exact List.mem_append_right _ h

/-- A module with a wrapper type changes, so its expansion is printed. -/
theorem printed_of_mem_wrapperTypes {registry : Registry} {filename source : String}
    {body body' : List Stmt} {outcome : Outcome} {found : Declaration × WrapperConfig}
    (hread : parseModule source = .ok body)
    (h : (expandSource registry filename source).result = .ok outcome)
    (hexpand : (expandModule registry filename body).result = .ok body')
    (hfound : found ∈ wrapperTypes filename body) : ∃ text, printModule body' = .ok text := by
  obtain ⟨_, _, -, -, -, htypes, -⟩ := passes_of_expandSource hread h
  obtain ⟨body₁, body₁', hread₁, hexpand₁, hcases⟩ := expandSource_result h
  obtain rfl : body = body₁ := Except.ok.inj (hread.symm.trans hread₁)
  obtain rfl : body' = body₁' := Except.ok.inj (hexpand.symm.trans hexpand₁)
  rcases hcases with ⟨-, rfl⟩ | ⟨text, htext, -⟩
  · rw [List.map_eq_nil_iff.1 htypes.symm] at hfound
    cases hfound
  · exact ⟨text, htext⟩

/-- The reported configurations are those of the wrapper types of the module. The class of a wrapper type
that is emitted stands in the expanded module, and if the second pass leaves its values alone it has the
reported configuration. -/
theorem introspect_of_emits (registry : Registry) (hexpressions : registry.HoldsExpressions)
    (filename source : String) (body : List Stmt) (outcome : Outcome)
    (hread : parseModule source = .ok body)
    (h : (expandSource registry filename source).result = .ok outcome) :
    ∃ marked body', (introspectBody filename body).result = .ok marked
      ∧ (expandModule registry filename body).result = .ok body'
      ∧ outcome.configs = (wrapperTypes filename body).map (fun found => found.1.withConfig found.2)
      ∧ ∀ site ∈ bodyMarkSites filename body, ∀ declaration config,
        site.wrapperType? = some (declaration, config) → site.stmt ∈ bodyReached marked
        ∧ ∀ emitted, Emits (registry.withConfigs outcome.configs) filename false marked site.stmt emitted →
          emitted ∈ bodyReached body'
          ∧ (site.stmt.LeavesValues (registry.withConfigs outcome.configs) →
            ∃ declaration', liftDeclaration emitted = .ok declaration'
              ∧ introspect declaration' = .ok config) := by
  obtain ⟨marked, tree, hmarked, htree, hexpand, htypes, hregistry⟩ := passes_of_expandSource hread h
  have hfirst := introspects_of_result body hmarked
  obtain ⟨hsound, hconfigs⟩ := sound_of_introspects hfirst (bodySound_parseModule hread)
  have hextended : Registry.Fits true _ :=
    Registry.forall_overlay hexpressions.fits (fits_configEntries true hconfigs)
  rw [hregistry] at hextended
  refine ⟨marked, _, hmarked, hexpand, htypes, ?_⟩
  intro site hsite declaration config hfound
  refine ⟨mem_bodyReached_of_bodyMarkSites body hmarked site hsite, fun emitted hemits => ?_⟩
  have hmem := mem_bodyReached_provide (usedProvisions (expandTree registry filename body).events)
    (mem_bodyReached_of_emits hemits htree)
  refine ⟨hmem, fun hleaves => ?_⟩
  obtain ⟨line, name, bases, keywords, inner, inner', decorators, hclass, rfl, hinner, hsound'⟩ :=
    exists_classDef_of_emits hemits hsound
  obtain ⟨text, htext⟩ := printed_of_mem_wrapperTypes hread h hexpand
    (List.mem_filterMap.2 ⟨site, hsite, hfound⟩)
  obtain ⟨hlift, hconfig⟩ := MarkSite.eq_ok_of_wrapperType? hfound
  rw [hclass] at hlift hleaves
  exact introspect_of_expanded hextended hsound' hleaves hinner (hasReturnText_of_printModule htext hmem)
    hlift hconfig

/-! ## Instances -/

/-- The configuration that can be read off a statement. -/
def Source.Stmt.config? (stmt : Stmt) : Option WrapperConfig :=
  (liftDeclaration stmt).toOption.bind fun declaration => (introspect declaration).toOption

/-- The reported configurations, and those of the classes in the expanded module. -/
def emittedConfigs? (registry : Registry) (filename source : String) :
    Option (List WrapperConfig × List (Option WrapperConfig)) := do
  let body ← (parseModule source).toOption
  let body' ← (expandModule registry filename body).result.toOption
  let outcome ← (expandSource registry filename source).result.toOption
  return (outcome.configs.map (·.config), ((bodyReached body').filter Stmt.isClass).map Stmt.config?)

/-- A wrapper type whose wrapped value is itself wrapped. -/
def wrappedTwiceSource : String := "@macrofy\nclass W:\n    wrapped_value: Annotated[int, E]\n"

/-- A wrapper type with a wrapped property in front of its wrapped value. -/
def valueBehindSource : String :=
  "@macrofy\nclass W:\n    x: Annotated[int, E]\n    wrapped_value = 1\n"

/-- A registry with one wrapper, whose projected type ends its line and starts a wrapped value. -/
def valueWrapper : Registry :=
  ⟨[(.text "E", { projectedType := some "int:\n    pass\n@property\ndef wrapped_value(self)" })]⟩

/-- The class in the expanded module has another configuration than the reported one when its wrapped value
was rewritten, and when a type is no expression. -/
theorem emitted_configs_differ :
    emittedConfigs? soleWrapper "m.py" wrappedTwiceSource
        = some ([{ wrappedIsSettable := true, isReference := true }], [some { isReference := true }])
      ∧ emittedConfigs? valueWrapper "m.py" valueBehindSource
        = some ([{ wrappedIsSettable := true, isReference := true }], [some { isReference := true }]) := by
  simp only [emittedConfigs?, Direct.parseModule_eq, Direct.expandModule_eq, Direct.expandSource_eq]
  decide +kernel

/-- A registry with two wrappers, of which the first lets its wrapped value be assigned. -/
def twoWrappers : Registry := ⟨[(.text "S", { wrappedIsSettable := true }), (.text "E", {})]⟩

/-- A wrapper type whose wrapped value is itself wrapped, with a further wrapped property. -/
def valuesLeftSource : String :=
  "@macrofy\nclass W:\n    wrapped_value: Annotated[int, S]\n    x: Annotated[int, E]\n"

/-- The configurations of the marked classes whose values the second pass leaves alone, and whether it
replaces no class. -/
def leftConfigs? (registry : Registry) (filename source : String) :
    Option (List (Option WrapperConfig) × Bool) := do
  let body ← (parseModule source).toOption
  let marked ← (introspectBody filename body).result.toOption
  return (((bodyMarkSites filename body).filter fun site =>
      site.stmt.isClass && decide (site.stmt.LeavesValues registry)).map fun site =>
        site.wrapperType?.map (·.2),
    (bodyMembers false marked).all fun member => !member.isClass || (attachments registry member).isEmpty)

theorem exists_of_leftConfigs? {registry : Registry} {filename source : String} {config : WrapperConfig}
    (h : leftConfigs? registry filename source = some ([some config], true)) :
    ∃ body marked declaration, ∃ site ∈ bodyMarkSites filename body, parseModule source = .ok body
      ∧ (introspectBody filename body).result = .ok marked
      ∧ site.wrapperType? = some (declaration, config) ∧ site.stmt.isClass = true
      ∧ site.stmt.LeavesValues registry
      ∧ ∀ member ∈ bodyMembers false marked, member.isClass = true → attachments registry member = [] := by
  obtain ⟨body, hbody, h⟩ := Option.bind_eq_some_iff.1 h
  obtain ⟨marked, hmarked, h⟩ := Option.bind_eq_some_iff.1 h
  obtain ⟨hsites, hkept⟩ := Prod.mk.inj (Option.some.inj h)
  obtain ⟨site, hsite, hconfig⟩ := List.map_eq_singleton_iff.1 hsites
  obtain ⟨⟨declaration, _⟩, hfound, rfl⟩ := Option.map_eq_some_iff.1 hconfig
  obtain ⟨hmem, hleaves⟩ := List.mem_filter.1 (hsite ▸ List.mem_singleton_self site)
  rw [Bool.and_eq_true, decide_eq_true_iff] at hleaves
  refine ⟨body, marked, declaration, site, hmem, eq_ok_of_toOption hbody, eq_ok_of_toOption hmarked, hfound,
    hleaves.1, hleaves.2, fun member hmember hclass => ?_⟩
  have hnone := List.all_eq_true.1 hkept member hmember
  simpa [hclass] using hnone

/-- The configuration of the wrapper type. -/
def leftConfig : ConfigDeclaration where
  name := "WMacro"
  config := { wrappedIsSettable := true, isReference := true }
  wrapper := "W"

theorem leftConfigs?_valuesLeftSource :
    leftConfigs? (twoWrappers.withConfigs [leftConfig]) "m.py" valuesLeftSource
        = some ([some leftConfig.config], true)
      ∧ (expandSource twoWrappers "m.py" valuesLeftSource).result.toOption.map Outcome.configs
        = some [leftConfig] := by
  simp only [leftConfigs?, Direct.parseModule_eq, Direct.expandSource_eq]
  decide +kernel

theorem holdsExpressions_twoWrappers : twoWrappers.HoldsExpressions := by
  intro entry hentry
  rw [twoWrappers, List.mem_cons, List.mem_singleton] at hentry
  rcases hentry with rfl | rfl
  · exact ⟨by simp, by simp⟩
  · exact ⟨by simp, by simp⟩

/-- The emitted class has the reported configuration, although its wrapped value was rewritten. -/
theorem introspect_valuesLeftSource :
    ∃ body body' emitted, parseModule valuesLeftSource = .ok body
      ∧ (expandModule twoWrappers "m.py" body).result = .ok body' ∧ emitted ∈ bodyReached body'
      ∧ ∃ declaration, liftDeclaration emitted = .ok declaration
        ∧ introspect declaration = .ok leftConfig.config := by
  obtain ⟨hleft, houtcome⟩ := leftConfigs?_valuesLeftSource
  obtain ⟨body, marked, declaration, site, hsite, hread, hmarked, hfound, hclass, hleaves, hkept⟩ :=
    exists_of_leftConfigs? hleft
  obtain ⟨outcome, houtcome, hconfigs⟩ := Option.map_eq_some_iff.1 houtcome
  have hexpand := eq_ok_of_toOption houtcome
  obtain ⟨marked₁, body', hmarked₁, hbody', -, hsites⟩ :=
    introspect_of_emits twoWrappers holdsExpressions_twoWrappers "m.py" valuesLeftSource body outcome hread hexpand
  obtain rfl : marked = marked₁ := Except.ok.inj (hmarked.symm.trans hmarked₁)
  obtain ⟨marked₂, tree, hmarked₂, htree, -, -, -⟩ := passes_of_expandSource hread hexpand
  obtain rfl : marked = marked₂ := Except.ok.inj (hmarked.symm.trans hmarked₂)
  obtain ⟨hreached, hemits⟩ := hsites site hsite declaration _ hfound
  rw [hconfigs] at htree hemits
  obtain ⟨emitted, hemitted⟩ := exists_emits marked hclass htree hkept hreached
  obtain ⟨hmem, hintrospect⟩ := hemits emitted hemitted
  exact ⟨body, body', emitted, hread, hbody', hmem, hintrospect hleaves⟩

end PropertyWrapper
