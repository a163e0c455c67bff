import PropertyWrapper.Proofs.Expansion.Accounting
import PropertyWrapper.Proofs.Expansion.Declared
import PropertyWrapper.Proofs.Expansion.Hygiene

/-!
# Wrapper types and the properties that use them

The second pass works with the given registry and, over it, the configurations of the wrapper types that the
first pass has found. A property whose wrapper has the name of such a type is therefore expanded as the
members of the last type with this name demand.

* `wrapperTypes` : the wrapper types of a module in the order in which they are found;
* `Registry.withConfigs` : the registry of the second pass;
* `Registry.find?_overlay_of_last` : the last write under a key counts;
* `Agrees` : some declarations are as the members of a wrapper type demand;
* `agrees_of_expandSource` : both passes of an expansion agree.
-/

namespace PropertyWrapper

open Source Text

/-! ## Wrapper types of a module -/

/-- The wrapper type that a mark stands on, with its configuration. -/
def MarkSite.wrapperType? (site : MarkSite) : Option (Declaration × WrapperConfig) := do
  let declaration ← (liftDeclaration site.stmt).toOption
  let config ← (introspect declaration).toOption
  return (declaration, config)

/-- The wrapper types that the first pass finds in a module, inner classes before the class that holds
them. -/
def wrapperTypes (filename : String) (body : List Stmt) : List (Declaration × WrapperConfig) :=
  (bodyMarkSites filename body).filterMap MarkSite.wrapperType?

/-- A mark gives a configuration exactly if it stands on a wrapper type. -/
theorem toOption_of_judged {filename : String} {site : MarkSite} {verdict : Verdict}
    (h : site.Judged filename verdict) :
    verdict.toOption = site.wrapperType?.map fun found => found.1.withConfig found.2 := by
  obtain ⟨attr, declaration, -, hdeclaration, rfl⟩ := h
  rw [MarkSite.wrapperType?, hdeclaration, expandWrapper]
  change _ = ((introspect declaration).toOption.bind fun config => some (declaration, config)).map _
  cases introspect declaration <;> rfl

theorem toOption_of_forall₂_judged {filename : String} {sites : List MarkSite} {verdicts : List Verdict}
    (h : List.Forall₂ (MarkSite.Judged filename) sites verdicts) :
    verdicts.filterMap Except.toOption
      = (sites.filterMap MarkSite.wrapperType?).map fun found => found.1.withConfig found.2 := by
  induction h with
  | nil => rfl
  | cons hsite hrest ih =>
    rw [List.filterMap_cons, List.filterMap_cons, toOption_of_judged hsite, ih]
    cases MarkSite.wrapperType? _ <;> rfl

/-- The configurations of the first pass are those of the wrapper types of the module. -/
theorem configs_of_introspectBody {filename : String} {body marked : List Stmt}
    (h : (introspectBody filename body).result = .ok marked) :
    (introspectBody filename body).events.filterMap Event.config?
      = (wrapperTypes filename body).map fun found => found.1.withConfig found.2 := by
  obtain ⟨verdicts, hverdicts, hreports⟩ := verdicts_of_introspectBody body h
  rw [hreports.configs, toOption_of_forall₂_judged hverdicts, wrapperTypes]

theorem MarkSite.eq_ok_of_wrapperType? {site : MarkSite} {found : Declaration × WrapperConfig}
    (h : site.wrapperType? = some found) :
    liftDeclaration site.stmt = .ok found.1 ∧ introspect found.1 = .ok found.2 := by
  obtain ⟨declaration, hdeclaration, h⟩ := Option.bind_eq_some_iff.1 h
  obtain ⟨config, hconfig, h⟩ := Option.bind_eq_some_iff.1 h
  cases h
  exact ⟨eq_ok_of_toOption hdeclaration, eq_ok_of_toOption hconfig⟩

theorem introspect_of_mem_wrapperTypes {filename : String} {body : List Stmt}
    {found : Declaration × WrapperConfig} (h : found ∈ wrapperTypes filename body) :
    introspect found.1 = .ok found.2 := by
  obtain ⟨site, -, hsite⟩ := List.mem_filterMap.1 h
  exact (MarkSite.eq_ok_of_wrapperType? hsite).2

/-! ## The registry of the second pass -/

namespace Registry

variable {registry : Registry} {key : Key} {config : WrapperConfig}

/-- A registry with generated configurations written over it in order, each under the name of its wrapper
type. -/
def withConfigs (registry : Registry) (configs : List ConfigDeclaration) : Registry :=
  registry.overlay (configs.map fun declaration => (.text declaration.wrapper, declaration.config))

theorem find?_overlay_of_forall_ne {entries : List (Key × WrapperConfig)}
    (h : ∀ entry ∈ entries, entry.1 ≠ key) :
    (registry.overlay entries).find? key = registry.find? key := by
  induction entries generalizing registry with
  | nil => rfl
  | cons entry entries ih =>
    obtain ⟨hentry, hentries⟩ := List.forall_mem_cons.1 h
    have hrest : ((registry.write entry.1 entry.2).overlay entries).find? key
        = (registry.write entry.1 entry.2).find? key := ih hentries
    rw [find?_write_of_ne hentry.symm] at hrest
    exact hrest

/-- The last write under a key counts. -/
theorem find?_overlay_of_last {before behind : List (Key × WrapperConfig)}
    (h : ∀ entry ∈ behind, entry.1 ≠ key) :
    (registry.overlay (before ++ (key, config) :: behind)).find? key = some config := by
  rw [overlay_append]
  change (((registry.overlay before).write key config).overlay behind).find? key = some config
  rw [find?_overlay_of_forall_ne h, find?_write_self]

/-- A name that is written last resolves to what was written. -/
theorem resolve_overlay_of_last {before behind : List (Key × WrapperConfig)} {name : String}
    (h : ∀ entry ∈ behind, entry.1 ≠ .text name) :
    (registry.overlay (before ++ (.text name, config) :: behind)).resolve (some name) = some config := by
  rw [resolve, Option.bind_some, find?_overlay_of_last h]
  rfl

end Registry

/-! ## Agreement -/

/-- All accessors of declarations: those of the property and those of computed properties beside it. -/
def Declarations.allAccessors (declarations : Declarations) : List Accessor :=
  declarations.accessors ++ declarations.peers.flatMap fun
    | .storage _ => []
    | .property computed => computed.accessors

/-- Some accessors contain a setter of a property. -/
def HasSetter (accessors : List Accessor) (property : String) : Prop :=
  ∃ accessor ∈ accessors, accessor.kind = .set ∧ accessor.property = property

/-- The declarations of a wrapped property are as the members of a wrapper type demand: `wrapped` is the
member that holds the wrapped value, `projected` the one for the projected value if there is one. -/
structure Agrees (kind : DeclarationKind) (wrapped : Member) (projected : Option Member)
    (identifier : String) (declarations : Declarations) : Prop where
  setter : HasSetter declarations.allAccessors identifier ↔ wrapped.isSettable = true
  /-- There is a projection exactly if there is a projected value with a type. -/
  projects : (∃ computed, .property computed ∈ declarations.peers)
    ↔ ∃ member type, projected = some member ∧ member.type = some type
  /-- A projection has the type of the projected value, also in its accessors, and a setter exactly if the
  projected value can be assigned. -/
  projection : ∀ computed, .property computed ∈ declarations.peers →
    ∃ member, projected = some member ∧ computed.name = projectedName identifier
      ∧ computed.type = member.type.map .whole
      ∧ (∀ accessor ∈ computed.accessors, accessor.type = member.type.map .whole)
      ∧ (HasSetter computed.accessors computed.name ↔ member.isSettable = true)
  /-- There is one storage. It is immutable exactly if wrappers are shared or nothing can be assigned. -/
  storage : ∃ place, (∀ other, .storage other ∈ declarations.peers ↔ other = place)
    ∧ place.name = storageName identifier
    ∧ (place.binding = .immutable ↔ kind.isReference = true
      ∨ wrapped.isSettable = false ∧ projected.any (·.isSettable) = false)

theorem hasSetter_forwarding {property storage member : String} {type : Option LooseText}
    {isSettable : Bool} {name : String} :
    HasSetter (forwarding property storage member type isSettable) name
      ↔ isSettable = true ∧ property = name := by
  cases isSettable <;> simp [HasSetter, forwarding]

theorem mem_forwarding {property storage member : String} {type : Option LooseText} {isSettable : Bool}
    {accessor : Accessor} (h : accessor ∈ forwarding property storage member type isSettable) :
    accessor.property = property ∧ accessor.type = type := by
  cases isSettable with
  | false =>
    obtain rfl := List.mem_singleton.1 h
    exact ⟨rfl, rfl⟩
  | true =>
    rcases List.mem_cons.1 h with rfl | h
    · exact ⟨rfl, rfl⟩
    · obtain rfl := List.mem_singleton.1 h
      exact ⟨rfl, rfl⟩

theorem hasSetter_append {accessors accessors' : List Accessor} {name : String} :
    HasSetter (accessors ++ accessors') name ↔ HasSetter accessors name ∨ HasSetter accessors' name := by
  simp only [HasSetter, List.mem_append, or_and_right, exists_or]

theorem storageBinding_eq_immutable_iff {config : WrapperConfig} :
    config.storageBinding = .immutable ↔ config.isReference = true
      ∨ config.wrappedIsSettable = false ∧ config.projectedIsSettable = false := by
  rw [WrapperConfig.storageBinding, WrapperConfig.storageIsMutable]
  cases config.isReference <;> cases config.wrappedIsSettable <;> cases config.projectedIsSettable <;> simp

section Wrapped

variable (kind : DeclarationKind) (wrapped : Member) (projected : Option Member) (identifier : String)

/-- The projection that follows from the members of a wrapper type. -/
theorem projection_configOf (computed : ComputedProperty) :
    projection (configOf kind wrapped projected) identifier = some computed
      ↔ ∃ value type, projected = some value ∧ value.type = some type
        ∧ computed = {
          name := projectedName identifier
          type := some (.whole type)
          accessors := forwarding (projectedName identifier) (storageName identifier) projectedValue
            (some (.whole type)) value.isSettable } := by
  constructor
  · intro h
    obtain ⟨_, hprojected, rfl⟩ := Option.map_eq_some_iff.1 h
    obtain ⟨type, hbind, rfl⟩ := Option.map_eq_some_iff.1 hprojected
    obtain ⟨value, rfl, htype⟩ := Option.bind_eq_some_iff.1 hbind
    exact ⟨value, type, rfl, htype, rfl⟩
  · rintro ⟨value, type, rfl, htype, rfl⟩
    rw [projection, configOf, Option.bind_some, htype]
    rfl

theorem mem_peers_wrappedDeclarations {config : WrapperConfig} {attr : Attribute} {member : Member}
    {computed : ComputedProperty} :
    .property computed ∈ (wrappedDeclarations config attr member identifier).peers
      ↔ projection config identifier = some computed := by
  rw [wrappedDeclarations, List.mem_cons, Option.mem_toList, Option.map_eq_some_iff]
  constructor
  · rintro (h | ⟨_, h, heq⟩)
    · cases h
    · cases heq
      exact h
  · intro h
    exact .inr ⟨computed, h, rfl⟩

/-- Only the accessors of the property itself can be setters of it. -/
theorem hasSetter_wrappedDeclarations {config : WrapperConfig} {attr : Attribute} {member : Member} :
    HasSetter (wrappedDeclarations config attr member identifier).allAccessors identifier
      ↔ config.wrappedIsSettable = true := by
  rw [Declarations.allAccessors, hasSetter_append]
  constructor
  · rintro (h | ⟨accessor, haccessor, -, hname⟩)
    · exact (hasSetter_forwarding.1 h).1
    · exfalso
      obtain ⟨peer, hpeer, haccessor⟩ := List.mem_flatMap.1 haccessor
      cases peer with
      | storage => cases haccessor
      | property computed =>
        have hcomputed := (mem_peers_wrappedDeclarations identifier).1 hpeer
        obtain ⟨type, -, rfl⟩ := Option.map_eq_some_iff.1 hcomputed
        exact projectedName_ne identifier ((mem_forwarding haccessor).1.symm.trans hname)
  · intro h
    exact .inl (hasSetter_forwarding.2 ⟨h, rfl⟩)

/-- The declarations of a property are as the members demand from which the configuration of its wrapper
follows. -/
theorem agrees_wrappedDeclarations (attr : Attribute) (member : Member) :
    Agrees kind wrapped projected identifier
      (wrappedDeclarations (configOf kind wrapped projected) attr member identifier) := by
  constructor
  · exact hasSetter_wrappedDeclarations identifier
  · constructor
    · rintro ⟨computed, hcomputed⟩
      obtain ⟨value, type, hvalue, htype, -⟩ := (projection_configOf kind wrapped projected identifier
        computed).1 ((mem_peers_wrappedDeclarations identifier).1 hcomputed)
      exact ⟨value, type, hvalue, htype⟩
    · rintro ⟨value, type, hvalue, htype⟩
      have hprojection := (projection_configOf kind wrapped projected identifier _).2
        ⟨value, type, hvalue, htype, rfl⟩
      exact ⟨_, (mem_peers_wrappedDeclarations identifier).2 hprojection⟩
  · intro computed hcomputed
    obtain ⟨value, type, hvalue, htype, rfl⟩ := (projection_configOf kind wrapped projected identifier
      computed).1 ((mem_peers_wrappedDeclarations identifier).1 hcomputed)
    refine ⟨value, hvalue, rfl, ?_, ?_, ?_⟩
    · rw [htype]
      rfl
    · intro accessor haccessor
      rw [(mem_forwarding haccessor).2, htype]
      rfl
    · rw [hasSetter_forwarding]
      exact and_iff_left rfl
  · refine ⟨{
      name := storageName identifier
      binding := (configOf kind wrapped projected).storageBinding
      wrapperType := (configOf kind wrapped projected).wrapperTypeFor attr
      arguments := constructionArguments attr member.initializer }, fun other => ?_, rfl,
      storageBinding_eq_immutable_iff⟩
    rw [wrappedDeclarations, List.mem_cons, Option.mem_toList, Option.map_eq_some_iff]
    constructor
    · rintro (h | ⟨_, -, h⟩)
      · cases h
        rfl
      · cases h
    · rintro rfl
      exact .inl rfl

end Wrapped

/-! ## Expansions -/

/-- The plain name that a statement annotates. -/
def Source.Stmt.annotatedName? : Stmt → Option String
  | .annAssign _ (.name _ identifier) .. => some identifier
  | _ => none

theorem isClass_of_annotatedName? {stmt : Stmt} {identifier : String}
    (h : stmt.annotatedName? = some identifier) : stmt.isClass = false := by
  unfold Stmt.annotatedName? at h
  split at h
  · rfl
  · cases h

/-- A wrapper type in its place among those of a module: no later one has its name. -/
def IsLastNamed (types : List (Declaration × WrapperConfig)) (declaration : Declaration) : Prop :=
  ∃ before config behind, types = before ++ (declaration, config) :: behind
    ∧ ∀ found ∈ behind, found.1.name ≠ declaration.name

theorem introspect_eq_ok {declaration : Declaration} {config : WrapperConfig}
    (h : introspect declaration = .ok config) :
    ∃ wrapped, findMember declaration.members wrappedValue = some wrapped
      ∧ config = configOf declaration.kind wrapped (findMember declaration.members projectedValue) := by
  unfold introspect at h
  split at h
  · split at h
    · cases h
    · rename_i wrapped hwrapped
      cases h
      exact ⟨wrapped, hwrapped, rfl⟩
  · cases h

/-- The name of a wrapper type resolves to the configuration of the last type with that name. -/
theorem resolve_of_isLastNamed (registry : Registry) {filename : String} {body : List Stmt}
    {declaration : Declaration} (h : IsLastNamed (wrapperTypes filename body) declaration) :
    ∃ config, introspect declaration = .ok config
      ∧ (registry.withConfigs ((wrapperTypes filename body).map fun found =>
        found.1.withConfig found.2)).resolve (some declaration.name) = some config := by
  obtain ⟨before, config, behind, htypes, hbehind⟩ := h
  have hmem : (declaration, config) ∈ wrapperTypes filename body := by
    rw [htypes]
    exact List.mem_append_right _ List.mem_cons_self
  refine ⟨config, introspect_of_mem_wrapperTypes hmem, ?_⟩
  rw [Registry.withConfigs, htypes, List.map_append, List.map_append, List.map_cons, List.map_cons]
  apply Registry.resolve_overlay_of_last
  intro entry hentry heq
  obtain ⟨generated, hgenerated, rfl⟩ := List.mem_map.1 hentry
  obtain ⟨found, hfound, rfl⟩ := List.mem_map.1 hgenerated
  exact hbehind found hfound (Document.Scalar.text.inj heq)

/-- An annotated plain name whose first wrapper has the name of a wrapper type is replaced as the members of
the last such type demand. -/
theorem agrees_of_declares {registry : Registry} {filename : String} {body : List Stmt} {stmt : Stmt}
    {identifier : String} {first : Attachment} {extras : List Attachment} {declaration : Declaration}
    {declarations : Declarations}
    (hlast : IsLastNamed (wrapperTypes filename body) declaration)
    (hname : stmt.annotatedName? = some identifier)
    (hsome : attachments (registry.withConfigs ((wrapperTypes filename body).map fun found =>
      found.1.withConfig found.2)) stmt = first :: extras)
    (hfirst : referenceName first.entry = some declaration.name)
    (h : Declares (registry.withConfigs ((wrapperTypes filename body).map fun found =>
      found.1.withConfig found.2)) stmt declarations) :
    ∃ wrapped, findMember declaration.members wrappedValue = some wrapped
      ∧ Agrees declaration.kind wrapped (findMember declaration.members projectedValue) identifier
        declarations := by
  obtain ⟨config, hconfig, hresolve⟩ := resolve_of_isLastNamed registry hlast
  have hresolve' := (attachment_of_mem (hsome ▸ List.mem_cons_self)).2
  rw [hfirst] at hresolve'
  obtain rfl : config = first.config := Option.some.inj (hresolve.symm.trans hresolve')
  obtain ⟨wrapped, hwrapped, hfacts⟩ := introspect_eq_ok hconfig
  refine ⟨wrapped, hwrapped, ?_⟩
  unfold Stmt.annotatedName? at hname
  split at hname
  · cases hname
    obtain ⟨attr, type, initializer, -, hdeclarations⟩ := h.eq_wrappedDeclarations hsome
    rw [hdeclarations, hfacts]
    exact agrees_wrappedDeclarations ..
  · cases hname

/-- The two passes of an expansion: the first one finds the reported configurations, and the second one
works with the registry that they are written over. -/
theorem passes_of_expandSource {registry : Registry} {filename source : String} {body : List Stmt}
    {outcome : Outcome} (hread : parseModule source = .ok body)
    (h : (expandSource registry filename source).result = .ok outcome) :
    ∃ marked tree, (introspectBody filename body).result = .ok marked
      ∧ (expandBody (registry.withConfigs outcome.configs) filename false marked).result = .ok tree
      ∧ (expandModule registry filename body).result
        = .ok (provide (usedProvisions (expandTree registry filename body).events) tree)
      ∧ outcome.configs = (wrapperTypes filename body).map (fun found => found.1.withConfig found.2)
      ∧ registry.overlay (configEntries (introspectBody filename body).events)
        = registry.withConfigs outcome.configs := by
  obtain ⟨-, hconfigs, -, -⟩ := events_expandSource hread h
  obtain ⟨body₁, body', hread₁, hexpand, -⟩ := expandSource_result h
  obtain rfl : body = body₁ := Except.ok.inj (hread.symm.trans hread₁)
  obtain ⟨tree, htree, rfl, hevents⟩ := expandModule_result hexpand
  obtain ⟨marked, hmarked, htree', hevents'⟩ := Trace.result_bind htree
  obtain ⟨treated, hsteps⟩ := steps_of_expandBody marked htree'
  change (expandTree registry filename body).events = _ at hevents'
  -- All reported configurations come from the first pass, so the registry of the second is known.
  have hreported : outcome.configs = (introspectBody filename body).events.filterMap Event.config? := by
    rw [hconfigs, hevents, hevents', List.filterMap_append, (reported_of_steps hsteps).configs,
      List.append_nil]
  have hregistry : registry.overlay (configEntries (introspectBody filename body).events)
      = registry.withConfigs outcome.configs := by
    rw [hreported]
    rfl
  rw [hregistry] at htree'
  exact ⟨marked, tree, hmarked, htree', hexpand, hreported.trans (configs_of_introspectBody hmarked),
    hregistry⟩

/-- Both passes of an expansion agree. The second pass uses the given registry with the reported
configurations written over it in order. An annotated plain name whose first wrapper has the name of a
wrapper type of the module is replaced as the members of the last such type demand. -/
theorem agrees_of_expandSource (registry : Registry) (filename source : String) (body : List Stmt)
    (outcome : Outcome) (hread : parseModule source = .ok body)
    (h : (expandSource registry filename source).result = .ok outcome) :
    ∃ marked, (introspectBody filename body).result = .ok marked
      ∧ expandTree registry filename body = (introspectBody filename body).andThen
        (expandBody (registry.withConfigs outcome.configs) filename false)
      ∧ ∀ stmt ∈ bodyMembers false marked, ∀ identifier first extras declaration,
        stmt.annotatedName? = some identifier →
        attachments (registry.withConfigs outcome.configs) stmt = first :: extras →
        referenceName first.entry = some declaration.name →
        IsLastNamed (wrapperTypes filename body) declaration →
        ∃ declarations stmts wrapped,
          (expandMember (registry.withConfigs outcome.configs) filename stmt).result = .ok stmts
          ∧ declarations.statements = .ok stmts
          ∧ Declares (registry.withConfigs outcome.configs) stmt declarations
          ∧ findMember declaration.members wrappedValue = some wrapped
          ∧ Agrees declaration.kind wrapped (findMember declaration.members projectedValue) identifier
            declarations := by
  obtain ⟨marked, tree, hmarked, htree, -, htypes, hregistry⟩ := passes_of_expandSource hread h
  obtain ⟨treated, hsteps⟩ := steps_of_expandBody marked htree
  refine ⟨marked, hmarked, by rw [← hregistry]; rfl, ?_⟩
  intro stmt hmember identifier first extras declaration hname hsome hfirst hlast
  -- An annotation has no body, so the second pass meets it as the first one left it.
  have htreated := hsteps.mem_treated (isClass_of_annotatedName? hname) hmember
  obtain ⟨stmts, hstmts⟩ := hsteps.result _ htreated
  obtain ⟨declarations, hdeclares, hstatements⟩ := exists_declares (by rw [hsome]; simp) hstmts
  rw [htypes] at hsome hdeclares ⊢
  obtain ⟨wrapped, hwrapped, hagrees⟩ := agrees_of_declares hlast hname hsome hfirst hdeclares
  rw [← htypes] at hdeclares ⊢
  exact ⟨declarations, stmts, wrapped, hstmts, hstatements, hdeclares, hwrapped, hagrees⟩

/-! ## An instance -/

/-- A property in front of two wrapper types with the name of its wrapper, of which the second counts. -/
def twiceNamedSource : String :=
  "class A:\n    x: Annotated[int, W]\n    @macrofy\n    class W:\n        wrapped_value = 1\n" ++
  "@macrofy\nclass W:\n    wrapped_value: Final\n"

/-- The inner wrapper type of the source. -/
def firstNamed : Declaration where
  kind := .referenceClass
  name := "W"
  members := [{ patterns := [.identifier "wrapped_value"], initializer := some "1", line := 5 }]
  line := 4

/-- The wrapper type of the source that counts. -/
def lastNamed : Declaration where
  kind := .referenceClass
  name := "W"
  members := [{ patterns := [.identifier "wrapped_value"], binding := .immutable, line := 8 }]
  line := 7

/-- The wrapper types of the source. -/
def twiceNamedTypes : List (Declaration × WrapperConfig) :=
  [(firstNamed, { wrappedIsSettable := true, isReference := true }), (lastNamed, { isReference := true })]

/-- The annotated plain names of some statements, each with the name that its first wrapper refers to. -/
def wrapperNames (registry : Registry) (stmts : List Stmt) : List (String × Option String) :=
  stmts.filterMap fun stmt => stmt.annotatedName?.bind fun identifier =>
    (attachments registry stmt).head?.map fun first => (identifier, referenceName first.entry)

theorem wrapperTypes_twiceNamedSource :
    ((parseModule twiceNamedSource).toOption.bind fun body =>
      (introspectBody "m.py" body).result.toOption.map fun marked =>
        (wrapperTypes "m.py" body, wrapperNames (soleWrapper.withConfigs (twiceNamedTypes.map fun found =>
          found.1.withConfig found.2)) (bodyMembers false marked)))
      = some (twiceNamedTypes, [("x", some "W")])
    ∧ (expandSource soleWrapper "m.py" twiceNamedSource).result.toOption.map Outcome.configs
      = some (twiceNamedTypes.map fun found => found.1.withConfig found.2) := by
  simp only [Direct.parseModule_eq, Direct.expandSource_eq]
  decide +kernel

/-- The property of the source agrees with the second wrapper type, so it has no setter and its storage is
immutable. -/
theorem agrees_twiceNamedSource :
    ∃ body marked outcome stmt stmts declarations wrapped, parseModule twiceNamedSource = .ok body
      ∧ (expandSource soleWrapper "m.py" twiceNamedSource).result = .ok outcome
      ∧ (introspectBody "m.py" body).result = .ok marked
      ∧ stmt ∈ bodyMembers false marked ∧ stmt.annotatedName? = some "x"
      ∧ IsLastNamed (wrapperTypes "m.py" body) lastNamed
      ∧ (expandMember (soleWrapper.withConfigs outcome.configs) "m.py" stmt).result = .ok stmts
      ∧ declarations.statements = .ok stmts
      ∧ findMember lastNamed.members wrappedValue = some wrapped
      ∧ Agrees .referenceClass wrapped none "x" declarations
      ∧ ¬ HasSetter declarations.allAccessors "x" := by
  obtain ⟨htypes, houtcome⟩ := wrapperTypes_twiceNamedSource
  obtain ⟨body, hbody, hmarked⟩ := Option.bind_eq_some_iff.1 htypes
  obtain ⟨marked, hmarked, htypes⟩ := Option.map_eq_some_iff.1 hmarked
  obtain ⟨htypes, hnames⟩ := Prod.mk.inj htypes
  obtain ⟨outcome, houtcome, hconfigs⟩ := Option.map_eq_some_iff.1 houtcome
  have hread := eq_ok_of_toOption hbody
  have hexpand := eq_ok_of_toOption houtcome
  have hmarked := eq_ok_of_toOption hmarked
  -- The statement of the property is the one whose wrapper has the name of the types.
  have hmem : ("x", some "W") ∈ wrapperNames (soleWrapper.withConfigs outcome.configs)
      (bodyMembers false marked) := by
    rw [hconfigs, hnames]
    exact List.mem_singleton_self _
  obtain ⟨stmt, hstmt, hnamed⟩ := List.mem_filterMap.1 hmem
  obtain ⟨identifier, hidentifier, hnamed⟩ := Option.bind_eq_some_iff.1 hnamed
  obtain ⟨first, hfirst, hnamed⟩ := Option.map_eq_some_iff.1 hnamed
  obtain ⟨rfl, hreference⟩ := Prod.mk.inj hnamed
  obtain ⟨extras, hsome⟩ := List.head?_eq_some_iff.1 hfirst
  have hlast : IsLastNamed (wrapperTypes "m.py" body) lastNamed :=
    ⟨twiceNamedTypes.take 1, { isReference := true }, [], htypes, fun _ h => absurd h List.not_mem_nil⟩
  obtain ⟨marked', hmarked', -, hagrees⟩ :=
    agrees_of_expandSource soleWrapper "m.py" twiceNamedSource body outcome hread hexpand
  obtain rfl : marked = marked' := Except.ok.inj (hmarked.symm.trans hmarked')
  obtain ⟨declarations, stmts, wrapped, hstmts, hstatements, -, hwrapped, hagrees⟩ :=
    hagrees stmt hstmt "x" first extras lastNamed hidentifier hsome hreference hlast
  have hsettable : wrapped.isSettable ≠ true := by
    obtain rfl := Option.some.inj hwrapped
    decide
  exact ⟨body, marked, outcome, stmt, stmts, declarations, wrapped, hread, hexpand, hmarked, hstmt,
    hidentifier, hlast, hstmts, hstatements, hwrapped, hagrees, fun h => hsettable (hagrees.setter.1 h)⟩

end PropertyWrapper
