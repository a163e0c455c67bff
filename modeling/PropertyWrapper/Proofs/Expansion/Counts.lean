import PropertyWrapper.Proofs.Expansion.Idempotence

/-!
# What is reported and what is left

An expansion reports how many properties it expanded and how many configurations it generated. Each
expanded property has one storage, and each configuration is one assignment. But a class inside a class
that has a wrapper attached to it is replaced as a whole, with all that was generated in its body, and
this is not taken off the reported numbers.

* `bodyTally` : how many statements of a module and of its classes have a property;
* `bodyHidden` : how many of them stand in classes that are replaced;
* `tally_storages_of_expands`, `tally_configs_of_expands` : the second pass loses exactly those;
* `reported_eq_tally_add_hidden` : the reported numbers, and when they describe the expanded module.
-/

namespace PropertyWrapper

open Source

/-! ## Tallies -/

mutual

/-- How many statements at the level of a module or of its classes have a property, in a statement. -/
def Source.Stmt.tally (p : Stmt → Bool) : Stmt → Nat
  | .classDef _ _ _ _ body _ => bodyTally p body
  | stmt => (p stmt).toNat

/-- How many statements at the level of a module or of its classes have a property, in a body. -/
def bodyTally (p : Stmt → Bool) : List Stmt → Nat
  | [] => 0
  | stmt :: rest => stmt.tally p + bodyTally p rest

end

mutual

/-- How many statements with a property stand in classes that the second pass replaces. Only a class in
the body of another class is replaced. -/
def Source.Stmt.hidden (registry : Registry) (p : Stmt → Bool) (inClass : Bool) : Stmt → Nat
  | .classDef _ _ _ _ body decorators =>
    if inClass && registry.resolvesAny decorators then bodyTally p body
    else bodyHidden registry p true body
  | _ => 0

/-- How many statements of a body stand in classes that the second pass replaces. -/
def bodyHidden (registry : Registry) (p : Stmt → Bool) (inClass : Bool) : List Stmt → Nat
  | [] => 0
  | stmt :: rest => stmt.hidden registry p inClass + bodyHidden registry p inClass rest

end

/-- Whether a statement is a function with the decorator of storages. -/
def Source.Stmt.isStorage : Stmt → Bool
  | .function _ _ _ _ _ decorators _ =>
    decorators.any fun decorator => referenceName decorator = some storageDecorator
  | _ => false

/-- Whether a statement assigns a configuration. -/
def Source.Stmt.isConfig : Stmt → Bool
  | .assign _ _ (.call pos func args keywords) =>
    referenceName (.call pos func args keywords) = some configConstructor
  | _ => false

/-- Whether a statement annotates a plain name with a registered wrapper. -/
def Source.Stmt.isWrapped (registry : Registry) : Stmt → Bool
  | .annAssign _ (.name ..) hint _ _ =>
    registry.resolvesAny (((annotated? hint).map (·.metadata)).getD [])
  | _ => false

/-- How many properties some events expand. -/
def expandedCount (events : List Event) : Nat := (events.filterMap Event.storage?).length

/-- How many configurations some events generate. -/
def generatedCount (events : List Event) : Nat := (events.filterMap Event.config?).length

section Tallies

variable {p : Stmt → Bool}

theorem tally_of_not_class {stmt : Stmt} (h : stmt.isClass = false) : stmt.tally p = (p stmt).toNat := by
  cases stmt with
  | classDef => cases h
  | _ => rfl

theorem hidden_of_not_class {registry : Registry} {inClass : Bool} {stmt : Stmt}
    (h : stmt.isClass = false) : stmt.hidden registry p inClass = 0 := by
  cases stmt with
  | classDef => cases h
  | _ => rfl

theorem bodyTally_singleton (stmt : Stmt) : bodyTally p [stmt] = stmt.tally p := rfl

theorem bodyTally_append (body body' : List Stmt) :
    bodyTally p (body ++ body') = bodyTally p body + bodyTally p body' := by
  induction body with
  | nil => rw [List.nil_append, bodyTally, Nat.zero_add]
  | cons stmt rest ih => rw [List.cons_append, bodyTally, bodyTally, ih, Nat.add_assoc]

end Tallies

theorem expandedCount_append (events events' : List Event) :
    expandedCount (events ++ events') = expandedCount events + expandedCount events' := by
  rw [expandedCount, List.filterMap_append, List.length_append]
  rfl

theorem generatedCount_append (events events' : List Event) :
    generatedCount (events ++ events') = generatedCount events + generatedCount events' := by
  rw [generatedCount, List.filterMap_append, List.length_append]
  rfl

/-! ## Configurations and the first pass -/

theorem any_eraseP_of_not {α : Type} {p q : α → Bool} (hne : ∀ a, p a = true → q a = false)
    (list : List α) : (list.eraseP p).any q = list.any q := by
  induction list with
  | nil => rfl
  | cons a list ih =>
    rw [List.eraseP_cons]
    cases ha : p a with
    | true => rw [cond_true, List.any_cons, hne a ha, Bool.false_or]
    | false => rw [cond_false, List.any_cons, List.any_cons, ih]

/-- A wrapper mark is not the decorator of a storage. -/
theorem ne_storageDecorator_of_mark {e : Expr} (h : isWrapperMark e = true) :
    decide (referenceName e = some storageDecorator) = false := by
  rw [decide_eq_false_iff_not]
  intro hname
  have hother : refersTo (some storageDecorator) ["macrofy"] = false := by decide
  rw [isWrapperMark, hname, hother] at h
  cases h

theorem tally_withoutMark (stmt : Stmt) :
    (withoutMark stmt).tally Stmt.isStorage = stmt.tally Stmt.isStorage
      ∧ (withoutMark stmt).tally Stmt.isConfig = stmt.tally Stmt.isConfig := by
  cases stmt with
  | function line isAsync name params body decorators returns =>
    refine ⟨?_, rfl⟩
    simp only [withoutMark, Stmt.tally, Stmt.isStorage]
    rw [any_eraseP_of_not fun e => ne_storageDecorator_of_mark]
  | _ => exact ⟨rfl, rfl⟩

/-- Resolving a mark adds the assignments of generated configurations and no storages. -/
theorem tally_of_markStep {filename : String} {stmt : Stmt} {stmts : List Stmt} {events : List Event}
    (h : MarkStep filename stmt stmts events) :
    bodyTally Stmt.isStorage stmts = stmt.tally Stmt.isStorage
      ∧ bodyTally Stmt.isConfig stmts = stmt.tally Stmt.isConfig + generatedCount events
      ∧ expandedCount events = 0 := by
  obtain ⟨hstorage, hconfig⟩ := tally_withoutMark stmt
  cases h with
  | unmarked hmark => exact ⟨rfl, rfl, rfl⟩
  | @wrapper mark declaration attr config hmark hdeclaration hattr hconfig' =>
    refine ⟨?_, ?_, rfl⟩
    · rw [bodyTally, hstorage]
      rfl
    · rw [bodyTally, hconfig]
      rfl
  | refused hmark hdeclaration hattr hproblem =>
    refine ⟨?_, ?_, rfl⟩
    · rw [bodyTally_singleton, hstorage]
    · rw [bodyTally_singleton, hconfig]
      rfl

/-- The first pass adds the assignments of generated configurations and no storages. -/
theorem tally_of_introspects {filename : String} {body body' : List Stmt} {events : List Event}
    (h : Introspects filename body body' events) :
    bodyTally Stmt.isStorage body' = bodyTally Stmt.isStorage body
      ∧ bodyTally Stmt.isConfig body' = bodyTally Stmt.isConfig body + generatedCount events
      ∧ expandedCount events = 0 := by
  induction h with
  | nil => exact ⟨rfl, rfl, rfl⟩
  | other hclass hstep hrest ih =>
    obtain ⟨hstorages, hconfigs, hexpanded⟩ := tally_of_markStep hstep
    obtain ⟨hstorages', hconfigs', hexpanded'⟩ := ih
    simp only [bodyTally, bodyTally_append, generatedCount_append, expandedCount_append]
    omega
  | classDef hbody hstep hrest ihbody ihrest =>
    obtain ⟨hstorages, hconfigs, hexpanded⟩ := tally_of_markStep hstep
    obtain ⟨hstorages', hconfigs', hexpanded'⟩ := ihrest
    obtain ⟨hinner, hinner', hinner''⟩ := ihbody
    simp only [Stmt.tally] at hstorages hconfigs
    simp only [bodyTally, Stmt.tally, bodyTally_append, generatedCount_append, expandedCount_append]
    omega

/-! ## Storages and the second pass -/

theorem attachments_ne_nil {registry : Registry} {stmt : Stmt}
    (h : registry.resolvesAny (attributeExprs stmt) = true) : attachments registry stmt ≠ [] := by
  intro hnil
  rw [attachments_eq_nil_iff.1 hnil] at h
  cases h

/-- Only an annotated plain name is a target that can be wrapped. -/
theorem isSome_single?_liftTarget {registry : Registry} {stmt : Stmt} {index : Option Nat}
    {target : Target} (hsome : attachments registry stmt ≠ [])
    (h : liftTarget stmt index = .ok target) : target.single?.isSome = stmt.isWrapped registry := by
  have hresolves : registry.resolvesAny (attributeExprs stmt) = true := by
    rw [← Bool.not_eq_false]
    exact fun hnone => hsome (attachments_eq_nil_iff.2 hnone)
  unfold liftTarget at h
  split at h
  · rename_i line place hint value bare
    obtain ⟨type, pattern, initializer, -, hpattern, -, rfl⟩ := liftTarget_annAssign
      (show liftTarget (.annAssign line place hint value bare) index = .ok target from h)
    cases place with
    | name pos id =>
      cases hpattern
      exact hresolves.symm
    | _ =>
      obtain ⟨text, -, rfl⟩ := map_eq_ok_iff.1 hpattern
      rfl
  · rename_i hother
    obtain ⟨declaration, -, hpure⟩ := bind_eq_ok_iff.1 h
    cases hpure
    cases stmt with
    | annAssign line place hint value bare => exact absurd rfl (hother line place hint value bare)
    | _ => rfl

theorem countP_storage_forwarding (property storage member : String) (type : Option Text.LooseText)
    (isSettable : Bool) :
    ((forwarding property storage member type isSettable).map Accessor.role).countP (·.1 = .storage)
      = 0 := by
  cases isSettable <;> rfl

/-- A wrapped property has one storage, and a placeholder has none. -/
theorem countP_storage_synthesize (config : WrapperConfig) (attr : Attribute) (target : Target) :
    (synthesize config attr target).declarations.roles.countP (·.1 = .storage)
      = target.single?.isSome.toNat := by
  unfold synthesize
  split
  · rename_i member identifier hsingle
    have hprojection : ((((projection config identifier).map Peer.property).toList).flatMap
        Peer.roles).countP (·.1 = .storage) = 0 := by
      unfold projection
      cases config.projectedType with
      | none => rfl
      | some type =>
        simp only [Option.map_some, Option.toList_some, List.flatMap_cons, List.flatMap_nil,
          List.append_nil, Peer.roles]
        exact countP_storage_forwarding ..
    rw [hsingle]
    simp only [Declarations.roles, wrappedDeclarations, List.countP_append, List.flatMap_cons,
      countP_storage_forwarding, hprojection]
    rfl
  · rename_i hnone
    rw [hnone]
    rfl

theorem expandedCount_of_warnings {events : List Event}
    (h : ∀ event ∈ events, event.isWarning = true) : expandedCount events = 0 := by
  rw [expandedCount, List.length_eq_zero_iff, List.filterMap_eq_nil_iff]
  intro event hevent
  have hwarning := h event hevent
  cases event with
  | ignored text line => rfl
  | _ => cases hwarning

theorem generatedCount_of_warnings {events : List Event}
    (h : ∀ event ∈ events, event.isWarning = true) : generatedCount events = 0 := by
  rw [generatedCount, List.length_eq_zero_iff, List.filterMap_eq_nil_iff]
  intro event hevent
  have hwarning := h event hevent
  cases event with
  | ignored text line => rfl
  | _ => cases hwarning

theorem expandedCount_synthesisEvent (filename : String) (config : WrapperConfig) (attr : Attribute)
    (target : Target) :
    expandedCount [synthesisEvent filename config attr target] = target.single?.isSome.toNat := by
  unfold synthesisEvent synthesize
  cases target.single? <;> rfl

theorem generatedCount_synthesisEvent (filename : String) (config : WrapperConfig) (attr : Attribute)
    (target : Target) : generatedCount [synthesisEvent filename config attr target] = 0 := by
  unfold synthesisEvent
  split <;> rfl

/-- Among generated statements the storages are the functions with that role. -/
theorem tally_of_presents {astray : Bool} {stmts : List Stmt} {roles : List Role}
    (h : Presents astray roles stmts) :
    bodyTally Stmt.isStorage stmts = roles.countP (·.1 = .storage)
      ∧ bodyTally Stmt.isConfig stmts = 0 := by
  induction h with
  | nil => exact ⟨rfl, rfl⟩
  | stray _ _ ih =>
    simp only [bodyTally, ih]
    exact ⟨Nat.zero_add _, rfl⟩
  | @function role roles stmt stmts hstmt _ ih =>
    obtain ⟨hstorages, hconfigs⟩ := ih
    obtain ⟨line, isAsync, params, body, decorator, returns, rfl, hreference⟩ :=
      exists_function_of_heading hstmt
    refine ⟨?_, ?_⟩
    · have hmark : decide (some (role.1.reference role.2) = some storageDecorator)
          = decide (role.1 = .storage) := by
        obtain ⟨mark, name⟩ := role
        cases mark with
        | property =>
          have hne : "property" ≠ storageDecorator := by decide
          simp [Mark.reference, hne]
        | storage => simp [Mark.reference, storageDecorator]
        | setter =>
          -- The names differ in what stands behind their last dot.
          have hne : name ++ ".setter" ≠ storageDecorator := by
            intro heq
            have hlast := lastComponent_setter name
            rw [heq] at hlast
            exact absurd hlast (by decide)
          simp [Mark.reference, hne]
      simp only [bodyTally, Stmt.tally, Stmt.isStorage, List.any_cons, List.any_nil, Bool.or_false,
        hreference, hmark, hstorages, List.countP_cons]
      cases decide (role.1 = .storage) <;> simp [Nat.add_comm]
    · simp only [bodyTally, hconfigs]
      rfl

theorem isWrapped_of_attachments {registry : Registry} {stmt : Stmt}
    (h : attachments registry stmt = []) : stmt.isWrapped registry = false := by
  have hresolves := attachments_eq_nil_iff.1 h
  unfold Stmt.isWrapped
  split
  · exact hresolves
  · rfl

/-- What is reported about a statement of a class body: an expansion exactly if it is wrapped. -/
theorem counts_of_memberStep {registry : Registry} {filename : String} {stmt : Stmt}
    {stmts : List Stmt} {events : List Event} (h : MemberStep registry filename stmt stmts events) :
    expandedCount events = (stmt.isWrapped registry).toNat ∧ generatedCount events = 0 := by
  cases h with
  | kept hnone =>
    rw [isWrapped_of_attachments hnone]
    exact ⟨rfl, rfl⟩
  | @replaced first extras attr target stmts warnings hsome hwarnings hattr htarget hstmts =>
    have hne : attachments registry stmt ≠ [] := by simp [hsome]
    have hsingle := isSome_single?_liftTarget hne htarget
    rw [expandedCount_append, expandedCount_of_warnings hwarnings, expandedCount_synthesisEvent,
      hsingle, generatedCount_append, generatedCount_of_warnings hwarnings,
      generatedCount_synthesisEvent]
    exact ⟨Nat.zero_add _, rfl⟩

/-- What replaces a statement has a storage exactly if the statement is wrapped, and no
configuration. -/
theorem tally_of_memberStep {registry : Registry} {filename : String} {stmt : Stmt}
    {stmts : List Stmt} {events : List Event} {astray : Bool} (hfits : registry.Fits astray)
    (h : MemberStep registry filename stmt stmts events) (hsound : stmt.isSound = true)
    (hsome : attachments registry stmt ≠ []) :
    bodyTally Stmt.isStorage stmts = (stmt.isWrapped registry).toNat
      ∧ bodyTally Stmt.isConfig stmts = 0 := by
  cases h with
  | kept hnone => exact absurd hnone hsome
  | replaced hcons hwarnings hattr htarget hstmts =>
    have hpresents := presents_of_replaced hfits hsound hcons hattr htarget hstmts
    obtain ⟨hstorages, hconfigs⟩ := tally_of_presents hpresents
    rw [hstorages, countP_storage_synthesize, isSome_single?_liftTarget hsome htarget]
    exact ⟨rfl, hconfigs⟩

theorem eq_of_memberStep_kept {registry : Registry} {filename : String} {stmt : Stmt}
    {stmts : List Stmt} {events : List Event} (h : MemberStep registry filename stmt stmts events)
    (hnone : attachments registry stmt = []) : stmts = [stmt] := by
  cases h with
  | kept => rfl
  | replaced hsome => simp [hnone] at hsome

/-- A statement to which a wrapper can be attached assigns no configuration. -/
theorem isConfig_of_attachments {registry : Registry} {stmt : Stmt}
    (h : attachments registry stmt ≠ []) : stmt.isConfig = false := by
  cases stmt with
  | assign => exact absurd rfl h
  | _ => rfl

/-- The second pass reports as many expansions as there are wrapped statements in a class body and in the
classes in it, also in those that it replaces. -/
theorem expandedCount_of_expands {registry : Registry} {filename : String} {inClass : Bool}
    {body body' : List Stmt} {events : List Event}
    (h : Expands registry filename inClass body body' events) (hclass : inClass = true) :
    expandedCount events = bodyTally (Stmt.isWrapped registry) body := by
  induction h with
  | nil => rfl
  | other => cases hclass
  | classDef => cases hclass
  | member hstmt hstep hrest ih =>
    rw [expandedCount_append, (counts_of_memberStep hstep).1, ih rfl, bodyTally,
      tally_of_not_class hstmt]
  | memberClass hbody hstep hrest ihbody ihrest =>
    rw [expandedCount_append, expandedCount_append, ihbody rfl, (counts_of_memberStep hstep).1,
      ihrest rfl]
    rfl

/-- The second pass generates no configurations. -/
theorem generatedCount_of_expands {registry : Registry} {filename : String} {inClass : Bool}
    {body body' : List Stmt} {events : List Event}
    (h : Expands registry filename inClass body body' events) : generatedCount events = 0 := by
  induction h with
  | nil => rfl
  | other hclass hrest ih => exact ih
  | member hclass hstep hrest ih => rw [generatedCount_append, (counts_of_memberStep hstep).2, ih]
  | classDef hbody hrest ihbody ihrest => rw [generatedCount_append, ihbody, ihrest]
  | memberClass hbody hstep hrest ihbody ihrest =>
    rw [generatedCount_append, generatedCount_append, ihbody, (counts_of_memberStep hstep).2, ihrest]

/-- The storages after the second pass, and the wrapped statements in the classes that it replaces, are
as many as the expansions that it reports. -/
theorem tally_storages_of_expands {registry : Registry} {filename : String} {inClass : Bool}
    {body body' : List Stmt} {events : List Event} {astray : Bool} (hfits : registry.Fits astray)
    (h : Expands registry filename inClass body body' events) (hsound : bodySound body = true)
    (hnone : bodyTally Stmt.isStorage body = 0) :
    bodyTally Stmt.isStorage body' + bodyHidden registry (Stmt.isWrapped registry) inClass body
      = expandedCount events := by
  induction h with
  | nil => rfl
  | other hclass hrest ih =>
    simp only [bodySound, Bool.and_eq_true] at hsound
    simp only [bodyTally, Nat.add_eq_zero_iff] at hnone
    have hothers := ih hsound.2 hnone.2
    rw [bodyTally, bodyHidden, hnone.1, hidden_of_not_class hclass]
    omega
  | @member stmt rest first others events events' hclass hstep hrest ih =>
    simp only [bodySound, Bool.and_eq_true] at hsound
    simp only [bodyTally, Nat.add_eq_zero_iff] at hnone
    have hothers := ih hsound.2 hnone.2
    have hfirst : bodyTally Stmt.isStorage first = (stmt.isWrapped registry).toNat := by
      by_cases hsome : attachments registry stmt = []
      · rw [eq_of_memberStep_kept hstep hsome, bodyTally_singleton, hnone.1,
          isWrapped_of_attachments hsome]
        rfl
      · exact (tally_of_memberStep hfits hstep hsound.1 hsome).1
    rw [bodyTally_append, bodyHidden, hidden_of_not_class hclass, hfirst, expandedCount_append,
      (counts_of_memberStep hstep).1]
    omega
  | classDef hbody hrest ihbody ihrest =>
    simp only [bodySound, Bool.and_eq_true] at hsound
    simp only [bodyTally, Stmt.tally, Nat.add_eq_zero_iff] at hnone
    have hinner := ihbody (bodySound_of_classDef hsound.1) hnone.1
    have hothers := ihrest hsound.2 hnone.2
    simp only [bodyTally, Stmt.tally, bodyHidden, Stmt.hidden, Bool.false_and, Bool.false_eq_true,
      if_false, expandedCount_append]
    omega
  | @memberClass line name bases keywords inner inner' rest first others decorators innerEvents events
      events' hbody hstep hrest ihbody ihrest =>
    simp only [bodySound, Bool.and_eq_true] at hsound
    simp only [bodyTally, Stmt.tally, Nat.add_eq_zero_iff] at hnone
    have hinnerSound := bodySound_of_classDef hsound.1
    have hinner := ihbody hinnerSound hnone.1
    have hothers := ihrest hsound.2 hnone.2
    have hcounts := (counts_of_memberStep hstep).1
    rw [bodyTally_append, bodyHidden, Stmt.hidden, Bool.true_and, expandedCount_append,
      expandedCount_append, hcounts]
    cases hresolves : registry.resolvesAny decorators with
    | false =>
      have hkept := eq_of_memberStep_kept hstep (attachments_eq_nil_iff.2 hresolves)
      rw [hkept, bodyTally_singleton, Stmt.tally, if_neg Bool.false_ne_true]
      change _ = _ + 0 + _
      omega
    | true =>
      -- The class goes with its body, so nothing of what was reported for the body is left.
      have hsound' := isSound_withBody hsound.1 (sound_of_expands hbody hinnerSound)
      have hsome : attachments registry (.classDef line name bases keywords inner' decorators) ≠ [] :=
        attachments_ne_nil hresolves
      rw [(tally_of_memberStep hfits hstep hsound' hsome).1, if_pos rfl,
        expandedCount_of_expands hbody rfl]
      change 0 + _ + _ = _ + 0 + _
      omega

/-- The configurations after the second pass, and those in the classes that it replaces, are as many as
before it. -/
theorem tally_configs_of_expands {registry : Registry} {filename : String} {inClass : Bool}
    {body body' : List Stmt} {events : List Event} {astray : Bool} (hfits : registry.Fits astray)
    (h : Expands registry filename inClass body body' events) (hsound : bodySound body = true) :
    bodyTally Stmt.isConfig body' + bodyHidden registry Stmt.isConfig inClass body
      = bodyTally Stmt.isConfig body := by
  induction h with
  | nil => rfl
  | other hclass hrest ih =>
    simp only [bodySound, Bool.and_eq_true] at hsound
    have hothers := ih hsound.2
    rw [bodyTally, bodyHidden, bodyTally, hidden_of_not_class hclass]
    omega
  | @member stmt rest first others events events' hclass hstep hrest ih =>
    simp only [bodySound, Bool.and_eq_true] at hsound
    have hothers := ih hsound.2
    have hfirst : bodyTally Stmt.isConfig first = stmt.tally Stmt.isConfig := by
      by_cases hsome : attachments registry stmt = []
      · rw [eq_of_memberStep_kept hstep hsome, bodyTally_singleton]
      · rw [(tally_of_memberStep hfits hstep hsound.1 hsome).2, tally_of_not_class hclass,
          isConfig_of_attachments hsome]
        rfl
    rw [bodyTally_append, bodyHidden, bodyTally, hidden_of_not_class hclass, hfirst]
    omega
  | classDef hbody hrest ihbody ihrest =>
    simp only [bodySound, Bool.and_eq_true] at hsound
    have hinner := ihbody (bodySound_of_classDef hsound.1)
    have hothers := ihrest hsound.2
    simp only [bodyTally, Stmt.tally, bodyHidden, Stmt.hidden, Bool.false_and, Bool.false_eq_true,
      if_false]
    omega
  | @memberClass line name bases keywords inner inner' rest first others decorators innerEvents events
      events' hbody hstep hrest ihbody ihrest =>
    simp only [bodySound, Bool.and_eq_true] at hsound
    have hinnerSound := bodySound_of_classDef hsound.1
    have hinner := ihbody hinnerSound
    have hothers := ihrest hsound.2
    rw [bodyTally_append, bodyHidden, bodyTally, Stmt.tally, Stmt.hidden, Bool.true_and]
    cases hresolves : registry.resolvesAny decorators with
    | false =>
      have hkept := eq_of_memberStep_kept hstep (attachments_eq_nil_iff.2 hresolves)
      rw [hkept, bodyTally_singleton, Stmt.tally, if_neg Bool.false_ne_true]
      omega
    | true =>
      -- A replaced class leaves no configuration, so all that stood in it are lost.
      have hsound' := isSound_withBody hsound.1 (sound_of_expands hbody hinnerSound)
      have hsome : attachments registry (.classDef line name bases keywords inner' decorators) ≠ [] :=
        attachments_ne_nil hresolves
      rw [(tally_of_memberStep hfits hstep hsound' hsome).2, if_pos rfl]
      omega

/-! ## Reported numbers -/

/-- Imports of generated code are no storages and no configurations. -/
theorem tally_provide {p : Stmt → Bool} (himport : ∀ provision : Provision, p provision.statement = false)
    (provisions : List Provision) (body : List Stmt) :
    bodyTally p (provide provisions body) = bodyTally p body := by
  have hblock : ∀ missing : List Provision, bodyTally p (missing.map Provision.statement) = 0 := by
    intro missing
    induction missing with
    | nil => rfl
    | cons provision missing ih =>
      rw [List.map_cons, bodyTally, ih, tally_of_not_class rfl, himport provision]
      rfl
  obtain ⟨missing, front, back, rfl, hprovide⟩ := provide_eq provisions body
  rw [hprovide, bodyTally_append, bodyTally_append, bodyTally_append, hblock missing, Nat.add_zero]

/-- The counts of an expansion of a module that has no storages and no configurations before. -/
theorem tally_of_expandModule {registry : Registry} (hfits : registry.Fits true) {filename : String}
    {body body' : List Stmt} (hsound : bodySound body = true)
    (hstorages : bodyTally Stmt.isStorage body = 0) (hconfigs : bodyTally Stmt.isConfig body = 0)
    (h : (expandModule registry filename body).result = .ok body') :
    ∃ marked, (introspectBody filename body).result = .ok marked
      ∧ expandedCount (expandModule registry filename body).events
        = bodyTally Stmt.isStorage body'
          + bodyHidden (registry.overlay (configEntries (introspectBody filename body).events))
            (Stmt.isWrapped (registry.overlay (configEntries (introspectBody filename body).events)))
            false marked
      ∧ generatedCount (expandModule registry filename body).events
        = bodyTally Stmt.isConfig body'
          + bodyHidden (registry.overlay (configEntries (introspectBody filename body).events))
            Stmt.isConfig false marked := by
  obtain ⟨tree, htree, rfl, hevents⟩ := expandModule_result h
  obtain ⟨marked, hmarked, htree', hevents'⟩ := Trace.result_bind htree
  have hfirst := introspects_of_result body hmarked
  have hsecond := expands_of_result marked htree'
  obtain ⟨hsound', hclosed'⟩ := sound_of_introspects hfirst hsound
  have hextended := Registry.forall_overlay hfits (fits_configEntries true hclosed')
  obtain ⟨hkept, hadded, hquiet⟩ := tally_of_introspects hfirst
  -- The first pass adds all configurations; the second one adds all storages and loses what it replaces.
  have hlost := tally_storages_of_expands hextended hsecond hsound' (by rw [hkept, hstorages])
  have hlost' := tally_configs_of_expands hextended hsecond hsound'
  have hquiet' := generatedCount_of_expands hsecond
  change (expandTree registry filename body).events = _ at hevents'
  refine ⟨marked, hmarked, ?_, ?_⟩
  · rw [hevents, hevents', expandedCount_append, tally_provide fun _ => rfl]
    omega
  · rw [hevents, hevents', generatedCount_append, tally_provide fun _ => rfl]
    omega

/-- The reported numbers are those of the storages and the configurations in the expanded module, and of
what stands in classes that were replaced. So they describe the expanded module exactly if no wrapped
property and no configuration stands in such a class. -/
theorem reported_eq_tally_add_hidden (registry : Registry) (hexpressions : registry.HoldsExpressions)
    (filename source : String) (body : List Stmt) (outcome : Outcome)
    (hread : parseModule source = .ok body) (hstorages : bodyTally Stmt.isStorage body = 0)
    (hconfigs : bodyTally Stmt.isConfig body = 0)
    (h : (expandSource registry filename source).result = .ok outcome) :
    ∃ (extended : Registry) (marked body' : List Stmt),
      extended = registry.overlay (configEntries (introspectBody filename body).events)
      ∧ (introspectBody filename body).result = .ok marked
      ∧ (expandModule registry filename body).result = .ok body'
      ∧ outcome.expanded = bodyTally Stmt.isStorage body'
          + bodyHidden extended (Stmt.isWrapped extended) false marked
      ∧ outcome.generated = bodyTally Stmt.isConfig body'
          + bodyHidden extended Stmt.isConfig false marked
      ∧ ((outcome.expanded = bodyTally Stmt.isStorage body'
            ∧ outcome.generated = bodyTally Stmt.isConfig body')
          ↔ bodyHidden extended (Stmt.isWrapped extended) false marked = 0
            ∧ bodyHidden extended Stmt.isConfig false marked = 0) := by
  obtain ⟨body₁, body', hread₁, hexpand, hcases⟩ := expandSource_result h
  obtain rfl : body = body₁ := Except.ok.inj (hread.symm.trans hread₁)
  obtain ⟨marked, hmarked, hexpanded, hgenerated⟩ :=
    tally_of_expandModule hexpressions.fits (bodySound_parseModule hread) hstorages hconfigs hexpand
  have hcounts : outcome.expanded = expandedCount (expandModule registry filename body).events
      ∧ outcome.generated = generatedCount (expandModule registry filename body).events := by
    rcases hcases with ⟨hnil, rfl⟩ | ⟨text, -, rfl⟩
    · rw [hnil]
      exact ⟨rfl, rfl⟩
    · exact ⟨rfl, rfl⟩
  refine ⟨_, marked, body', rfl, hmarked, hexpand, ?_, ?_, ?_⟩
  · rw [hcounts.1, hexpanded]
    exact Int.natCast_add _ _
  · rw [hcounts.2, hgenerated]
  · rw [hcounts.1, hcounts.2, hexpanded, hgenerated]
    omega

/-! ## Instances -/

/-- What an expansion of a source in a file reports, and what its module holds before and behind it: each
time a number of properties or storages, and a number of configurations. -/
structure Numbers where
  reported : Int × Nat
  before : Nat × Nat
  behind : Nat × Nat
deriving DecidableEq

/-- The numbers of the storages and of the configurations in a body. -/
def tallies (body : List Stmt) : Nat × Nat := (bodyTally Stmt.isStorage body, bodyTally Stmt.isConfig body)

/-- The numbers of an expansion, if it gives an outcome. -/
def numbers? (registry : Registry) (filename source : String) : Option Numbers := do
  let body ← (parseModule source).toOption
  let body' ← (expandModule registry filename body).result.toOption
  let outcome ← (expandSource registry filename source).result.toOption
  return ⟨(outcome.expanded, outcome.generated), tallies body, tallies body'⟩

theorem exists_of_numbers? {registry : Registry} {filename source : String} {numbers : Numbers}
    (h : numbers? registry filename source = some numbers) :
    ∃ body body' outcome, parseModule source = .ok body
      ∧ (expandModule registry filename body).result = .ok body'
      ∧ (expandSource registry filename source).result = .ok outcome
      ∧ numbers = ⟨(outcome.expanded, outcome.generated), tallies body, tallies body'⟩ := by
  obtain ⟨body, hbody, h⟩ := Option.bind_eq_some_iff.1 h
  obtain ⟨body', hbody', h⟩ := Option.bind_eq_some_iff.1 h
  obtain ⟨outcome, houtcome, h⟩ := Option.bind_eq_some_iff.1 h
  exact ⟨body, body', outcome, eq_ok_of_toOption hbody, eq_ok_of_toOption hbody',
    eq_ok_of_toOption houtcome, (Option.some.inj h).symm⟩

/-- A class with a wrapper attached to it in the body of another class. It holds a wrapper type and a
wrapped property. -/
def replacedSource : String :=
  "class A:\n    @E\n    class B:\n        @macrofy\n        class W:\n            wrapped_value: int\n" ++
  "        x: Annotated[int, W]\n"

/-- A registry with one wrapper, whose projected type ends its line and starts a further storage. -/
def openWrapper : Registry :=
  ⟨[(.text "E", { projectedType := some "int:\n    pass\n@cached_property\ndef y(self) -> int" })]⟩

theorem numbers?_replacedSource :
    numbers? soleWrapper "m.py" replacedSource = some ⟨(1, 1), (0, 0), (0, 0)⟩ := by
  simp only [numbers?, Direct.parseModule_eq, Direct.expandModule_eq, Direct.expandSource_eq]
  decide +kernel

/-- What is reported is not in the module when its class was replaced, and more is in the module when a
type is no expression. -/
theorem numbers_differ :
    numbers? soleWrapper "m.py" replacedSource = some ⟨(1, 1), (0, 0), (0, 0)⟩
      ∧ numbers? openWrapper "m.py" wrappedSource = some ⟨(1, 0), (0, 0), (2, 0)⟩ := by
  refine ⟨numbers?_replacedSource, ?_⟩
  simp only [numbers?, Direct.parseModule_eq, Direct.expandModule_eq, Direct.expandSource_eq]
  decide +kernel

/-- The property and the configuration that are reported stand in the class that was replaced. -/
theorem reported_replacedSource :
    ∃ (extended : Registry) (outcome : Outcome) (marked body' : List Stmt),
      (expandSource soleWrapper "m.py" replacedSource).result = .ok outcome
      ∧ outcome.expanded = 1 ∧ outcome.generated = 1 ∧ tallies body' = (0, 0)
      ∧ bodyHidden extended (Stmt.isWrapped extended) false marked = 1
      ∧ bodyHidden extended Stmt.isConfig false marked = 1 := by
  obtain ⟨body, body', outcome, hread, hexpand, houtcome, hnumbers⟩ :=
    exists_of_numbers? numbers?_replacedSource
  obtain ⟨hreported, hbefore, hbehind⟩ := Numbers.mk.inj hnumbers
  obtain ⟨hexpanded, hgenerated⟩ := Prod.mk.inj hreported
  obtain ⟨hstorages, hconfigs⟩ := Prod.mk.inj hbefore
  obtain ⟨hstorages', hconfigs'⟩ := Prod.mk.inj hbehind
  obtain ⟨extended, marked, body₁, -, -, hexpand₁, hexpanded', hgenerated', -⟩ :=
    reported_eq_tally_add_hidden soleWrapper holdsExpressions_soleWrapper "m.py" replacedSource body outcome hread
      hstorages.symm hconfigs.symm houtcome
  obtain rfl : body' = body₁ := Except.ok.inj (hexpand.symm.trans hexpand₁)
  rw [← hexpanded, ← hstorages'] at hexpanded'
  rw [← hgenerated, ← hconfigs'] at hgenerated'
  refine ⟨extended, outcome, marked, body', houtcome, hexpanded.symm, hgenerated.symm, hbehind.symm, ?_, ?_⟩
  · omega
  · omega

end PropertyWrapper
