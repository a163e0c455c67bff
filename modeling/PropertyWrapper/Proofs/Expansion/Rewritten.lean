import PropertyWrapper.Proofs.Expansion.Agreement
import PropertyWrapper.Proofs.Expansion.Idempotence
import PropertyWrapper.Proofs.Lifting.Values

/-!
# Values of rewritten classes

The first pass reads the configuration of a wrapper type off its class, the second one may still rewrite
the body of that class. The configuration stays that of the class if the second pass leaves alone what it
is read off: the members for the wrapped and the projected value.

* `LeavesValues` : what the second pass must not touch in a class;
* `idle_of_replaced`, `idle_of_headings` : statements that bear on neither value, and what replaces them;
* `sameValues_of_becomes` : what a statement becomes keeps the slots of its class alike;
* `introspect_of_expanded` : the configuration of a class is that of its expansion.
-/

namespace PropertyWrapper

open Source

/-! ## Generated names -/

/-- The name under which a target is reported. -/
def Source.Expr.shownName : Expr → String
  | .name _ id => id
  | .attribute _ _ attr => attr
  | target => target.levels.flatten.head?.getD "_"

/-- The name under which what a statement declares is reported. -/
def Source.Stmt.shownName : Stmt → String
  | .annAssign _ target .. => target.shownName
  | stmt => stmt.name

/-- The names of the functions that replace a statement of a class body. -/
def Source.Stmt.generatedNames (registry : Registry) (stmt : Stmt) : List String :=
  (attachments registry stmt).head?.toList.flatMap fun first =>
    (stmt.annotatedName?.map fun identifier => (WrappedProperty.mk identifier first.config).names).getD
      [stmt.shownName]

section Names

variable {registry : Registry} {stmt : Stmt} {first : Attachment} {extras : List Attachment}

theorem generatedNames_of_annotated {identifier : String}
    (hsome : attachments registry stmt = first :: extras) (h : stmt.annotatedName? = some identifier) :
    stmt.generatedNames registry = (WrappedProperty.mk identifier first.config).names := by
  rw [Stmt.generatedNames, hsome, h]
  exact List.append_nil _

theorem generatedNames_of_not_annotated (hsome : attachments registry stmt = first :: extras)
    (h : stmt.annotatedName? = none) : stmt.generatedNames registry = [stmt.shownName] := by
  rw [Stmt.generatedNames, hsome, h]
  rfl

/-- What a statement declares is reported under its name among the generated ones. -/
theorem shownName_mem_generatedNames (hsome : attachments registry stmt ≠ []) :
    stmt.shownName ∈ stmt.generatedNames registry := by
  obtain ⟨first, extras, hsome⟩ := List.exists_cons_of_ne_nil hsome
  cases hname : stmt.annotatedName? with
  | none =>
    rw [generatedNames_of_not_annotated hsome hname]
    exact List.mem_singleton_self _
  | some identifier =>
    rw [generatedNames_of_annotated hsome hname]
    unfold Stmt.annotatedName? at hname
    split at hname
    · cases hname
      exact List.mem_cons_self
    · cases hname

theorem displayName_of_liftPattern {target : Expr} {pattern : BindingPattern}
    (h : liftPattern target = .ok pattern) : pattern.firstName?.getD "_" = target.shownName := by
  cases target with
  | name pos id =>
    cases h
    rfl
  | _ =>
    obtain ⟨text, -, rfl⟩ := map_eq_ok_iff.1 h
    rfl

theorem displayName_of_liftTarget {entry : Option Nat} {target : Target}
    (h : liftTarget stmt entry = .ok target) : target.displayName = stmt.shownName := by
  unfold liftTarget at h
  split at h
  · rename_i line place hint value bare
    obtain ⟨type, pattern, initializer, -, hpattern, -, rfl⟩ := liftTarget_annAssign
      (show liftTarget (.annAssign line place hint value bare) entry = .ok target from h)
    rw [Stmt.shownName, ← displayName_of_liftPattern hpattern, Target.displayName, Member.displayName,
      List.findSome?_singleton]
  · rename_i hother
    obtain ⟨declaration, hdeclaration, h⟩ := bind_eq_ok_iff.1 h
    cases h
    obtain ⟨members, -, hdeclaration⟩ := bind_eq_ok_iff.1 hdeclaration
    cases hdeclaration
    cases stmt with
    | annAssign line place hint value bare => exact absurd rfl (hother line place hint value bare)
    | _ => rfl

theorem single?_of_not_annotated {entry : Option Nat} {target : Target}
    (hname : stmt.annotatedName? = none) (h : liftTarget stmt entry = .ok target) :
    target.single? = none := by
  unfold liftTarget at h
  split at h
  · rename_i line place hint value bare
    obtain ⟨type, pattern, initializer, -, hpattern, -, rfl⟩ := liftTarget_annAssign
      (show liftTarget (.annAssign line place hint value bare) entry = .ok target from h)
    cases place with
    | name pos id => cases hname
    | _ =>
      obtain ⟨text, -, rfl⟩ := map_eq_ok_iff.1 hpattern
      rfl
  · obtain ⟨declaration, -, h⟩ := bind_eq_ok_iff.1 h
    cases h
    rfl

/-- The declarations that replace a statement have its generated names. -/
theorem mem_names_iff_generated {declarations : Declarations} (h : Declares registry stmt declarations)
    (name : String) : name ∈ declarations.names ↔ name ∈ stmt.generatedNames registry := by
  have hdeclares := h
  obtain ⟨first, extras, attr, target, hsome, hattr, htarget, hdeclarations⟩ := h
  cases hname : stmt.annotatedName? with
  | none =>
    rw [generatedNames_of_not_annotated hsome hname, hdeclarations, synthesize,
      single?_of_not_annotated hname htarget, ← displayName_of_liftTarget htarget]
    rfl
  | some identifier =>
    rw [generatedNames_of_annotated hsome hname]
    unfold Stmt.annotatedName? at hname
    split at hname
    · cases hname
      obtain ⟨attr', type, initializer, -, rfl⟩ := hdeclares.eq_wrappedDeclarations hsome
      exact mem_names_wrappedDeclarations
    · cases hname

end Names

/-! ## Classes that keep their values -/

/-- Whether a statement annotates the wrapped value with a wrapper that lets it be assigned exactly if the
fields of the class can be. -/
def Source.Stmt.rewritesWrapped (registry : Registry) (frozen : Bool) (stmt : Stmt) : Bool :=
  (stmt.wrappedProperty? registry).any fun property =>
    property.identifier = wrappedValue && property.config.wrappedIsSettable = !frozen

/-- The second pass leaves alone what the configuration of a class with some body is read off. -/
structure LeavesValues (registry : Registry) (frozen : Bool) (body : List Stmt) : Prop where
  /-- No generated name is that of a value or of an initializer, but a wrapped value may be rewritten if
  this does not change whether it can be assigned. -/
  names : ∀ stmt ∈ body, ∀ name ∈ stmt.generatedNames registry, name ∈ "__init__" :: valueNames →
    stmt.rewritesWrapped registry frozen = true
  /-- No function that is replaced extends one of the values. -/
  replaced : ∀ stmt ∈ body, attachments registry stmt ≠ [] → ∀ owner ∈ stmt.extendedNames,
    owner ∉ valueNames
  /-- No function that stays extends a generated property. -/
  kept : ∀ stmt ∈ body, attachments registry stmt = [] → ∀ owner ∈ stmt.extendedNames,
    owner ∉ body.flatMap (Stmt.generatedNames registry)

instance (registry : Registry) (frozen : Bool) (body : List Stmt) :
    Decidable (LeavesValues registry frozen body) :=
  decidable_of_iff
    ((∀ stmt ∈ body, ∀ name ∈ stmt.generatedNames registry, name ∈ "__init__" :: valueNames →
        stmt.rewritesWrapped registry frozen = true)
      ∧ (∀ stmt ∈ body, attachments registry stmt ≠ [] → ∀ owner ∈ stmt.extendedNames, owner ∉ valueNames)
      ∧ ∀ stmt ∈ body, attachments registry stmt = [] → ∀ owner ∈ stmt.extendedNames,
        owner ∉ body.flatMap (Stmt.generatedNames registry))
    ⟨fun h => ⟨h.1, h.2.1, h.2.2⟩, fun h => ⟨h.names, h.replaced, h.kept⟩⟩

/-- Whether the annotated fields of what a statement declares cannot be assigned. -/
def Source.Stmt.isFrozen : Stmt → Bool
  | .classDef _ _ bases _ _ decorators => isFrozenClass bases decorators
  | _ => false

/-- The second pass leaves alone what the configuration of a class is read off. -/
def Source.Stmt.LeavesValues (registry : Registry) (stmt : Stmt) : Prop :=
  PropertyWrapper.LeavesValues registry stmt.isFrozen stmt.classBody

instance (registry : Registry) (stmt : Stmt) : Decidable (stmt.LeavesValues registry) :=
  inferInstanceAs (Decidable (LeavesValues registry stmt.isFrozen stmt.classBody))

/-! ## Statements of an expanded class -/

/-- What can become of a statement of a class body: it stays, up to its own body, or declarations replace
it. -/
inductive Becomes (registry : Registry) (stmt : Stmt) : List Stmt → Prop where
  | kept {treated : Stmt} (hsame : SameHead stmt treated) (hnone : attachments registry stmt = []) :
      Becomes registry stmt [treated]
  | replaced {declarations : Declarations} {treated : Stmt} {group : List Stmt}
      (hsame : SameHead stmt treated) (hsome : attachments registry stmt ≠ [])
      (hdeclares : Declares registry treated declarations)
      (hroles : Presents true declarations.roles group) : Becomes registry stmt group

theorem becomes_of_memberStep {registry : Registry} {filename : String} {stmt treated : Stmt}
    {group : List Stmt} {events : List Event} (hfits : registry.Fits true)
    (hsame : SameHead stmt treated) (hsound : treated.isSound = true)
    (h : MemberStep registry filename treated group events) : Becomes registry stmt group := by
  cases h with
  | kept hnone => exact .kept hsame (by rw [← hsame.attachments_eq registry, hnone])
  | @replaced first extras attr target _ warnings hsome hwarnings hattr htarget hstmts =>
    have hne : attachments registry stmt ≠ [] := by
      rw [← hsame.attachments_eq registry, hsome]
      exact List.cons_ne_nil _ _
    have hdeclares : Declares registry treated (synthesize first.config attr target).declarations :=
      ⟨first, extras, attr, target, hsome, hattr, htarget, rfl⟩
    exact .replaced hsame hne hdeclares (hdeclares.presents hfits hsound hstmts)

/-- The statements of an expanded class body are what its statements become. -/
theorem becomes_of_expands {registry : Registry} {filename : String} {inClass : Bool}
    {body body' : List Stmt} {events : List Event} (hfits : registry.Fits true)
    (h : Expands registry filename inClass body body' events) (hclass : inClass = true)
    (hsound : bodySound body = true) :
    ∃ groups, List.Forall₂ (Becomes registry) body groups ∧ body' = groups.flatten := by
  induction h with
  | nil => exact ⟨[], .nil, rfl⟩
  | other => cases hclass
  | classDef => cases hclass
  | member _ hstep _ ih =>
    simp only [bodySound, Bool.and_eq_true] at hsound
    obtain ⟨groups, hgroups, rfl⟩ := ih rfl hsound.2
    exact ⟨_ :: groups, .cons (becomes_of_memberStep hfits (.refl _) hsound.1 hstep) hgroups, rfl⟩
  | memberClass hbody hstep _ _ ih =>
    simp only [bodySound, Bool.and_eq_true] at hsound
    obtain ⟨groups, hgroups, rfl⟩ := ih rfl hsound.2
    have hinner := sound_of_expands hbody (bodySound_of_classDef hsound.1)
    have hclass := isSound_withBody hsound.1 hinner
    exact ⟨_ :: groups, .cons (becomes_of_memberStep hfits .classDef hclass hstep) hgroups, rfl⟩

/-! ## Generated functions -/

/-- The return type of a function can be printed. -/
def Source.Stmt.HasReturnText : Stmt → Prop
  | .function _ _ _ _ _ _ returns => ∃ type, returns.mapM Expr.text = .ok type
  | _ => True

/-- A generated function extends no property but its own. -/
theorem extendedName?_of_reference {decorator : Expr} {mark : Mark} {name owner : String}
    (h : referenceName decorator = some (mark.reference name))
    (howner : extendedName? decorator = some owner) : owner = name := by
  rw [extendedName?, h, Option.bind_some] at howner
  cases mark with
  | property =>
    have hnone : companionKind? (lastComponent "property") = none := by decide
    rw [Mark.reference, hnone] at howner
    cases howner
  | storage =>
    have hnone : companionKind? (lastComponent "cached_property") = none := by decide
    rw [Mark.reference, hnone] at howner
    cases howner
  | setter =>
    obtain ⟨_, -, rfl⟩ := Option.map_eq_some_iff.1 howner
    exact qualifier_setter name

/-- The functions among some statements. -/
def functions (stmts : List Stmt) : List Stmt := stmts.filter fun stmt => (heading stmt).isSome

namespace Source.Presents

variable {astray : Bool} {roles : List Role} {stmts : List Stmt}

theorem heading_functions (h : Presents astray roles stmts) :
    (functions stmts).map heading = roles.map Role.heading := by
  induction h with
  | nil => rfl
  | function hheading _ ih =>
    rw [functions, List.filter_cons_of_pos (by rw [hheading]; rfl), List.map_cons, List.map_cons, hheading, ← ih]
    rfl
  | stray _ _ ih => exact ih

/-- Expressions between generated functions declare nothing. -/
theorem lift_functions (h : Presents astray roles stmts) (frozen : Bool) (slots : List Slot) :
    (functions stmts).foldlM (liftStatement frozen) slots = stmts.foldlM (liftStatement frozen) slots := by
  induction h generalizing slots with
  | nil => rfl
  | function hheading _ ih =>
    rw [functions, List.filter_cons_of_pos (by rw [hheading]; rfl), List.foldlM_cons, List.foldlM_cons]
    exact congrArg _ (funext ih)
  | stray _ _ ih => exact ih slots

end Source.Presents

/-- Generated functions that are for neither value are idle. -/
theorem idle_of_headings {generated : List String} (frozen : Bool) {stmts : List Stmt}
    {roles : List Role} {slots : List Slot} (hnamed : SlotsNamed slots)
    (hroles : stmts.map heading = roles.map Role.heading)
    (hnames : ∀ role ∈ roles, role.2 ∈ generated ∧ role.2 ∉ valueNames)
    (htexts : ∀ stmt ∈ stmts, stmt.HasReturnText) :
    ∃ next, stmts.foldlM (liftStatement frozen) slots = .ok next ∧ Idle generated slots next := by
  induction stmts generalizing roles slots with
  | nil => exact ⟨slots, rfl, .refl slots⟩
  | cons stmt stmts ih =>
    cases roles with
    | nil => cases hroles
    | cons role roles =>
      obtain ⟨hstmt, hstmts⟩ := List.cons.inj hroles
      obtain ⟨hrole, hothers⟩ := List.forall_mem_cons.1 hnames
      obtain ⟨htext, hrest⟩ := List.forall_mem_cons.1 htexts
      obtain ⟨line, isAsync, params, body, decorator, returns, rfl, hreference⟩ :=
        exists_function_of_heading hstmt
      obtain ⟨type, htype⟩ := htext
      obtain ⟨next, hnext⟩ := exists_liftFunction slots line role.2 [decorator] htype
      have hidle : Idle generated slots next := by
        refine idle_liftFunction hnamed hrole.1 hrole.2 (fun owner howner => ?_) hnext
        obtain ⟨decorator', hdecorator, hextended⟩ := List.mem_filterMap.1 howner
        rw [List.mem_singleton.1 hdecorator] at hextended
        rw [extendedName?_of_reference hreference hextended]
        exact hrole.2
      obtain ⟨last, hlast, hidle'⟩ := ih (hidle.named hnamed) hstmts hothers hrest
      exact ⟨last, by rw [List.foldlM_cons]; exact bind_eq_ok_iff.2 ⟨next, hnext, hlast⟩,
        hidle.trans hidle'⟩

/-- A replaced statement that bears on neither value is idle. -/
theorem idle_of_replaced {generated : List String} {registry : Registry} {frozen : Bool} {stmt : Stmt}
    {slots next : List Slot} (hnamed : SlotsNamed slots) (hsome : attachments registry stmt ≠ [])
    (hgenerated : ∀ name ∈ stmt.generatedNames registry, name ∈ generated ∧ name ∉ valueNames)
    (howners : ∀ owner ∈ stmt.extendedNames, owner ∉ valueNames)
    (h : liftStatement frozen slots stmt = .ok next) : Idle generated slots next := by
  -- Only annotations and functions give slots here; both are reported under a generated name.
  obtain ⟨hname, hvalue⟩ := hgenerated _ (shownName_mem_generatedNames hsome)
  cases stmt with
  | annAssign line target hint value bare =>
    obtain ⟨member, hmember, h⟩ := bind_eq_ok_iff.1 h
    cases h
    obtain ⟨⟨isFinal, type⟩, -, hmember⟩ := bind_eq_ok_iff.1 hmember
    obtain ⟨pattern, hpattern, hmember⟩ := bind_eq_ok_iff.1 hmember
    obtain ⟨initializer, -, hmember⟩ := bind_eq_ok_iff.1 hmember
    cases hmember
    refine .cons ?_ (by rintro _ ⟨⟩)
    cases target with
    | name pos id =>
      cases hpattern
      rwa [← Bool.not_eq_true, isValue_of_identifiers rfl]
    | _ =>
      obtain ⟨text, -, rfl⟩ := map_eq_ok_iff.1 hpattern
      rfl
  | function line isAsync name params body decorators returns =>
    exact idle_liftFunction hnamed hname hvalue howners h
  | assign line targets value => exact absurd rfl hsome
  | _ =>
    cases h
    exact .refl slots

/-! ## A rewritten wrapped value -/

/-- The slot of a getter. -/
def getterSlot (name : String) (type : Option String) (line : Nat) : Slot where
  member := { patterns := [.identifier name], accessors := some [.get], type, line }
  isProperty := true

/-- A generated getter is a computed property of its name. -/
theorem liftFunction_getter (slots : List Slot) (line : Nat) {name : String} {decorator : Expr}
    {returns : Option Expr} {type : Option String}
    (h : referenceName decorator = some (Mark.property.reference name))
    (htype : returns.mapM Expr.text = .ok type) :
    liftFunction slots line name [decorator] returns = .ok (getterSlot name type line :: slots) := by
  have hrole : [decorator].findSome? (decoratorRole? (slots.filterMap (·.property?))) = some .getter := by
    rw [List.findSome?_singleton, decoratorRole?, h]
    rfl
  rw [liftFunction, hrole]
  exact bind_eq_ok_iff.2 ⟨type, htype, rfl⟩

/-- A generated setter extends the computed property of its name. -/
theorem liftFunction_setter {slots : List Slot} (line : Nat) {name : String} {decorator : Expr}
    (returns : Option Expr) (h : referenceName decorator = some (Mark.setter.reference name))
    (hname : name ∈ propertyNames slots) :
    liftFunction slots line name [decorator] returns = .ok (extendProperty name .set none slots) := by
  have hrole : [decorator].findSome? (decoratorRole? (slots.filterMap (·.property?)))
      = some (.companion name .set) := by
    have hlast := lastComponent_setter name
    have hproperty : name ++ ".setter" ≠ "property" := by
      intro heq
      rw [heq] at hlast
      exact absurd hlast (by decide)
    have hbuiltin : name ++ ".setter" ≠ "builtins.property" := by
      intro heq
      rw [heq] at hlast
      exact absurd hlast (by decide)
    have hcontains : (slots.filterMap (·.property?)).contains name = true := List.contains_iff_mem.2 hname
    rw [List.findSome?_singleton, decoratorRole?, h, Option.bind_some, Mark.reference, qualifier_setter,
      hlast, if_neg (by simp [hproperty, hbuiltin]), if_neg (by decide), if_pos hcontains]
    rfl
  rw [liftFunction, hrole]
  rfl

/-- The generated accessors of a property are one computed property of its name. -/
theorem lift_accessors (frozen : Bool) {isSettable : Bool} {name : String} {stmts : List Stmt}
    (slots : List Slot) (hroles : stmts.map heading
      = ((Mark.property, name) :: if isSettable then [(Mark.setter, name)] else []).map Role.heading)
    (htexts : ∀ stmt ∈ stmts, stmt.HasReturnText) :
    ∃ slot : Slot, stmts.foldlM (liftStatement frozen) slots = .ok (slot :: slots)
      ∧ slot.member.patterns = [.identifier name] ∧ slot.isProperty = true
      ∧ slot.member.isSettable = isSettable := by
  obtain ⟨getter, stmts, rfl⟩ : ∃ getter others, stmts = getter :: others := by
    cases stmts with
    | nil => cases hroles
    | cons getter others => exact ⟨getter, others, rfl⟩
  obtain ⟨hgetter, hothers⟩ := List.cons.inj hroles
  obtain ⟨line, _, _, _, decorator, returns, rfl, hreference⟩ := exists_function_of_heading hgetter
  obtain ⟨type, htype⟩ := (List.forall_mem_cons.1 htexts).1
  have hfirst := liftFunction_getter slots line hreference htype
  cases isSettable with
  | false =>
    obtain rfl : stmts = [] := by simpa using hothers
    refine ⟨getterSlot name type line, ?_, rfl, rfl, rfl⟩
    rw [List.foldlM_cons]
    exact bind_eq_ok_iff.2 ⟨_, hfirst, rfl⟩
  | true =>
    obtain ⟨setter, rfl, hsetter⟩ := List.map_eq_singleton_iff.1 hothers
    obtain ⟨line', _, _, _, decorator', returns', rfl, hreference'⟩ := exists_function_of_heading hsetter
    have hmem : name ∈ propertyNames (getterSlot name type line :: slots) := List.mem_cons_self
    have hsecond := liftFunction_setter line' returns' hreference' hmem
    -- The getter is the newest slot, so the setter extends it at once.
    have hextend : extendProperty name .set none (getterSlot name type line :: slots)
        = (getterSlot name type line).extended .set none :: slots := by
      rw [extendProperty]
      exact if_pos rfl
    refine ⟨(getterSlot name type line).extended .set none, ?_, rfl, rfl, rfl⟩
    rw [List.foldlM_cons]
    refine bind_eq_ok_iff.2 ⟨_, hfirst, ?_⟩
    rw [List.foldlM_cons]
    exact bind_eq_ok_iff.2 ⟨_, hsecond, by rw [← hextend]; rfl⟩

/-- An annotation with metadata is neither final nor one of a class variable. -/
theorem unmarked_of_annotated? {hint : Expr} {parts : Annotated} (h : annotated? hint = some parts) :
    finalType? hint = none ∧ refersTo (headName hint) ["ClassVar"] = false := by
  unfold annotated? at h
  split at h
  · rename_i pos head pos' base entry entries
    split at h
    · rename_i hannotated
      obtain ⟨name, hname, hlast⟩ := (Option.any_eq_true _ _).1 hannotated
      have hlast' : lastComponent name = "Annotated" := by simpa using hlast
      simp [finalType?, headName, hname, refersTo, hlast']
    · cases h
  · cases h

/-- The member of an annotation with metadata can be assigned exactly if the fields of its class can. -/
theorem isSettable_liftAnnotated {frozen : Bool} {line : Nat} {target hint : Expr} {value : Option Expr}
    {parts : Annotated} {member : Member} (hparts : annotated? hint = some parts)
    (h : liftAnnotated frozen line target hint value = .ok member) : member.isSettable = !frozen := by
  obtain ⟨hfinal, hvariable⟩ := unmarked_of_annotated? hparts
  obtain ⟨⟨isFinal, type⟩, hunwrap, h⟩ := bind_eq_ok_iff.1 h
  obtain ⟨pattern, -, h⟩ := bind_eq_ok_iff.1 h
  obtain ⟨initializer, -, h⟩ := bind_eq_ok_iff.1 h
  cases h
  rw [unwrapFinal, hfinal] at hunwrap
  obtain ⟨text, -, heq⟩ := map_eq_ok_iff.1 hunwrap
  obtain ⟨rfl, -⟩ := Prod.mk.inj heq
  rw [Member.isSettable, hvariable]
  cases frozen <;> rfl

theorem patterns_liftAnnotated {frozen : Bool} {line : Nat} {pos : Position} {identifier : String}
    {hint : Expr} {value : Option Expr} {member : Member}
    (h : liftAnnotated frozen line (.name pos identifier) hint value = .ok member) :
    member.patterns = [.identifier identifier] := by
  obtain ⟨⟨isFinal, type⟩, -, h⟩ := bind_eq_ok_iff.1 h
  obtain ⟨pattern, hpattern, h⟩ := bind_eq_ok_iff.1 h
  obtain ⟨initializer, -, h⟩ := bind_eq_ok_iff.1 h
  cases h
  cases hpattern
  rfl

theorem exists_annotated?_of_attachments {registry : Registry} {line : Nat} {target hint : Expr}
    {value : Option Expr} {bare : Bool}
    (h : attachments registry (.annAssign line target hint value bare) ≠ []) :
    ∃ parts, annotated? hint = some parts := by
  cases hparts : annotated? hint with
  | some parts => exact ⟨parts, rfl⟩
  | none =>
    refine absurd ?_ h
    rw [attachments, attributeExprs, hparts]
    rfl

/-- The roles of a wrapped property start with those of its accessors. The other names are generated too,
and are for neither value if the property is the wrapped value. -/
theorem roles_wrappedDeclarations (config : WrapperConfig) (attr : Attribute) (member : Member)
    (identifier : String) :
    ∃ others, (wrappedDeclarations config attr member identifier).roles
        = ((Mark.property, identifier)
            :: if config.wrappedIsSettable then [(Mark.setter, identifier)] else []) ++ others
      ∧ ∀ role ∈ others, role.2 = storageName identifier ∨ role.2 = projectedName identifier := by
  refine ⟨(wrappedDeclarations config attr member identifier).peers.flatMap Peer.roles, ?_, ?_⟩
  · rw [Declarations.roles, wrappedDeclarations]
    cases config.wrappedIsSettable <;> rfl
  · intro role hrole
    obtain ⟨peer, hpeer, hrole⟩ := List.mem_flatMap.1 hrole
    rw [wrappedDeclarations, List.mem_cons, Option.mem_toList] at hpeer
    rcases hpeer with rfl | hpeer
    · obtain rfl := List.mem_singleton.1 hrole
      exact .inl rfl
    · obtain ⟨computed, hcomputed, rfl⟩ := Option.map_eq_some_iff.1 hpeer
      obtain ⟨type, -, rfl⟩ := Option.map_eq_some_iff.1 hcomputed
      exact .inr (mem_roles_forwarding.1 (List.mem_map.2 ⟨role, hrole, rfl⟩))

/-- A stored wrapped value and the computed property in its place, which can be assigned exactly if the
stored value can. -/
theorem SameValues.cons_rewritten {generated : List String} {slots slots' : List Slot} {member : Member}
    {slot : Slot} (h : SameValues generated slots slots') (hgenerated : wrappedValue ∈ generated)
    (hmember : member.patterns = [.identifier wrappedValue])
    (hpatterns : slot.member.patterns = [.identifier wrappedValue]) (hcomputed : slot.isProperty = true)
    (hsettable : slot.member.isSettable = member.isSettable) :
    SameValues generated ({ member, isProperty := false } :: slots) (slot :: slots') := by
  have hproperty : slot.property? = some wrappedValue := by
    rw [Slot.property?, if_pos hcomputed, Member.displayName, hpatterns]
    rfl
  have hname := identifiers_of_patterns hmember
  have hname' := identifiers_of_patterns hpatterns
  refine h.cons ?_ (.rewritten hgenerated rfl hname hproperty hname' hsettable) ?_ (by rintro _ ⟨⟩) ?_
  · rw [Slot.isValue, Slot.isValue, hname, hname']
  · intro name hother
    rw [hproperty]
    constructor
    · rintro ⟨⟩
    · rintro ⟨⟩
      exact absurd hgenerated hother
  · intro name hother
    rw [hproperty] at hother
    cases hother
    exact hname'

/-- A wrapped value that is rewritten stays alike. -/
theorem sameValues_of_rewritten {generated : List String} {registry : Registry} {frozen : Bool}
    {stmt : Stmt} {declarations : Declarations} {group : List Stmt} {slots slots' next : List Slot}
    (hslots : SameValues generated slots slots')
    (hrewrites : stmt.rewritesWrapped registry frozen = true)
    (hgenerated : ∀ name ∈ stmt.generatedNames registry, name ∈ generated)
    (hdeclares : Declares registry stmt declarations)
    (hroles : group.map heading = declarations.roles.map Role.heading)
    (htexts : ∀ stmt ∈ group, stmt.HasReturnText)
    (h : liftStatement frozen slots stmt = .ok next) :
    ∃ next', group.foldlM (liftStatement frozen) slots' = .ok next' ∧ SameValues generated next next' := by
  obtain ⟨property, hproperty, hrewrites⟩ := (Option.any_eq_true _ _).1 hrewrites
  rw [Bool.and_eq_true, decide_eq_true_iff, decide_eq_true_iff] at hrewrites
  have hnames := fun role hrole => hgenerated _ ((mem_names_iff_generated hdeclares _).1
    (List.mem_map.2 ⟨role, hrole, rfl⟩))
  unfold Stmt.wrappedProperty? at hproperty
  split at hproperty
  · rename_i line pos identifier hint value bare
    obtain ⟨first, hfirst, rfl⟩ := Option.map_eq_some_iff.1 hproperty
    obtain ⟨extras, hsome⟩ := List.head?_eq_some_iff.1 hfirst
    obtain ⟨rfl, hsettable⟩ := hrewrites
    obtain ⟨attr, type, initializer, -, rfl⟩ := hdeclares.eq_wrappedDeclarations hsome
    obtain ⟨parts, hparts⟩ := exists_annotated?_of_attachments (by rw [hsome]; simp)
    obtain ⟨member, hmember, h⟩ := bind_eq_ok_iff.1 h
    cases h
    have hmembers := isSettable_liftAnnotated hparts hmember
    obtain ⟨others, hothers, hvalues⟩ := roles_wrappedDeclarations first.config attr
      { patterns := [.identifier wrappedValue], type := some type, initializer, line } wrappedValue
    rw [hothers] at hroles hnames
    rw [List.map_append] at hroles
    obtain ⟨accessors, peers, rfl, haccessors, hpeers⟩ := List.map_eq_append_iff.1 hroles
    obtain ⟨htexts, htexts'⟩ := List.forall_mem_append.1 htexts
    obtain ⟨slot, hslot, hpatterns, hcomputed, hslotSettable⟩ :=
      lift_accessors frozen slots' haccessors htexts
    -- The stored value and the accessors in its place are alike; what follows them is idle.
    have hwrapped : SameValues generated ({ member, isProperty := false } :: slots) (slot :: slots') :=
      hslots.cons_rewritten (hnames (.property, wrappedValue) List.mem_cons_self)
        (patterns_liftAnnotated hmember) hpatterns hcomputed
        (by rw [hslotSettable, hmembers, hsettable])
    have hpeerNames : ∀ role ∈ others, role.2 ∈ generated ∧ role.2 ∉ valueNames := by
      intro role hrole
      refine ⟨hnames role (List.mem_append_right _ hrole), ?_⟩
      rcases hvalues role hrole with heq | heq
      · rw [heq]
        decide
      · rw [heq]
        decide
    obtain ⟨next', hnext', hidle⟩ :=
      idle_of_headings frozen hwrapped.named' hpeers hpeerNames htexts'
    refine ⟨next', ?_, hwrapped.of_idle (.refl _) hidle⟩
    rw [List.foldlM_append]
    exact bind_eq_ok_iff.2 ⟨_, hslot, hnext'⟩
  · cases hproperty

/-! ## Expanded classes -/

theorem SameHead.liftStatement_eq {stmt stmt' : Stmt} (h : SameHead stmt stmt') (frozen : Bool)
    (slots : List Slot) : liftStatement frozen slots stmt' = liftStatement frozen slots stmt := by
  cases h <;> rfl

theorem SameHead.generatedNames_eq {stmt stmt' : Stmt} (h : SameHead stmt stmt') (registry : Registry) :
    stmt'.generatedNames registry = stmt.generatedNames registry := by
  cases h <;> rfl

theorem SameHead.initializerMembers_eq {stmt stmt' : Stmt} (h : SameHead stmt stmt') :
    initializerMembers stmt' = initializerMembers stmt := by
  cases h <;> rfl

theorem exists_wrappedProperty?_of_rewrites {registry : Registry} {frozen : Bool} {stmt : Stmt}
    (h : stmt.rewritesWrapped registry frozen = true) :
    ∃ config, stmt.wrappedProperty? registry = some ⟨wrappedValue, config⟩ := by
  obtain ⟨⟨identifier, config⟩, hproperty, h⟩ := (Option.any_eq_true _ _).1 h
  rw [Bool.and_eq_true, decide_eq_true_iff] at h
  obtain ⟨rfl, -⟩ := h
  exact ⟨config, hproperty⟩

section Leaves

variable {registry : Registry} {frozen : Bool} {body : List Stmt} {stmt : Stmt}

/-- A replaced statement and the functions in its place keep slots alike. -/
theorem sameValues_of_replaced {generated : List String} {declarations : Declarations}
    {group : List Stmt} {slots slots' next : List Slot} (hleaves : LeavesValues registry frozen body)
    (hstmt : stmt ∈ body) (hgenerated : generated = body.flatMap (Stmt.generatedNames registry))
    (hsome : attachments registry stmt ≠ [])
    (hnames : ∀ name, name ∈ declarations.names ↔ name ∈ stmt.generatedNames registry)
    (hdeclares : stmt.isClass = false → Declares registry stmt declarations)
    (hroles : group.map heading = declarations.roles.map Role.heading)
    (htexts : ∀ stmt ∈ group, stmt.HasReturnText) (hslots : SameValues generated slots slots')
    (h : liftStatement frozen slots stmt = .ok next) :
    ∃ next', group.foldlM (liftStatement frozen) slots' = .ok next' ∧ SameValues generated next next' := by
  have hmem : ∀ name ∈ stmt.generatedNames registry, name ∈ generated := by
    intro name hname
    rw [hgenerated]
    exact List.mem_flatMap.2 ⟨stmt, hstmt, hname⟩
  -- A statement that rewrites the wrapped value is followed step by step, any other one is idle.
  cases hrewrites : stmt.rewritesWrapped registry frozen with
  | true =>
    obtain ⟨config, hproperty⟩ := exists_wrappedProperty?_of_rewrites hrewrites
    have hclass := (attachments_of_wrappedProperty? hproperty).1
    exact sameValues_of_rewritten hslots hrewrites hmem (hdeclares hclass) hroles htexts h
  | false =>
    have hidleNames : ∀ name ∈ stmt.generatedNames registry, name ∈ generated ∧ name ∉ valueNames := by
      intro name hname
      refine ⟨hmem name hname, fun hvalue => ?_⟩
      have htrue := hleaves.names stmt hstmt name hname (List.mem_cons_of_mem _ hvalue)
      rw [hrewrites] at htrue
      cases htrue
    have hidle := idle_of_replaced hslots.named hsome hidleNames (hleaves.replaced stmt hstmt hsome) h
    obtain ⟨next', hnext', hidle'⟩ := idle_of_headings frozen hslots.named' hroles
      (fun role hrole => hidleNames _ ((hnames _).1 (List.mem_map.2 ⟨role, hrole, rfl⟩))) htexts
    exact ⟨next', hnext', hslots.of_idle hidle hidle'⟩

/-- What a statement becomes keeps slots alike. -/
theorem sameValues_of_becomes {generated : List String} {group : List Stmt}
    {slots slots' next : List Slot} (hleaves : LeavesValues registry frozen body) (hstmt : stmt ∈ body)
    (hgenerated : generated = body.flatMap (Stmt.generatedNames registry))
    (hbecomes : Becomes registry stmt group) (htexts : ∀ stmt ∈ group, stmt.HasReturnText)
    (hslots : SameValues generated slots slots') (h : liftStatement frozen slots stmt = .ok next) :
    ∃ next', group.foldlM (liftStatement frozen) slots' = .ok next' ∧ SameValues generated next next' := by
  cases hbecomes with
  | kept hsame hnone =>
    have howners := hleaves.kept stmt hstmt hnone
    rw [← hgenerated] at howners
    obtain ⟨next', hnext', hslots'⟩ := hslots.liftStatement howners h
    refine ⟨next', ?_, hslots'⟩
    rw [List.foldlM_cons, hsame.liftStatement_eq, hnext']
    rfl
  | @replaced declarations treated _ hsame hsome hdeclares hroles =>
    rw [← hroles.lift_functions]
    refine sameValues_of_replaced hleaves hstmt hgenerated hsome (fun name => ?_) (fun hclass => ?_)
      hroles.heading_functions (fun stmt hstmt => htexts stmt (List.mem_filter.1 hstmt).1) hslots h
    · rw [← hsame.generatedNames_eq]
      exact mem_names_iff_generated hdeclares name
    · rwa [← hsame.eq_of_not_class hclass]

/-- The second pass keeps the slots of a class alike if it leaves its values alone. -/
theorem sameValues_of_forall₂_becomes {generated : List String} {stmts : List Stmt}
    {groups : List (List Stmt)} {slots slots' last : List Slot}
    (hleaves : LeavesValues registry frozen body) (hsubset : stmts ⊆ body)
    (hgenerated : generated = body.flatMap (Stmt.generatedNames registry))
    (hbecomes : List.Forall₂ (Becomes registry) stmts groups)
    (htexts : ∀ stmt ∈ groups.flatten, stmt.HasReturnText) (hslots : SameValues generated slots slots')
    (h : stmts.foldlM (liftStatement frozen) slots = .ok last) :
    ∃ last', groups.flatten.foldlM (liftStatement frozen) slots' = .ok last'
      ∧ SameValues generated last last' := by
  induction hbecomes generalizing slots slots' with
  | nil =>
    cases h
    exact ⟨slots', rfl, hslots⟩
  | cons hfirst hrest ih =>
    rw [List.foldlM_cons] at h
    obtain ⟨next, hnext, h⟩ := bind_eq_ok_iff.1 h
    obtain ⟨hstmt, hstmts⟩ := List.cons_subset.1 hsubset
    rw [List.flatten_cons] at htexts
    obtain ⟨htexts, htexts'⟩ := List.forall_mem_append.1 htexts
    obtain ⟨next', hnext', hslots'⟩ :=
      sameValues_of_becomes hleaves hstmt hgenerated hfirst htexts hslots hnext
    obtain ⟨last', hlast', hlasts⟩ := ih hstmts htexts' hslots' h
    refine ⟨last', ?_, hlasts⟩
    rw [List.flatten_cons, List.foldlM_append]
    exact bind_eq_ok_iff.2 ⟨next', hnext', hlast'⟩

/-- No generated function is an initializer. -/
theorem ne_init_of_mem_generatedNames {name : String} (hleaves : LeavesValues registry frozen body)
    (hstmt : stmt ∈ body) (hname : name ∈ stmt.generatedNames registry) : name ≠ "__init__" := by
  rintro rfl
  have hrewrites := hleaves.names stmt hstmt "__init__" hname List.mem_cons_self
  obtain ⟨config, hproperty⟩ := exists_wrappedProperty?_of_rewrites hrewrites
  unfold Stmt.wrappedProperty? at hproperty
  split at hproperty
  · obtain ⟨first, hfirst, heq⟩ := Option.map_eq_some_iff.1 hproperty
    obtain ⟨extras, hsome⟩ := List.head?_eq_some_iff.1 hfirst
    obtain ⟨rfl, -⟩ := WrappedProperty.mk.inj heq
    have hnames : "__init__" ∉ [wrappedValue, storageName wrappedValue, projectedName wrappedValue] := by
      decide
    rw [generatedNames_of_annotated hsome rfl, WrappedProperty.mem_names] at hname
    simp only [List.mem_cons, List.not_mem_nil, or_false, not_or] at hnames
    rcases hname with h | h | ⟨-, h⟩
    · exact hnames.1 h
    · exact hnames.2.1 h
    · exact hnames.2.2 h
  · cases hproperty

theorem initializerMembers_function {line : Nat} {isAsync : Bool} {name : String} {params : Parameters}
    {inner : List Stmt} {decorators : List Expr} {returns : Option Expr} (h : name ≠ "__init__") :
    initializerMembers (.function line isAsync name params inner decorators returns) = .ok [] := by
  rw [initializerMembers, if_neg h]

/-- Generated statements other than initializers create no members. -/
theorem initializerMembers_of_presents {stmts : List Stmt} {roles : List Role}
    (hroles : Presents true roles stmts) (hnames : ∀ role ∈ roles, role.2 ≠ "__init__") :
    ∃ created, stmts.mapM initializerMembers = .ok created ∧ created.flatten = [] := by
  induction hroles with
  | nil => exact ⟨[], rfl, rfl⟩
  | function hheading _ ih =>
    obtain ⟨hrole, hothers⟩ := List.forall_mem_cons.1 hnames
    obtain ⟨_, _, _, _, _, _, rfl, -⟩ := exists_function_of_heading hheading
    obtain ⟨created, hcreated, hempty⟩ := ih hothers
    refine ⟨[] :: created, ?_, hempty⟩
    rw [List.mapM_cons, initializerMembers_function hrole, hcreated]
    rfl
  | stray _ _ ih =>
    obtain ⟨created, hcreated, hempty⟩ := ih hnames
    refine ⟨[] :: created, ?_, hempty⟩
    rw [List.mapM_cons, hcreated]
    rfl

/-- What a statement becomes creates the same members on instances. -/
theorem initializerMembers_of_becomes {group : List Stmt} {created : List Member}
    (hleaves : LeavesValues registry frozen body) (hstmt : stmt ∈ body)
    (hbecomes : Becomes registry stmt group) (h : initializerMembers stmt = .ok created) :
    ∃ created', group.mapM initializerMembers = .ok created' ∧ created'.flatten = created := by
  cases hbecomes with
  | kept hsame hnone =>
    refine ⟨[created], ?_, List.append_nil _⟩
    rw [List.mapM_cons, hsame.initializerMembers_eq, h]
    rfl
  | replaced hsame hsome hdeclares hroles =>
    have hcreated : initializerMembers stmt = .ok [] := by
      have hname := ne_init_of_mem_generatedNames hleaves hstmt (shownName_mem_generatedNames hsome)
      cases stmt with
      | function => exact initializerMembers_function hname
      | _ => rfl
    obtain rfl : [] = created := Except.ok.inj (hcreated.symm.trans h)
    refine initializerMembers_of_presents hroles fun role hrole => ?_
    refine ne_init_of_mem_generatedNames hleaves hstmt ?_
    rw [← hsame.generatedNames_eq, ← mem_names_iff_generated hdeclares]
    exact List.mem_map.2 ⟨role, hrole, rfl⟩

theorem initializerMembers_of_forall₂_becomes {stmts : List Stmt} {groups : List (List Stmt)}
    {created : List (List Member)} (hleaves : LeavesValues registry frozen body) (hsubset : stmts ⊆ body)
    (hbecomes : List.Forall₂ (Becomes registry) stmts groups)
    (h : stmts.mapM initializerMembers = .ok created) :
    ∃ created', groups.flatten.mapM initializerMembers = .ok created'
      ∧ created'.flatten = created.flatten := by
  induction hbecomes generalizing created with
  | nil =>
    cases h
    exact ⟨[], rfl, rfl⟩
  | cons hfirst hrest ih =>
    rw [List.mapM_cons] at h
    obtain ⟨own, hown, h⟩ := bind_eq_ok_iff.1 h
    obtain ⟨others, hothers, h⟩ := bind_eq_ok_iff.1 h
    cases h
    obtain ⟨hstmt, hstmts⟩ := List.cons_subset.1 hsubset
    obtain ⟨own', hown', hflat⟩ := initializerMembers_of_becomes hleaves hstmt hfirst hown
    obtain ⟨others', hothers', hflats⟩ := ih hstmts hothers
    refine ⟨own' ++ others', ?_, ?_⟩
    · rw [List.flatten_cons, List.mapM_append, hown', hothers']
      rfl
    · rw [List.flatten_append, hflat, hflats, List.flatten_cons]

end Leaves

/-- The configuration of a class is that of its expansion if the second pass leaves its values alone. -/
theorem introspect_of_expanded {registry : Registry} {filename : String} {line : Nat} {name : String}
    {bases : List Expr} {keywords : List Keyword} {body body' : List Stmt} {decorators : List Expr}
    {declaration : Declaration} {config : WrapperConfig} (hfits : registry.Fits true)
    (hsound : bodySound body = true)
    (hleaves : LeavesValues registry (isFrozenClass bases decorators) body)
    (hexpand : (expandBody registry filename true body).result = .ok body')
    (htexts : ∀ stmt ∈ body', stmt.HasReturnText)
    (hlift : liftDeclaration (.classDef line name bases keywords body decorators) = .ok declaration)
    (hconfig : introspect declaration = .ok config) :
    ∃ declaration', liftDeclaration (.classDef line name bases keywords body' decorators) = .ok declaration'
      ∧ introspect declaration' = .ok config := by
  obtain ⟨members, hmembers, hlift⟩ := bind_eq_ok_iff.1 hlift
  cases hlift
  obtain ⟨declared, hdeclared, hmembers⟩ := bind_eq_ok_iff.1 hmembers
  obtain ⟨created, hcreated, hmembers⟩ := bind_eq_ok_iff.1 hmembers
  cases hmembers
  obtain ⟨slots, hslots, hdeclared⟩ := bind_eq_ok_iff.1 hdeclared
  cases hdeclared
  obtain ⟨groups, hgroups, rfl⟩ :=
    becomes_of_expands hfits (expands_of_result body hexpand) rfl hsound
  -- What the body declares stays alike, and what the initializer creates stays the same.
  obtain ⟨slots', hslots', hsame⟩ :=
    sameValues_of_forall₂_becomes hleaves (List.Subset.refl body) rfl hgroups htexts .nil hslots
  obtain ⟨created', hcreated', hflat⟩ :=
    initializerMembers_of_forall₂_becomes hleaves (List.Subset.refl body) hgroups hcreated
  refine ⟨_, bind_eq_ok_iff.2 ⟨_, bind_eq_ok_iff.2 ⟨_, bind_eq_ok_iff.2 ⟨slots', hslots', rfl⟩,
    bind_eq_ok_iff.2 ⟨created', hcreated', rfl⟩⟩, rfl⟩, ?_⟩
  rw [hflat, ← hconfig]
  exact (hsame.introspect_eq (patterns_of_mapM_initializerMembers hcreated)).symm

end PropertyWrapper
