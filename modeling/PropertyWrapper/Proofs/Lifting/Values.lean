import PropertyWrapper.Lifting.Declaration
import PropertyWrapper.Model.Introspection
import PropertyWrapper.Proofs.Result

/-!
# Members for the wrapped and the projected value

A configuration is read off two members of a class. Two class bodies whose members for these values are
alike have the same configuration, whatever their other members are. The members of a body are gathered
statement by statement, and what a statement does to the two members depends on few names: its own, and
those of the computed properties that its decorators can extend.

* `SameValues` : two lists of slots are alike as far as the two values go;
* `Idle` : a step does nothing to the two values;
* `SameValues.liftStatement` : one statement keeps two lists alike;
* `idle_liftFunction` : a function of another name does nothing to the two values;
* `SameValues.introspect_eq` : alike slots give one configuration.
-/

namespace PropertyWrapper

open Source

/-- The names of the members that a configuration is read off. -/
def valueNames : List String := [wrappedValue, projectedValue]

/-! ## Decorators -/

/-- The computed property that a decorator extends, if there is one of this name. -/
def extendedName? (decorator : Expr) : Option String :=
  (referenceName decorator).bind fun name =>
    (companionKind? (lastComponent name)).map fun _ => qualifier name

/-- The computed properties that a statement extends, as far as there are any of these names. -/
def Source.Stmt.extendedNames : Stmt → List String
  | .function _ _ _ _ _ decorators _ => decorators.filterMap extendedName?
  | _ => []

theorem findSome?_congr_of_mem {α β : Type} {f g : α → Option β} {items : List α}
    (h : ∀ item ∈ items, f item = g item) : items.findSome? f = items.findSome? g := by
  induction items with
  | nil => rfl
  | cons item items ih =>
    obtain ⟨hitem, hitems⟩ := List.forall_mem_cons.1 h
    rw [List.findSome?_cons, List.findSome?_cons, hitem, ih hitems]

/-- The role of a decorator depends on the property that it extends. -/
theorem decoratorRole?_congr {properties properties' : List String} {decorator : Expr}
    (h : ∀ name, extendedName? decorator = some name → (name ∈ properties ↔ name ∈ properties')) :
    decoratorRole? properties decorator = decoratorRole? properties' decorator := by
  unfold decoratorRole?
  unfold extendedName? at h
  cases hname : referenceName decorator with
  | none => rfl
  | some name =>
    rw [hname, Option.bind_some] at h
    rw [Option.bind_some, Option.bind_some]
    cases hkind : companionKind? (lastComponent name) with
    | none => simp
    | some kind =>
      rw [hkind] at h
      have hiff := h (qualifier name) rfl
      simp only [List.contains_eq_mem, hiff]

/-- A decorator that extends a property is one of a property that stands before it. -/
theorem extendedName?_of_companion {properties : List String} {decorator : Expr} {owner : String}
    {kind : AccessorKind} (h : decoratorRole? properties decorator = some (.companion owner kind)) :
    extendedName? decorator = some owner := by
  obtain ⟨name, hname, h⟩ := Option.bind_eq_some_iff.1 h
  rw [extendedName?, hname, Option.bind_some]
  split at h
  · cases h
  · split at h
    · cases h
    · split at h
      · obtain ⟨kind', hkind, heq⟩ := Option.map_eq_some_iff.1 h
        cases heq
        rw [hkind, Option.map_some]
      · cases h

/-! ## Slots -/

/-- Whether a slot holds a member for one of the two values. -/
def Slot.isValue (slot : Slot) : Bool := valueNames.any fun name => slot.member.identifiers.contains name

/-- The names of the computed properties in some slots. -/
def propertyNames (slots : List Slot) : List String := slots.filterMap Slot.property?

/-- Every computed property in some slots binds its name and no other one. -/
def SlotsNamed (slots : List Slot) : Prop :=
  ∀ slot ∈ slots, ∀ name, slot.property? = some name → slot.member.identifiers = [name]

theorem SlotsNamed.cons {slots : List Slot} {slot : Slot}
    (h : ∀ name, slot.property? = some name → slot.member.identifiers = [name])
    (hslots : SlotsNamed slots) : SlotsNamed (slot :: slots) :=
  List.forall_mem_cons.2 ⟨h, hslots⟩

theorem isValue_of_identifiers {slot : Slot} {name : String} (h : slot.member.identifiers = [name]) :
    slot.isValue = true ↔ name ∈ valueNames := by
  simp only [Slot.isValue, h, List.any_eq_true, List.contains_eq_mem, List.mem_singleton,
    decide_eq_true_eq, exists_eq_right]

section Extended

variable {slot : Slot} {kind : AccessorKind} {type : Option String}

@[simp] theorem Slot.property?_extended : (slot.extended kind type).property? = slot.property? := rfl

end Extended

section ExtendProperty

variable {owner : String} {kind : AccessorKind} {type : Option String} {slots : List Slot}

/-- A further accessor changes no names. -/
theorem propertyNames_extendProperty :
    propertyNames (extendProperty owner kind type slots) = propertyNames slots := by
  induction slots with
  | nil => rfl
  | cons slot slots ih =>
    rw [extendProperty]
    split
    · rw [propertyNames, List.filterMap_cons, Slot.property?_extended, ← List.filterMap_cons]
      rfl
    · rw [propertyNames, propertyNames, List.filterMap_cons, List.filterMap_cons] at *
      rw [ih]

theorem SlotsNamed.extendProperty (h : SlotsNamed slots) :
    SlotsNamed (extendProperty owner kind type slots) := by
  induction slots with
  | nil => exact h
  | cons slot slots ih =>
    obtain ⟨hslot, hslots⟩ := List.forall_mem_cons.1 h
    rw [PropertyWrapper.extendProperty]
    split
    · exact .cons hslot hslots
    · exact .cons hslot (ih hslots)

/-- A further accessor of another property does nothing to the two values. -/
theorem filter_extendProperty_of_not_mem (h : SlotsNamed slots) (howner : owner ∉ valueNames) :
    (extendProperty owner kind type slots).filter Slot.isValue = slots.filter Slot.isValue := by
  induction slots with
  | nil => rfl
  | cons slot slots ih =>
    obtain ⟨hslot, hslots⟩ := List.forall_mem_cons.1 h
    rw [extendProperty]
    split
    · rename_i hproperty
      have hvalue : ¬ slot.isValue = true := by
        rwa [isValue_of_identifiers (hslot owner hproperty)]
      rw [List.filter_cons_of_neg hvalue]
      exact List.filter_cons_of_neg hvalue
    · rw [List.filter_cons, List.filter_cons, ih hslots]

/-- A further accessor of one of the two values is an accessor of their slots. -/
theorem filter_extendProperty_of_mem (h : SlotsNamed slots) (howner : owner ∈ valueNames) :
    (extendProperty owner kind type slots).filter Slot.isValue
      = extendProperty owner kind type (slots.filter Slot.isValue) := by
  induction slots with
  | nil => rfl
  | cons slot slots ih =>
    obtain ⟨hslot, hslots⟩ := List.forall_mem_cons.1 h
    rw [extendProperty]
    split
    · rename_i hproperty
      have hvalue : slot.isValue = true := (isValue_of_identifiers (hslot owner hproperty)).2 howner
      rw [List.filter_cons_of_pos hvalue, extendProperty, if_pos hproperty]
      exact List.filter_cons_of_pos hvalue
    · rename_i hproperty
      cases hvalue : slot.isValue with
      | true =>
        rw [List.filter_cons_of_pos hvalue, List.filter_cons_of_pos hvalue, extendProperty,
          if_neg hproperty, ih hslots]
      | false =>
        rw [List.filter_cons_of_neg (by simp [hvalue]), List.filter_cons_of_neg (by simp [hvalue]),
          ih hslots]

end ExtendProperty

/-! ## Idle steps -/

/-- A step from some slots to the next does nothing to the two values, and brings and removes computed
properties of the generated names only. -/
structure Idle (generated : List String) (slots next : List Slot) : Prop where
  values : next.filter Slot.isValue = slots.filter Slot.isValue
  properties : ∀ name, name ∉ generated → (name ∈ propertyNames next ↔ name ∈ propertyNames slots)
  named : SlotsNamed slots → SlotsNamed next

namespace Idle

variable {generated : List String} {slots next last : List Slot}

theorem refl (slots : List Slot) : Idle generated slots slots := ⟨rfl, fun _ _ => Iff.rfl, id⟩

theorem trans (h : Idle generated slots next) (h' : Idle generated next last) :
    Idle generated slots last :=
  ⟨h'.values.trans h.values, fun name hname => (h'.properties name hname).trans (h.properties name hname),
    fun hnamed => h'.named (h.named hnamed)⟩

/-- One more member that is for neither value. -/
theorem cons {slot : Slot} (hvalue : slot.isValue = false)
    (hproperty : ∀ name, slot.property? = some name →
      slot.member.identifiers = [name] ∧ name ∈ generated) :
    Idle generated slots (slot :: slots) := by
  refine ⟨List.filter_cons_of_neg (by simp [hvalue]), fun name hname => ?_,
    fun hnamed => .cons (fun name h => (hproperty name h).1) hnamed⟩
  rw [propertyNames, List.filterMap_cons]
  cases hslot : slot.property? with
  | none => rfl
  | some name' =>
    have hne : name ≠ name' := fun heq => hname (heq ▸ (hproperty name' hslot).2)
    simp [propertyNames, hne]

end Idle

/-- A further accessor of another property is an idle step. -/
theorem idle_extendProperty {generated : List String} {owner : String} {kind : AccessorKind}
    {type : Option String} {slots : List Slot} (hnamed : SlotsNamed slots) (howner : owner ∉ valueNames) :
    Idle generated slots (extendProperty owner kind type slots) := by
  refine ⟨filter_extendProperty_of_not_mem hnamed howner, fun name _ => ?_, SlotsNamed.extendProperty⟩
  rw [propertyNames_extendProperty]

/-! ## Functions -/

/-- The role of a function behind some slots. -/
def roleBehind? (slots : List Slot) (decorators : List Expr) : Option FunctionRole :=
  decorators.findSome? (decoratorRole? (propertyNames slots))

/-- What a function of a class body can do to the slots before it. -/
inductive SlotStep (name : String) (owners : List String) : (List Slot → List Slot) → Prop where
  | skip : SlotStep name owners id
  | push {slot : Slot} (hpatterns : slot.member.patterns = [.identifier name]) :
      SlotStep name owners (slot :: ·)
  | extend {owner : String} (kind : AccessorKind) (type : Option String) (howner : owner ∈ owners) :
      SlotStep name owners (extendProperty owner kind type)

section Function

variable {generated : List String} {slots : List Slot} {line : Nat} {name : String}
  {decorators : List Expr} {returns : Option Expr}

theorem mem_extended_of_role {owner : String} {kind : AccessorKind}
    (h : roleBehind? slots decorators = some (.companion owner kind)) :
    owner ∈ decorators.filterMap extendedName? := by
  obtain ⟨decorator, hdecorator, hrole⟩ := List.exists_of_findSome?_eq_some h
  exact List.mem_filterMap.2 ⟨decorator, hdecorator, extendedName?_of_companion hrole⟩

/-- A function takes one of these steps, and the same one wherever it has the same role. -/
theorem slotStep_of_liftFunction {next : List Slot}
    (h : liftFunction slots line name decorators returns = .ok next) :
    ∃ step, SlotStep name (decorators.filterMap extendedName?) step ∧ next = step slots
      ∧ ∀ slots', roleBehind? slots' decorators = roleBehind? slots decorators →
        liftFunction slots' line name decorators returns = .ok (step slots') := by
  -- The slots enter into the choice of the role and into nothing else before the step.
  cases hrole : roleBehind? slots decorators with
  | none =>
    rw [liftFunction, ← propertyNames, ← roleBehind?, hrole] at h
    cases h
    refine ⟨id, .skip, rfl, fun slots' hsame => ?_⟩
    rw [liftFunction, ← propertyNames, ← roleBehind?, hsame]
    rfl
  | some role =>
    rw [liftFunction, ← propertyNames, ← roleBehind?, hrole] at h
    cases role with
    | getter =>
      obtain ⟨type, htype, h⟩ := bind_eq_ok_iff.1 h
      cases h
      refine ⟨_, .push rfl, rfl, fun slots' hsame => ?_⟩
      rw [liftFunction, ← propertyNames, ← roleBehind?, hsame]
      exact bind_eq_ok_iff.2 ⟨type, htype, rfl⟩
    | cached =>
      obtain ⟨type, htype, h⟩ := bind_eq_ok_iff.1 h
      cases h
      refine ⟨_, .push rfl, rfl, fun slots' hsame => ?_⟩
      rw [liftFunction, ← propertyNames, ← roleBehind?, hsame]
      exact bind_eq_ok_iff.2 ⟨type, htype, rfl⟩
    | companion owner kind =>
      have howner := mem_extended_of_role hrole
      dsimp only at h
      split at h
      · rename_i hget
        obtain ⟨type, htype, h⟩ := bind_eq_ok_iff.1 h
        cases h
        refine ⟨_, .extend kind type howner, rfl, fun slots' hsame => ?_⟩
        rw [liftFunction, ← propertyNames, ← roleBehind?, hsame]
        dsimp only
        rw [if_pos hget]
        exact bind_eq_ok_iff.2 ⟨type, htype, rfl⟩
      · rename_i hget
        cases h
        refine ⟨_, .extend kind none howner, rfl, fun slots' hsame => ?_⟩
        rw [liftFunction, ← propertyNames, ← roleBehind?, hsame]
        dsimp only
        rw [if_neg hget]
        rfl

/-- A function whose return type can be printed can be lifted. -/
theorem exists_liftFunction {type : Option String} (slots : List Slot) (line : Nat) (name : String)
    (decorators : List Expr) (h : returns.mapM Expr.text = .ok type) :
    ∃ next, liftFunction slots line name decorators returns = .ok next := by
  rw [liftFunction]
  simp only [h]
  split
  · exact ⟨_, rfl⟩
  · exact ⟨_, rfl⟩
  · exact ⟨_, rfl⟩
  · split
    · exact ⟨_, rfl⟩
    · exact ⟨_, rfl⟩

theorem identifiers_of_patterns {member : Member} (h : member.patterns = [.identifier name]) :
    member.identifiers = [name] := by
  rw [Member.identifiers, h]
  rfl

/-- A computed property with one plain name has that name. -/
theorem property?_of_patterns {slot : Slot} {shown : String}
    (h : slot.member.patterns = [.identifier name]) (hproperty : slot.property? = some shown) :
    shown = name := by
  unfold Slot.property? at hproperty
  split at hproperty
  · cases hproperty
    rw [Member.displayName, h]
    rfl
  · cases hproperty

/-- A function with a generated name, which neither is nor extends one of the two values, does nothing to
them. -/
theorem idle_liftFunction {next : List Slot} (hnamed : SlotsNamed slots) (hgenerated : name ∈ generated)
    (hname : name ∉ valueNames) (howners : ∀ owner ∈ decorators.filterMap extendedName?, owner ∉ valueNames)
    (h : liftFunction slots line name decorators returns = .ok next) : Idle generated slots next := by
  obtain ⟨step, hstep, rfl, -⟩ := slotStep_of_liftFunction h
  cases hstep with
  | skip => exact .refl slots
  | push hpatterns =>
    have hidentifiers := identifiers_of_patterns hpatterns
    refine .cons ?_ fun shown hproperty => ?_
    · rwa [← Bool.not_eq_true, isValue_of_identifiers hidentifiers]
    · obtain rfl := property?_of_patterns hpatterns hproperty
      exact ⟨hidentifiers, hgenerated⟩
  | extend kind type howner => exact idle_extendProperty hnamed (howners _ howner)

end Function

/-! ## Alike slots -/

/-- Two slots say the same about the two values: they are equal, or a stored wrapped value has become a
computed one that can be assigned exactly if the stored one can. -/
inductive Slot.Alike (generated : List String) : Slot → Slot → Prop where
  | same (slot : Slot) : Alike generated slot slot
  | rewritten {slot slot' : Slot} (hgenerated : wrappedValue ∈ generated)
      (hstored : slot.isProperty = false) (hname : slot.member.identifiers = [wrappedValue])
      (hproperty : slot'.property? = some wrappedValue)
      (hname' : slot'.member.identifiers = [wrappedValue])
      (hsettable : slot'.member.isSettable = slot.member.isSettable) : Alike generated slot slot'

/-- Two lists of slots are alike as far as the two values go. They may differ in computed properties of the
generated names. -/
structure SameValues (generated : List String) (slots slots' : List Slot) : Prop where
  values : List.Forall₂ (Slot.Alike generated) (slots.filter Slot.isValue) (slots'.filter Slot.isValue)
  properties : ∀ name, name ∉ generated → (name ∈ propertyNames slots ↔ name ∈ propertyNames slots')
  named : SlotsNamed slots
  named' : SlotsNamed slots'

namespace SameValues

variable {generated : List String} {slots slots' next next' : List Slot}

theorem nil : SameValues generated [] [] :=
  ⟨.nil, fun _ _ => Iff.rfl, by simp [SlotsNamed], by simp [SlotsNamed]⟩

/-- Idle steps on both sides keep slots alike. -/
theorem of_idle (h : SameValues generated slots slots') (hidle : Idle generated slots next)
    (hidle' : Idle generated slots' next') : SameValues generated next next' := by
  refine ⟨?_, fun name hname => ?_, hidle.named h.named, hidle'.named h.named'⟩
  · rw [hidle.values, hidle'.values]
    exact h.values
  · rw [hidle.properties name hname, h.properties name hname, hidle'.properties name hname]

/-- One more member on each side. -/
theorem cons {slot slot' : Slot} (h : SameValues generated slots slots')
    (hvalue : slot.isValue = slot'.isValue) (halike : slot.Alike generated slot')
    (hproperty : ∀ name, name ∉ generated → (slot.property? = some name ↔ slot'.property? = some name))
    (hnamed : ∀ name, slot.property? = some name → slot.member.identifiers = [name])
    (hnamed' : ∀ name, slot'.property? = some name → slot'.member.identifiers = [name]) :
    SameValues generated (slot :: slots) (slot' :: slots') := by
  refine ⟨?_, fun name hname => ?_, .cons hnamed h.named, .cons hnamed' h.named'⟩
  · rw [List.filter_cons, List.filter_cons, ← hvalue]
    split
    · exact .cons halike h.values
    · exact h.values
  · have hiff := h.properties name hname
    simp only [propertyNames, List.mem_filterMap, List.mem_cons, exists_eq_or_imp] at hiff ⊢
    rw [hproperty name hname, hiff]

/-- The same member on each side. -/
theorem cons_same {slot : Slot} (h : SameValues generated slots slots')
    (hnamed : ∀ name, slot.property? = some name → slot.member.identifiers = [name]) :
    SameValues generated (slot :: slots) (slot :: slots') :=
  h.cons rfl (.same slot) (fun _ _ => Iff.rfl) hnamed hnamed

/-- A further accessor of a property that is not generated. -/
theorem extendProperty {owner : String} {kind : AccessorKind} {type : Option String}
    (h : SameValues generated slots slots') (howner : owner ∉ generated) :
    SameValues generated (extendProperty owner kind type slots)
      (PropertyWrapper.extendProperty owner kind type slots') := by
  by_cases hvalue : owner ∈ valueNames
  · refine ⟨?_, fun name hname => ?_, h.named.extendProperty, h.named'.extendProperty⟩
    · rw [filter_extendProperty_of_mem h.named hvalue, filter_extendProperty_of_mem h.named' hvalue]
      have hvalues := h.values
      generalize slots.filter Slot.isValue = values at hvalues ⊢
      generalize slots'.filter Slot.isValue = values' at hvalues ⊢
      induction hvalues with
      | nil => exact .nil
      | cons halike hrest ih =>
        rw [PropertyWrapper.extendProperty, PropertyWrapper.extendProperty]
        cases halike with
        | same =>
          split
          · exact .cons (.same _) hrest
          · exact .cons (.same _) ih
        | rewritten hgenerated hstored hname hproperty hname' hsettable =>
          -- A rewritten wrapped value is generated, so it is not what the function extends.
          have hne : wrappedValue ≠ owner := fun heq => howner (heq ▸ hgenerated)
          rw [if_neg (by simp [Slot.property?, hstored]), if_neg (by simp [hproperty, hne])]
          exact .cons (.rewritten hgenerated hstored hname hproperty hname' hsettable) ih
    · rw [propertyNames_extendProperty, propertyNames_extendProperty]
      exact h.properties name hname
  · exact h.of_idle (idle_extendProperty h.named hvalue) (idle_extendProperty h.named' hvalue)

/-- One function keeps slots alike if it extends no generated property. -/
theorem liftFunction {line : Nat} {name : String} {decorators : List Expr} {returns : Option Expr}
    (h : SameValues generated slots slots')
    (howners : ∀ owner ∈ decorators.filterMap extendedName?, owner ∉ generated)
    (hlift : liftFunction slots line name decorators returns = .ok next) :
    ∃ next', PropertyWrapper.liftFunction slots' line name decorators returns = .ok next'
      ∧ SameValues generated next next' := by
  have hrole : roleBehind? slots' decorators = roleBehind? slots decorators := by
    refine findSome?_congr_of_mem fun decorator hdecorator => decoratorRole?_congr fun owner howner => ?_
    exact (h.properties owner (howners owner (List.mem_filterMap.2 ⟨decorator, hdecorator, howner⟩))).symm
  obtain ⟨step, hstep, rfl, hsame⟩ := slotStep_of_liftFunction hlift
  refine ⟨_, hsame slots' hrole, ?_⟩
  cases hstep with
  | skip => exact h
  | push hpatterns =>
    refine h.cons_same fun shown hproperty => ?_
    obtain rfl := property?_of_patterns hpatterns hproperty
    exact identifiers_of_patterns hpatterns
  | extend kind type howner => exact h.extendProperty (howners _ howner)

/-- One statement keeps slots alike if it extends no generated property. -/
theorem liftStatement {frozen : Bool} {stmt : Stmt} (h : SameValues generated slots slots')
    (howners : ∀ owner ∈ stmt.extendedNames, owner ∉ generated)
    (hlift : liftStatement frozen slots stmt = .ok next) :
    ∃ next', PropertyWrapper.liftStatement frozen slots' stmt = .ok next'
      ∧ SameValues generated next next' := by
  cases stmt with
  | annAssign line target hint value bare =>
    obtain ⟨member, hmember, hlift⟩ := bind_eq_ok_iff.1 hlift
    cases hlift
    exact ⟨_, by rw [PropertyWrapper.liftStatement, hmember]; rfl, h.cons_same (by rintro _ ⟨⟩)⟩
  | assign line targets value =>
    obtain ⟨member, hmember, hlift⟩ := bind_eq_ok_iff.1 hlift
    cases hlift
    exact ⟨_, by rw [PropertyWrapper.liftStatement, hmember]; rfl, h.cons_same (by rintro _ ⟨⟩)⟩
  | function line isAsync name params body decorators returns => exact h.liftFunction howners hlift
  | _ =>
    cases hlift
    exact ⟨slots', rfl, h⟩

end SameValues

/-! ## Members -/

/-- Whether a member for one of the two values is found depends on the slots for the two values. -/
theorem findMember_filter (slots : List Slot) {name : String} (hname : name ∈ valueNames) :
    findMember (slots.reverse.map Slot.member) name
      = findMember ((slots.filter Slot.isValue).reverse.map Slot.member) name := by
  rw [findMember, findMember, List.find?_map, List.find?_map, List.filter_reverse.symm,
    List.find?_filter]
  have hvalue : ∀ slot : Slot, slot.member.identifiers.contains name = true → slot.isValue = true :=
    fun slot h => List.any_eq_true.2 ⟨name, hname, h⟩
  congr 2
  funext slot
  rw [Function.comp_apply, Bool.eq_iff_iff, decide_eq_true_iff]
  exact (and_iff_right_of_imp (hvalue slot)).symm

/-- Alike members agree about whether the wrapped value can be assigned, and have one projected value. -/
theorem findMember_of_alike {generated : List String} {values values' : List Slot}
    (h : List.Forall₂ (Slot.Alike generated) values values') :
    (findMember (values.map Slot.member) wrappedValue).map Member.isSettable
        = (findMember (values'.map Slot.member) wrappedValue).map Member.isSettable
      ∧ findMember (values.map Slot.member) projectedValue
        = findMember (values'.map Slot.member) projectedValue := by
  simp only [findMember] at *
  induction h with
  | nil => exact ⟨rfl, rfl⟩
  | cons halike hrest ih =>
    simp only [List.map_cons, List.find?_cons]
    cases halike with
    | same =>
      constructor
      · split
        · rfl
        · exact ih.1
      · split
        · rfl
        · exact ih.2
    | rewritten hgenerated hstored hname hproperty hname' hsettable =>
      have hwrapped : [wrappedValue].contains wrappedValue = true := by decide
      have hprojected : [wrappedValue].contains projectedValue = false := by decide
      rw [hname, hname', hwrapped, hprojected]
      exact ⟨congrArg some hsettable.symm, ih.2⟩

theorem SameValues.findMember {generated : List String} {slots slots' : List Slot}
    (h : SameValues generated slots slots') :
    (findMember (slots.reverse.map Slot.member) wrappedValue).map Member.isSettable
        = (PropertyWrapper.findMember (slots'.reverse.map Slot.member) wrappedValue).map Member.isSettable
      ∧ PropertyWrapper.findMember (slots.reverse.map Slot.member) projectedValue
        = PropertyWrapper.findMember (slots'.reverse.map Slot.member) projectedValue := by
  have hwrapped : wrappedValue ∈ valueNames := by decide
  have hprojected : projectedValue ∈ valueNames := by decide
  rw [findMember_filter slots hwrapped, findMember_filter slots' hwrapped,
    findMember_filter slots hprojected, findMember_filter slots' hprojected]
  exact findMember_of_alike (List.forall₂_reverse_iff.2 h.values)

theorem patterns_of_receiverMembers {receiver : String} {stmt : Stmt} {members : List Member}
    (h : receiverMembers receiver stmt = .ok members) :
    ∀ member ∈ members, ∃ name, member.patterns = [.identifier name] := by
  unfold receiverMembers at h
  split at h
  · split at h
    · cases h
      simp
    · obtain ⟨found, -, h⟩ := bind_eq_ok_iff.1 h
      obtain ⟨initializer, -, h⟩ := bind_eq_ok_iff.1 h
      cases h
      exact List.forall_mem_singleton.2 ⟨_, rfl⟩
  · refine forall_of_mapM_eq_ok h fun name _ member hmember => ?_
    obtain ⟨text, -, hmember⟩ := bind_eq_ok_iff.1 hmember
    cases hmember
    exact ⟨name, rfl⟩
  · cases h
    simp

/-- The members that an initializer creates have one plain name each. -/
theorem patterns_of_initializerMembers {stmt : Stmt} {members : List Member}
    (h : initializerMembers stmt = .ok members) :
    ∀ member ∈ members, ∃ name, member.patterns = [.identifier name] := by
  unfold initializerMembers at h
  split at h
  · split at h
    · unfold liftInstanceMembers at h
      split at h
      · cases h
        simp
      · obtain ⟨found, hfound, rfl⟩ := map_eq_ok_iff.1 h
        intro member hmember
        obtain ⟨members, hmembers, hmem⟩ := List.mem_flatten.1 hmember
        exact forall_of_mapM_eq_ok hfound (fun _ _ _ => patterns_of_receiverMembers) members hmembers
          member hmem
    · cases h
      simp
  · cases h
    simp

/-- All members that the initializers of a body create have one plain name each. -/
theorem patterns_of_mapM_initializerMembers {body : List Stmt} {created : List (List Member)}
    (h : body.mapM initializerMembers = .ok created) :
    ∀ member ∈ created.flatten, ∃ own, member.patterns = [.identifier own] := by
  intro member hmember
  obtain ⟨members, hmembers, hmem⟩ := List.mem_flatten.1 hmember
  exact forall_of_mapM_eq_ok h (fun _ _ _ => patterns_of_initializerMembers) members hmembers member hmem

/-- The members that the initializers of a class body create. -/
def createdMembers (body : List Stmt) : Except PrintError (List Member) :=
  List.flatten <$> body.mapM initializerMembers

/-- The members of a class body are those of its slots, and those that its initializers create. -/
theorem liftMembers_eq_bind (frozen : Bool) (body : List Stmt) :
    liftMembers frozen body = do
      let slots ← body.foldlM (liftStatement frozen) []
      let created ← createdMembers body
      return slots.reverse.map Slot.member
        ++ undeclared ((slots.reverse.map Slot.member).flatMap Member.identifiers) created := by
  rw [liftMembers, liftDeclared, createdMembers]
  cases body.foldlM (liftStatement frozen) [] with
  | error problem => rfl
  | ok slots => cases body.mapM initializerMembers <;> rfl

theorem patterns_of_createdMembers {body : List Stmt} {created : List Member}
    (h : createdMembers body = .ok created) :
    ∀ member ∈ created, ∃ own, member.patterns = [.identifier own] := by
  obtain ⟨groups, hgroups, rfl⟩ := map_eq_ok_iff.1 h
  exact patterns_of_mapM_initializerMembers hgroups

/-- Initializers create their members one after the other. -/
theorem createdMembers_cons (stmt : Stmt) (rest : List Stmt) :
    createdMembers (stmt :: rest) = do
      let first ← initializerMembers stmt
      let others ← createdMembers rest
      return first ++ others := by
  rw [createdMembers, createdMembers, List.mapM_cons]
  cases initializerMembers stmt with
  | error problem => rfl
  | ok first => cases rest.mapM initializerMembers <;> rfl

theorem createdMembers_cons_of_nil {stmt : Stmt} (rest : List Stmt) (h : initializerMembers stmt = .ok []) :
    createdMembers (stmt :: rest) = createdMembers rest := by
  rw [createdMembers_cons, h]
  cases createdMembers rest <;> rfl

/-- A name that is not declared is looked up among the created members. -/
theorem findMember_undeclared {declared : List String} {created : List Member} {name : String}
    (hpatterns : ∀ member ∈ created, ∃ own, member.patterns = [.identifier own])
    (hname : name ∉ declared) :
    findMember (undeclared declared created) name = findMember created name := by
  induction created generalizing declared with
  | nil => rfl
  | cons member created ih =>
    obtain ⟨⟨own, hown⟩, hrest⟩ := List.forall_mem_cons.1 hpatterns
    have hidentifiers := identifiers_of_patterns hown
    have hshown : member.displayName = own := by
      rw [Member.displayName, hown]
      rfl
    -- A created member has one name, so it is found exactly under this name.
    have hfind : ∀ members, findMember (member :: members) name
        = if name = own then some member else findMember members name := by
      intro members
      rw [findMember, List.find?_cons, hidentifiers]
      by_cases heq : name = own
      · simp [heq]
      · simp [heq, findMember]
    rw [undeclared, hshown, hfind]
    split
    · rename_i hcontains
      have hne : name ≠ own := fun heq => hname (heq ▸ by simpa using hcontains)
      rw [if_neg hne]
      exact ih hrest hname
    · rw [hfind]
      split
      · rfl
      · rename_i hne
        exact ih hrest (by simp [hne, hname])

/-- The member for a name is a declared one, or else a created one. -/
theorem findMember_append_undeclared {declared created : List Member} {name : String}
    (hpatterns : ∀ member ∈ created, ∃ own, member.patterns = [.identifier own]) :
    findMember (declared ++ undeclared (declared.flatMap Member.identifiers) created) name
      = (findMember declared name).or (findMember created name) := by
  rw [findMember, List.find?_append, ← findMember, ← findMember]
  cases hfound : findMember declared name with
  | some member => rfl
  | none =>
    have hnot : name ∉ declared.flatMap Member.identifiers := by
      intro hmem
      obtain ⟨member, hmember, hname⟩ := List.mem_flatMap.1 hmem
      exact List.find?_eq_none.1 hfound member hmember (List.contains_iff_mem.2 hname)
    rw [findMember_undeclared hpatterns hnot]

/-- Class bodies with alike slots, in which initializers create the same members, have one
configuration. -/
theorem SameValues.introspect_eq {generated : List String} {slots slots' : List Slot}
    {created : List Member} {kind : DeclarationKind} {name : String} {line : Int}
    (h : SameValues generated slots slots')
    (hpatterns : ∀ member ∈ created, ∃ own, member.patterns = [.identifier own]) :
    introspect { kind, name, line, members := slots.reverse.map Slot.member
        ++ undeclared ((slots.reverse.map Slot.member).flatMap Member.identifiers) created }
      = introspect { kind, name, line, members := slots'.reverse.map Slot.member
        ++ undeclared ((slots'.reverse.map Slot.member).flatMap Member.identifiers) created } := by
  obtain ⟨hwrapped, hprojected⟩ := h.findMember
  rw [introspect, introspect]
  simp only [findMember_append_undeclared hpatterns, ← hprojected]
  split
  · generalize PropertyWrapper.findMember (slots.reverse.map Slot.member) wrappedValue = wrapped
      at hwrapped ⊢
    generalize PropertyWrapper.findMember (slots'.reverse.map Slot.member) wrappedValue = wrapped'
      at hwrapped ⊢
    cases wrapped with
    | none =>
      obtain rfl : wrapped' = none := by simpa using hwrapped.symm
      rfl
    | some member =>
      obtain ⟨member', rfl, hsettable⟩ := Option.map_eq_some_iff.1 hwrapped.symm
      simp only [Option.some_or, configOf, hsettable]
  · rfl

end PropertyWrapper
