import PropertyWrapper.Proofs.Lifting.Names
import PropertyWrapper.Proofs.Lifting.Values
import PropertyWrapper.Proofs.Source.Evaluation
import PropertyWrapper.Source.Module

/-!
# Computed properties and what their names are bound to

When a class body of decorated functions runs, each function binds its own name: to a new property, or to
an earlier one with one more accessor. The members that are lifted from the body are kept by the names of
the new properties instead. An accessor is added to the latest member of the name in its decorator, and a
member is looked up as the first one of its name.

* `PropertyDefinition.run` : what a definition binds when the body runs;
* `PropertyDefinition.recorded` : what it does to the members of one name;
* `lifts_definitions` : the members of all names after a body;
* `runDefinitions_eq_head` : a name is bound to its latest member if no accessor changes its name;
* `settable_as_run` : a lifted property can be set if and only if running the body up to the second new
  property of its name binds the name to a property with a setter.
-/

namespace PropertyWrapper

open Source

/-! ## Running a class body -/

/-- Which accessors a property has. -/
abbrev AccessorSet := AccessorKind → Bool

/-- A property with a getter only. -/
def getterOnly : AccessorSet := Function.update (fun _ => false) .get true

/-- A property with one more accessor. -/
def AccessorSet.with (property : AccessorSet) (kind : AccessorKind) : AccessorSet :=
  Function.update property kind true

/-- A function in a class body that defines a property. -/
inductive PropertyDefinition where
  /-- A function that is the getter of a new property. -/
  | fresh (name : String)
  /-- A function that is a further accessor of the property that a name is bound to. -/
  | extend (owner : String) (kind : AccessorKind) (name : String)
deriving DecidableEq, Repr

/-- The properties that names are bound to. -/
abbrev Bindings := String → Option AccessorSet

/-- The bindings after a definition ran. A further accessor needs a property that it belongs to. -/
def PropertyDefinition.run (bindings : Bindings) : PropertyDefinition → Option Bindings
  | .fresh name => some (Function.update bindings name (some getterOnly))
  | .extend owner kind name =>
    (bindings owner).map fun property => Function.update bindings name (some (property.with kind))

/-- The bindings after a class body of definitions ran. -/
def runDefinitions (definitions : List PropertyDefinition) : Option Bindings :=
  definitions.foldlM PropertyDefinition.run fun _ => none

/-- The definition that a decorator makes of a function. -/
def decoratedDefinition? (name : String) : Expr → Option PropertyDefinition
  | .name _ id => if id = "property" then some (.fresh name) else none
  | .attribute _ (.name _ owner) word => (companionKind? word).map (.extend owner · name)
  | _ => none

/-- The definition that a statement is if it is a function with a single decorator for properties. -/
def Source.Stmt.propertyDefinition? : Stmt → Option PropertyDefinition
  | .function _ _ name _ _ [decorator] _ => decoratedDefinition? name decorator
  | _ => none

/-- Whether the texts that are read off a function can be written: that of its annotation, and for an
initializer those of its assignments. -/
def Source.Stmt.IsWritable : Stmt → Prop
  | .function line isAsync name params body decorators returns =>
    (∃ type, returns.mapM Expr.text = .ok type)
      ∧ ∃ members, initializerMembers (.function line isAsync name params body decorators returns)
        = .ok members
  | _ => True

/-! ## Members of one name -/

/-- The properties of one name, latest first, after a definition: a new one stands in front, and a further
accessor is added to the latest one. -/
def PropertyDefinition.recorded (name : String) (properties : List AccessorSet) :
    PropertyDefinition → List AccessorSet
  | .fresh own => if own = name then getterOnly :: properties else properties
  | .extend owner kind _ =>
    if owner = name then properties.modifyHead (·.with kind) else properties

/-- The accessors in a slot. -/
def Slot.accessorSet (slot : Slot) : AccessorSet := (slot.member.accessors.getD []).contains

/-- The computed properties of one name in some slots. -/
def propertiesNamed (name : String) (slots : List Slot) : List AccessorSet :=
  slots.filterMap fun slot => if slot.property? = some name then some slot.accessorSet else none

/-- All slots hold computed properties with one plain name each. -/
def AllComputed (slots : List Slot) : Prop :=
  ∀ slot ∈ slots, ∃ name accessors,
    slot.isProperty = true ∧ slot.member.patterns = [.identifier name]
      ∧ slot.member.binding = .mutable ∧ slot.member.accessors = some accessors

section Slots

variable {name : String} {slots : List Slot} {slot : Slot}

theorem propertiesNamed_cons :
    propertiesNamed name (slot :: slots)
      = if slot.property? = some name then slot.accessorSet :: propertiesNamed name slots
        else propertiesNamed name slots := by
  rw [propertiesNamed, List.filterMap_cons]
  split
  · rename_i hnone
    rw [if_neg fun heq => by rw [if_pos heq] at hnone; cases hnone]
    rfl
  · rename_i own hsome
    split at hsome
    · cases hsome
      rename_i heq
      rw [if_pos heq]
      rfl
    · cases hsome

theorem accessorSet_extended (kind : AccessorKind) (type : Option String) :
    (slot.extended kind type).accessorSet = slot.accessorSet.with kind := by
  funext other
  rw [Slot.accessorSet, Slot.extended, AccessorSet.with, Function.update_apply, Slot.accessorSet]
  simp only [Option.getD_some]
  by_cases hkind : other = kind
  · subst hkind
    rw [if_pos rfl]
    split
    · assumption
    · simp
  · rw [if_neg hkind]
    split
    · rfl
    · simp [hkind]

/-- A further accessor is one of the latest property of its owner. -/
theorem propertiesNamed_extendProperty (owner : String) (kind : AccessorKind) (type : Option String) :
    propertiesNamed name (extendProperty owner kind type slots)
      = if owner = name then (propertiesNamed name slots).modifyHead (·.with kind)
        else propertiesNamed name slots := by
  induction slots with
  | nil => simp [extendProperty, propertiesNamed]
  | cons slot slots ih =>
    rw [extendProperty]
    by_cases hslot : slot.property? = some owner
    · rw [if_pos hslot, propertiesNamed_cons, propertiesNamed_cons, Slot.property?_extended, hslot,
        accessorSet_extended]
      by_cases howner : owner = name
      · simp [howner]
      · simp [howner]
    · rw [if_neg hslot, propertiesNamed_cons, propertiesNamed_cons, ih]
      by_cases howner : owner = name
      · subst howner
        simp [hslot]
      · simp [howner]

/-- Without a property of the name nothing is extended. -/
theorem propertiesNamed_eq_nil (h : name ∉ propertyNames slots) : propertiesNamed name slots = [] := by
  rw [propertiesNamed, List.filterMap_eq_nil_iff]
  intro slot hslot
  rw [if_neg]
  intro hproperty
  exact h (List.mem_filterMap.2 ⟨slot, hslot, hproperty⟩)

theorem AllComputed.extendProperty {owner : String} {kind : AccessorKind} {type : Option String}
    (h : AllComputed slots) : AllComputed (extendProperty owner kind type slots) := by
  induction slots with
  | nil => exact h
  | cons slot slots ih =>
    obtain ⟨⟨own, accessors, hproperty, hpatterns, hbinding, -⟩, hslots⟩ := List.forall_mem_cons.1 h
    rw [PropertyWrapper.extendProperty]
    split
    · exact List.forall_mem_cons.2 ⟨⟨own, _, hproperty, hpatterns, hbinding, rfl⟩, hslots⟩
    · exact List.forall_mem_cons.2 ⟨(List.forall_mem_cons.1 h).1, ih hslots⟩

/-- The member that is found under a name is the earliest property of the name. -/
theorem findMember_of_allComputed (h : AllComputed slots) :
    (findMember (slots.reverse.map Slot.member) name).map Member.isSettable
      = (propertiesNamed name slots).getLast?.map (· .set) := by
  induction slots with
  | nil => rfl
  | cons slot slots ih =>
    obtain ⟨⟨own, accessors, hproperty, hpatterns, hbinding, haccessors⟩, hslots⟩ :=
      List.forall_mem_cons.1 h
    specialize ih hslots
    have hshown : slot.member.displayName = own := by
      rw [Member.displayName, hpatterns]
      rfl
    have hslot : slot.property? = some own := by rw [Slot.property?, if_pos hproperty, hshown]
    have hsettable : slot.member.isSettable = slot.accessorSet .set := by
      rw [Member.isSettable, hbinding, haccessors, Slot.accessorSet, haccessors]
      rfl
    rw [List.reverse_cons, List.map_append, List.map_singleton, findMember, List.find?_append,
      ← findMember, propertiesNamed_cons, hslot]
    -- An earlier property of the name is found before this one.
    cases hfound : findMember (slots.reverse.map Slot.member) name with
    | some member =>
      rw [hfound] at ih
      cases hrest : propertiesNamed name slots with
      | nil =>
        rw [hrest] at ih
        cases ih
      | cons property others =>
        rw [hrest] at ih
        rw [Option.some_or, ih]
        split
        · rw [List.getLast?_cons_cons]
        · rfl
    | none =>
      rw [hfound] at ih
      have hrest : propertiesNamed name slots = [] := by
        rw [← List.getLast?_eq_none_iff]
        exact Option.map_eq_none_iff.1 ih.symm
      rw [hrest, Option.none_or, List.find?_singleton, identifiers_of_patterns hpatterns]
      by_cases hown : own = name
      · simp [hown, hsettable]
      · have hne : name ≠ own := Ne.symm hown
        simp [hown, hne]

end Slots

/-! ## Lifting definitions -/

theorem not_mem_of_companionKind? {word : String} {kind : AccessorKind}
    (h : companionKind? word = some kind) : '.' ∉ word.toList ∧ word ≠ "cached_property" := by
  have hwords : word = "getter" ∨ word = "setter" ∨ word = "deleter" := by
    unfold companionKind? at h
    by_contra hother
    simp only [not_or] at hother
    rw [if_neg hother.1, if_neg hother.2.1, if_neg hother.2.2] at h
    cases h
  rcases hwords with rfl | rfl | rfl <;> decide

/-- The role of a further accessor depends on whether there is a property that it can belong to. -/
theorem decoratorRole?_attribute {properties : List String} {pos pos' : Position} {owner word : String}
    {kind : AccessorKind} (h : companionKind? word = some kind) :
    decoratorRole? properties (.attribute pos (.name pos' owner) word)
      = if properties.contains owner then some (.companion owner kind) else none := by
  obtain ⟨hdot, hcached⟩ := not_mem_of_companionKind? h
  have hlast := lastComponent_qualified owner hdot
  have hqualifier := qualifier_qualified owner hdot
  have hname : referenceName (.attribute pos (.name pos' owner) word) = some (owner ++ "." ++ word) := rfl
  -- The last component tells the name from those of the other two decorators.
  have hword : word ≠ "property" := by
    rintro rfl
    exact absurd h (by rw [show companionKind? "property" = none from by decide]; simp)
  have hproperty : owner ++ "." ++ word ≠ "property" := by
    intro heq
    rw [heq] at hlast
    exact hword (hlast.symm.trans (by decide))
  have hbuiltin : owner ++ "." ++ word ≠ "builtins.property" := by
    intro heq
    rw [heq] at hlast
    exact hword (hlast.symm.trans (by decide))
  rw [decoratorRole?, hname, Option.bind_some, hlast, hqualifier, h]
  simp [hproperty, hbuiltin, hcached]

/-- What one definition does to the slots. -/
theorem lifts_definition {frozen : Bool} {slots : List Slot} {stmt : Stmt}
    {definition : PropertyDefinition} (h : stmt.propertyDefinition? = some definition)
    (hwritable : stmt.IsWritable) (hslots : AllComputed slots) :
    ∃ next, liftStatement frozen slots stmt = .ok next ∧ AllComputed next
      ∧ ∀ name, propertiesNamed name next = definition.recorded name (propertiesNamed name slots) := by
  unfold Stmt.propertyDefinition? at h
  split at h
  · rename_i line isAsync own params body decorator returns
    obtain ⟨⟨type, htype⟩, -⟩ := hwritable
    rw [liftStatement, liftFunction, ← propertyNames, List.findSome?_singleton]
    unfold decoratedDefinition? at h
    split at h
    · -- A new property.
      rename_i pos id
      split at h
      · rename_i hid
        cases h
        subst hid
        have hrole : decoratorRole? (propertyNames slots) (.name pos "property") = some .getter := rfl
        rw [hrole]
        refine ⟨_, bind_eq_ok_iff.2 ⟨type, htype, rfl⟩, ?_, fun name => ?_⟩
        · exact List.forall_mem_cons.2 ⟨⟨own, [.get], rfl, rfl, rfl, rfl⟩, hslots⟩
        · rw [propertiesNamed_cons, PropertyDefinition.recorded]
          have hget : Slot.accessorSet
              ⟨{ patterns := [.identifier own], accessors := some [.get], type, line }, true⟩
                = getterOnly := by
            funext kind
            cases kind <;> rfl
          rw [hget]
          simp [Slot.property?, Member.displayName, BindingPattern.firstName?]
      · cases h
    · -- A further accessor.
      rename_i pos pos' owner word
      obtain ⟨kind, hkind, rfl⟩ := Option.map_eq_some_iff.1 h
      rw [decoratorRole?_attribute hkind]
      by_cases hcontains : (propertyNames slots).contains owner = true
      · rw [if_pos hcontains]
        by_cases hget : kind = .get
        · dsimp only
          rw [if_pos hget]
          exact ⟨_, bind_eq_ok_iff.2 ⟨type, htype, rfl⟩, hslots.extendProperty,
            fun name => propertiesNamed_extendProperty owner kind type⟩
        · dsimp only
          rw [if_neg hget]
          exact ⟨_, rfl, hslots.extendProperty,
            fun name => propertiesNamed_extendProperty owner kind none⟩
      · rw [if_neg hcontains]
        refine ⟨slots, rfl, hslots, fun name => ?_⟩
        rw [PropertyDefinition.recorded]
        split
        · rename_i heq
          subst heq
          rw [propertiesNamed_eq_nil (by simpa using hcontains)]
          rfl
        · rfl
    · cases h
  · cases h

/-- The properties of each name after a class body of definitions. -/
theorem lifts_definitions {frozen : Bool} {body : List Stmt} {definitions : List PropertyDefinition}
    {slots : List Slot}
    (h : List.Forall₂ (fun stmt definition => stmt.propertyDefinition? = some definition) body definitions)
    (hwritable : ∀ stmt ∈ body, stmt.IsWritable) (hslots : AllComputed slots) :
    ∃ next, body.foldlM (liftStatement frozen) slots = .ok next ∧ AllComputed next
      ∧ ∀ name, propertiesNamed name next
        = definitions.foldl (PropertyDefinition.recorded name) (propertiesNamed name slots) := by
  induction h generalizing slots with
  | nil => exact ⟨slots, rfl, hslots, fun _ => rfl⟩
  | cons hfirst _ ih =>
    obtain ⟨hstmt, hrest⟩ := List.forall_mem_cons.1 hwritable
    obtain ⟨next, hnext, hcomputed, hnamed⟩ := @lifts_definition frozen _ _ _ hfirst hstmt hslots
    obtain ⟨last, hlast, hcomputed', hnamed'⟩ := ih hrest hcomputed
    refine ⟨last, ?_, hcomputed', fun name => ?_⟩
    · rw [List.foldlM_cons]
      exact bind_eq_ok_iff.2 ⟨next, hnext, hlast⟩
    · rw [hnamed', hnamed, List.foldl_cons]

/-! ## Members against bindings -/

section Bindings

variable {name : String} {definitions : List PropertyDefinition} {bindings next : Bindings}
  {properties : List AccessorSet}

/-- No further accessor of the property of a name is defined under another name, and none of another
property under this name. -/
def KeepsName (name : String) (definitions : List PropertyDefinition) : Prop :=
  ∀ owner kind own, .extend owner kind own ∈ definitions → (owner = name ↔ own = name)

/-- One definition keeps a name bound to its latest member. -/
theorem run_eq_head {definition : PropertyDefinition} (h : definition.run bindings = some next)
    (hkeeps : ∀ owner kind own, definition = .extend owner kind own → (owner = name ↔ own = name))
    (hbindings : bindings name = properties.head?) :
    next name = (definition.recorded name properties).head? := by
  cases definition with
  | fresh own =>
    cases h
    rw [PropertyDefinition.recorded, Function.update_apply]
    by_cases hown : own = name
    · rw [if_pos hown, if_pos hown.symm, List.head?_cons]
    · rw [if_neg hown, if_neg (Ne.symm hown), hbindings]
  | extend owner kind own =>
    obtain ⟨property, hproperty, rfl⟩ := Option.map_eq_some_iff.1 h
    have hsame := hkeeps owner kind own rfl
    rw [PropertyDefinition.recorded, Function.update_apply]
    by_cases howner : owner = name
    · subst howner
      rw [if_pos rfl, if_pos (hsame.1 rfl).symm, List.head?_modifyHead, ← hbindings, hproperty]
      rfl
    · rw [if_neg howner, if_neg fun heq => howner (hsame.2 heq.symm), hbindings]

/-- A name is bound to its latest member if no accessor changes its name. -/
theorem runDefinitions_eq_head (h : runDefinitions definitions = some bindings)
    (hkeeps : KeepsName name definitions) :
    bindings name = (definitions.foldl (PropertyDefinition.recorded name) []).head? := by
  have hrun : ∀ {start : Bindings} {properties : List AccessorSet},
      definitions.foldlM PropertyDefinition.run start = some bindings →
      start name = properties.head? →
        bindings name = (definitions.foldl (PropertyDefinition.recorded name) properties).head? := by
    clear h
    induction definitions with
    | nil =>
      intro start properties hrun hstart
      cases hrun
      exact hstart
    | cons definition definitions ih =>
      intro start properties hrun hstart
      rw [List.foldlM_cons] at hrun
      obtain ⟨next, hnext, hrun⟩ := Option.bind_eq_some_iff.1 hrun
      have hfirst : ∀ owner kind own, definition = .extend owner kind own → (owner = name ↔ own = name) :=
        fun owner kind own heq => hkeeps owner kind own (by simp [heq])
      exact ih (fun owner kind own hmem => hkeeps owner kind own (by simp [hmem])) hrun
        (run_eq_head hnext hfirst hstart)
  exact hrun h rfl

/-- The definitions in front of the second new property of a name. -/
def beforeSecond (name : String) : List PropertyDefinition → List PropertyDefinition
  | [] => []
  | definition :: rest =>
    if definition = .fresh name then definition :: rest.takeWhile (· ≠ .fresh name)
    else definition :: beforeSecond name rest

theorem initial_beforeSecond (definitions : List PropertyDefinition) :
    beforeSecond name definitions <+: definitions := by
  induction definitions with
  | nil => exact List.nil_prefix
  | cons definition definitions ih =>
    rw [beforeSecond]
    split
    · exact (List.prefix_cons_inj definition).2 (List.takeWhile_prefix _)
    · exact (List.prefix_cons_inj definition).2 ih

/-- A body with a single new property of a name is kept whole. -/
theorem beforeSecond_eq_self (h : definitions.count (.fresh name) ≤ 1) :
    beforeSecond name definitions = definitions := by
  induction definitions with
  | nil => rfl
  | cons definition definitions ih =>
    rw [beforeSecond]
    split
    · rename_i hfresh
      rw [hfresh, List.count_cons_self] at h
      have hnone : PropertyDefinition.fresh name ∉ definitions :=
        List.count_eq_zero.1 (by omega)
      rw [List.takeWhile_eq_self_iff.2]
      intro other hother
      rw [decide_eq_true_iff]
      rintro rfl
      exact hnone hother
    · rename_i hother
      rw [List.count_cons_of_ne hother] at h
      rw [ih h]

/-- A new definition or accessor changes the latest property only. -/
theorem getLast?_foldl_recorded {first : AccessorSet} (hnil : properties ≠ []) :
    (definitions.foldl (PropertyDefinition.recorded name) (properties ++ [first])).getLast?
      = some first := by
  induction definitions generalizing properties with
  | nil => simp
  | cons definition definitions ih =>
    obtain ⟨latest, others, rfl⟩ := List.exists_cons_of_ne_nil hnil
    rw [List.foldl_cons, PropertyDefinition.recorded.eq_def]
    cases definition with
    | fresh own =>
      dsimp only
      split
      · exact ih (List.cons_ne_nil getterOnly (latest :: others))
      · exact ih hnil
    | extend owner kind own =>
      dsimp only
      split
      · exact ih (List.cons_ne_nil (latest.with kind) others)
      · exact ih hnil

section Others

variable {definition : PropertyDefinition}

/-- Before the first property of a name nothing is recorded. -/
theorem recorded_nil (hother : definition ≠ .fresh name) : definition.recorded name [] = [] := by
  cases definition with
  | fresh own =>
    rw [PropertyDefinition.recorded, if_neg]
    rintro rfl
    exact hother rfl
  | extend owner kind own =>
    rw [PropertyDefinition.recorded]
    split <;> rfl

/-- Before the second property of a name only the first one changes. -/
theorem recorded_singleton (hother : definition ≠ .fresh name) (first : AccessorSet) :
    ∃ first', definition.recorded name [first] = [first'] := by
  cases definition with
  | fresh own =>
    rw [PropertyDefinition.recorded, if_neg]
    · exact ⟨first, rfl⟩
    · rintro rfl
      exact hother rfl
  | extend owner kind own =>
    rw [PropertyDefinition.recorded]
    split
    · exact ⟨first.with kind, rfl⟩
    · exact ⟨first, rfl⟩

end Others

/-- The first property of a name stays as it is from the second one on. -/
theorem getLast?_recorded_first (definitions : List PropertyDefinition) (first : AccessorSet) :
    (definitions.foldl (PropertyDefinition.recorded name) [first]).getLast?
      = ((definitions.takeWhile (· ≠ .fresh name)).foldl
          (PropertyDefinition.recorded name) [first]).head? := by
  induction definitions generalizing first with
  | nil => rfl
  | cons definition definitions ih =>
    by_cases hfresh : definition = .fresh name
    · subst hfresh
      rw [List.takeWhile_cons_of_neg (by simp), List.foldl_cons, PropertyDefinition.recorded, if_pos rfl]
      exact getLast?_foldl_recorded (List.cons_ne_nil getterOnly [])
    · obtain ⟨first', hfirst⟩ := recorded_singleton hfresh first
      rw [List.takeWhile_cons_of_pos (by simpa using hfresh), List.foldl_cons, List.foldl_cons, hfirst]
      exact ih first'

/-- The earliest property of a name is what the definitions in front of the second one leave. -/
theorem getLast?_recorded_eq (definitions : List PropertyDefinition) :
    (definitions.foldl (PropertyDefinition.recorded name) []).getLast?
      = ((beforeSecond name definitions).foldl (PropertyDefinition.recorded name) []).head? := by
  induction definitions with
  | nil => rfl
  | cons definition definitions ih =>
    rw [beforeSecond]
    split
    · rename_i hfresh
      rw [hfresh, List.foldl_cons, List.foldl_cons, PropertyDefinition.recorded, if_pos rfl]
      exact getLast?_recorded_first definitions getterOnly
    · rename_i hother
      rw [List.foldl_cons, List.foldl_cons, recorded_nil hother]
      exact ih

end Bindings

/-- Let a class body consist of functions, each defining a property by a single decorator, let it run, and
let a name be bound at its end without an accessor that changes its name to or from it. Then a member is
found under the name, and it can be set if and only if running the definitions in front of the second new
property of the name binds the name to a property with a setter. With a single new property of the name
these are all definitions. -/
theorem settable_as_run {frozen : Bool} {body : List Stmt} {definitions : List PropertyDefinition}
    {bindings : Bindings} {name : String}
    (h : List.Forall₂ (fun stmt definition => stmt.propertyDefinition? = some definition) body definitions)
    (hwritable : ∀ stmt ∈ body, stmt.IsWritable)
    (hrun : runDefinitions definitions = some bindings) (hbound : (bindings name).isSome)
    (hkeeps : KeepsName name definitions) :
    ∃ members member earlier, liftMembers frozen body = .ok members
      ∧ findMember members name = some member
      ∧ runDefinitions (beforeSecond name definitions) = some earlier
      ∧ (member.isSettable = true ↔ ∃ property, earlier name = some property ∧ property .set = true)
      ∧ (definitions.count (.fresh name) ≤ 1 → earlier = bindings) := by
  -- The members that are lifted.
  obtain ⟨slots, hslots, hcomputed, hnamed⟩ :=
    @lifts_definitions frozen _ _ [] h hwritable (by simp [AllComputed])
  specialize hnamed name
  have hcreated : ∃ created, body.mapM initializerMembers = .ok created := by
    refine mapM_eq_ok_of_forall fun stmt hstmt => ?_
    have hstmt := hwritable stmt hstmt
    cases stmt with
    | function => exact hstmt.2
    | _ => exact ⟨[], rfl⟩
  obtain ⟨created, hcreated⟩ := hcreated
  have hlift : liftMembers frozen body = .ok (slots.reverse.map Slot.member
      ++ undeclared ((slots.reverse.map Slot.member).flatMap Member.identifiers) created.flatten) := by
    refine bind_eq_ok_iff.2 ⟨_, bind_eq_ok_iff.2 ⟨slots, hslots, rfl⟩, ?_⟩
    exact bind_eq_ok_iff.2 ⟨created, hcreated, rfl⟩
  -- What the definitions in front of the second new property bind.
  obtain ⟨later, hlater⟩ := @initial_beforeSecond name definitions
  have hsplit := hrun
  rw [← hlater, runDefinitions, List.foldlM_append] at hsplit
  obtain ⟨earlier, hearlier, -⟩ := Option.bind_eq_some_iff.1 hsplit
  rw [← runDefinitions] at hearlier
  have hkeeps' : KeepsName name (beforeSecond name definitions) :=
    fun owner kind own hmem => hkeeps owner kind own ((initial_beforeSecond definitions).subset hmem)
  have hfirst := runDefinitions_eq_head hearlier hkeeps'
  rw [← getLast?_recorded_eq] at hfirst
  have hfound := @findMember_of_allComputed name slots hcomputed
  rw [hnamed, propertiesNamed, List.filterMap_nil, ← hfirst] at hfound
  -- Something is bound to the name at the end, so something is found.
  have hlast := runDefinitions_eq_head hrun hkeeps
  obtain ⟨property, hproperty⟩ : ∃ property, earlier name = some property := by
    rw [hlast, List.isSome_head?] at hbound
    rw [hfirst]
    exact Option.isSome_iff_exists.1 (List.getLast?_isSome.2 hbound)
  rw [hproperty, Option.map_some] at hfound
  obtain ⟨member, hmember, hsettable⟩ := Option.map_eq_some_iff.1 hfound
  refine ⟨_, member, earlier, hlift, ?_, hearlier, ?_, fun hone => ?_⟩
  · rw [findMember_append_undeclared (patterns_of_mapM_initializerMembers hcreated), hmember,
      Option.some_or]
  · rw [hsettable, hproperty]
    simp
  · rw [← beforeSecond_eq_self hone, hearlier] at hrun
    exact Option.some.inj hrun

/-- A class body with a property and its setter. -/
def settableBody : List Stmt :=
  [.function 3 false "a" (.mk [] [.mk "self" none none] none [] none) [.pass 4]
      [.name ⟨2, 5⟩ "property"] none,
    .function 6 false "a" (.mk [] [.mk "self" none none, .mk "v" none none] none [] none) [.pass 7]
      [.attribute ⟨5, 5⟩ (.name ⟨5, 5⟩ "a") "setter"] none]

theorem settable_as_run_settableBody :
    ∃ members member, liftMembers false settableBody = .ok members
      ∧ findMember members "a" = some member ∧ member.isSettable = true := by
  have hwritable : ∀ stmt ∈ settableBody, stmt.IsWritable :=
    List.forall_mem_cons.2 ⟨⟨⟨_, rfl⟩, ⟨_, rfl⟩⟩, List.forall_mem_singleton.2 ⟨⟨_, rfl⟩, ⟨_, rfl⟩⟩⟩
  have hkeeps : KeepsName "a" [.fresh "a", .extend "a" .set "a"] := by
    intro owner kind own hmem
    simp only [List.mem_cons, reduceCtorEq, PropertyDefinition.extend.injEq, List.not_mem_nil,
      or_false, false_or] at hmem
    rw [hmem.1, hmem.2.2]
  obtain ⟨members, member, earlier, hlift, hfound, -, hsettable, hall⟩ :=
    @settable_as_run false settableBody _ _ "a" (.cons rfl (.cons rfl .nil)) hwritable rfl rfl hkeeps
  refine ⟨members, member, hlift, hfound, hsettable.2 ?_⟩
  rw [hall (by decide)]
  exact ⟨_, rfl, rfl⟩

/-! ## Instances -/

/-- Whether the member of a name that is lifted from the class that a source starts with can be set, if
one is found, and whether the property that its body binds to the name has a setter, if there is one. -/
def foundAndBound? (source name : String) : Option (Option Bool × Option Bool) := do
  match ← (parseModule source).toOption with
  | .classDef _ _ _ _ body _ :: _ =>
    let members ← (liftMembers false body).toOption
    let bindings ← runDefinitions (← body.mapM Stmt.propertyDefinition?)
    return ((findMember members name).map Member.isSettable, (bindings name).map (· .set))
  | _ => none

/-- A class that defines a property anew after it got a setter. -/
def redefinedSource : String :=
  "class W:\n    @property\n    def a(self):\n        pass\n    @a.setter\n" ++
  "    def a(self, v):\n        pass\n    @property\n    def a(self):\n        pass\n"

/-- A class that binds a property with a setter to another name. -/
def renamedSource : String :=
  "class W:\n    @property\n    def a(self):\n        pass\n    @a.setter\n" ++
  "    def b(self, v):\n        pass\n"

/-- A class body with a property whose annotation has more digits than can be written. -/
def unwritableBody : List Stmt :=
  [.function 3 false "a" (.mk [] [.mk "self" none none] none [] none) [.pass 4]
    [.name ⟨2, 5⟩ "property"] (some (.constant ⟨3, 20⟩ (.int (10 ^ 4300))))]

/-- The first of two properties counts, a setter belongs to the name in its decorator, and nothing is
lifted from a body with an annotation that cannot be written. -/
theorem found_not_as_bound :
    foundAndBound? redefinedSource "a" = some (some true, some false)
      ∧ foundAndBound? renamedSource "a" = some (some true, some false)
      ∧ foundAndBound? renamedSource "b" = some (none, some true)
      ∧ unwritableBody.mapM Stmt.propertyDefinition? = some [.fresh "a"]
      ∧ (liftMembers false unwritableBody).toOption.isNone := by
  simp only [foundAndBound?, Direct.parseModule_eq]
  decide +kernel

end PropertyWrapper
