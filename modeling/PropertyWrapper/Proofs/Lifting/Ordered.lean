import PropertyWrapper.Proofs.Lifting.Values

/-!
# The order of the members of a class

The members of a class body come in two groups. First stand those that the body declares, one for each
declaring statement and in their order; a computed property keeps its place while later functions give it
further accessors. Behind them stand those that initializers create, one for each name that the body does not
declare.

* `furtherAccessors` : the accessors that a body adds to properties before it;
* `DeclaresMembers` : the members that a body declares, statement by statement;
* `Grows` : slots that get further accessors;
* `declares_of_foldlM` : what a body does to the slots before it;
* `FirstOccurrences` : the created members that are kept;
* `error_of_liftMembers` : the members of a body are missing only if a text is;
* `members_ordered` : the members of a class body.
-/

namespace PropertyWrapper

open Source

/-! ## Declaring statements -/

/-- The role that the first recognised decorator gives to a function behind properties of some names. -/
def roleAmong? (properties : List String) (decorators : List Expr) : Option FunctionRole :=
  decorators.findSome? (decoratorRole? properties)

/-- Whether a statement behind properties of some names declares a member: an assignment, or a function whose
first recognised decorator makes it a computed property or a cached value. -/
def Source.Stmt.isDeclaring (properties : List String) : Stmt → Bool
  | .annAssign .. | .assign .. => true
  | .function _ _ _ _ _ decorators _ =>
    roleAmong? properties decorators = some .getter || roleAmong? properties decorators = some .cached
  | _ => false

/-- The accessors that a body adds to properties of some names that stand before it. A new property takes all
further accessors of its name. -/
def furtherAccessors (properties : List String) : List Stmt → List (String × AccessorKind)
  | [] => []
  | .function _ _ name _ _ decorators _ :: rest =>
    match roleAmong? properties decorators with
    | some .getter => (furtherAccessors (name :: properties) rest).filter (·.1 ≠ name)
    | some (.companion owner kind) => (owner, kind) :: furtherAccessors properties rest
    | _ => furtherAccessors properties rest
  | _ :: rest => furtherAccessors properties rest

/-- The member of a computed property. -/
def computedMember (name : String) (line : Nat) (accessors : List AccessorKind) (type : Option String) :
    Member where
  patterns := [.identifier name]
  accessors := some accessors
  type
  line

/-- The members that a body declares behind properties of some names: one for each declaring statement, in
source order. A computed property has a getter and each further accessor that the rest of the body adds to it,
once. -/
inductive DeclaresMembers (frozen : Bool) : List String → List Stmt → List Member → Prop where
  | nil (properties : List String) : DeclaresMembers frozen properties [] []
  | annotated {properties : List String} {line : Nat} {target hint : Expr} {value : Option Expr}
      {bare : Bool} {member : Member} {rest : List Stmt} {members : List Member}
      (h : liftAnnotated frozen line target hint value = .ok member)
      (hrest : DeclaresMembers frozen properties rest members) :
      DeclaresMembers frozen properties (.annAssign line target hint value bare :: rest) (member :: members)
  | assigned {properties : List String} {line : Nat} {targets : List Expr} {value : Expr} {member : Member}
      {rest : List Stmt} {members : List Member} (h : liftAssigned line targets value = .ok member)
      (hrest : DeclaresMembers frozen properties rest members) :
      DeclaresMembers frozen properties (.assign line targets value :: rest) (member :: members)
  | computed {properties : List String} {line : Nat} {isAsync : Bool} {name : String} {params : Parameters}
      {body : List Stmt} {decorators : List Expr} {returns : Option Expr} {rest : List Stmt}
      {members : List Member} {accessors : List AccessorKind} {type : Option String}
      (hrole : roleAmong? properties decorators = some .getter) (hnodup : accessors.Nodup)
      (hmem : ∀ kind, kind ∈ accessors
        ↔ kind = .get ∨ (name, kind) ∈ furtherAccessors (name :: properties) rest)
      (hrest : DeclaresMembers frozen (name :: properties) rest members) :
      DeclaresMembers frozen properties (.function line isAsync name params body decorators returns :: rest)
        (computedMember name line accessors type :: members)
  | cached {properties : List String} {line : Nat} {isAsync : Bool} {name : String} {params : Parameters}
      {body : List Stmt} {decorators : List Expr} {returns : Option Expr} {rest : List Stmt}
      {members : List Member} {type : Option String}
      (hrole : roleAmong? properties decorators = some .cached)
      (htype : returns.mapM Expr.text = .ok type) (hrest : DeclaresMembers frozen properties rest members) :
      DeclaresMembers frozen properties (.function line isAsync name params body decorators returns :: rest)
        ({ patterns := [.identifier name], type, line } :: members)
  | other {properties : List String} {stmt : Stmt} {rest : List Stmt} {members : List Member}
      (h : stmt.isDeclaring properties = false) (hrest : DeclaresMembers frozen properties rest members) :
      DeclaresMembers frozen properties (stmt :: rest) members

/-! ## Slots that get further accessors -/

/-- Slots after accessors were added, each to the latest property of its name. -/
inductive Grows : List (String × AccessorKind) → List Slot → List Slot → Prop where
  | nil (slots : List Slot) : Grows [] slots slots
  | cons {owner : String} {kind : AccessorKind} {type : Option String}
      {added : List (String × AccessorKind)} {slots last : List Slot}
      (h : Grows added (extendProperty owner kind type slots) last) :
      Grows ((owner, kind) :: added) slots last

/-- The slot of a computed property. -/
def computedSlot (name : String) (line : Nat) (accessors : List AccessorKind) (type : Option String) : Slot :=
  ⟨computedMember name line accessors type, true⟩

namespace Grows

variable {added : List (String × AccessorKind)} {slots last : List Slot}

/-- No slots stay no slots. -/
theorem eq_nil (h : Grows added [] last) : last = [] := by
  generalize hslots : ([] : List Slot) = slots at h
  induction h with
  | nil =>
    subst hslots
    rfl
  | cons _ ih =>
    subst hslots
    exact ih rfl

/-- The latest slot stays as it is if it is no property. -/
theorem of_plain {slot : Slot} (hslot : slot.property? = none) (h : Grows added (slot :: slots) last) :
    ∃ rest, last = slot :: rest ∧ Grows added slots rest := by
  generalize hall : slot :: slots = all at h
  induction h generalizing slots with
  | nil =>
    subst hall
    exact ⟨slots, rfl, .nil slots⟩
  | cons h ih =>
    subst hall
    rw [extendProperty, hslot, if_neg (by simp)] at ih
    obtain ⟨rest, hlast, hrest⟩ := ih rfl
    exact ⟨rest, hlast, .cons hrest⟩

/-- The latest slot gets all accessors of its name if it is a property, and the slots before it get the
others. -/
theorem of_computed {name : String} {line : Nat} {accessors : List AccessorKind} {type : Option String}
    (hnodup : accessors.Nodup) (h : Grows added (computedSlot name line accessors type :: slots) last) :
    ∃ accessors' type' rest, last = computedSlot name line accessors' type' :: rest ∧ accessors'.Nodup
      ∧ (∀ kind, kind ∈ accessors' ↔ kind ∈ accessors ∨ (name, kind) ∈ added)
      ∧ Grows (added.filter (·.1 ≠ name)) slots rest := by
  -- The slot is latest, so it takes every accessor of its name before a slot behind it can.
  generalize hall : computedSlot name line accessors type :: slots = all at h
  induction h generalizing accessors type slots with
  | nil =>
    subst hall
    exact ⟨accessors, type, slots, rfl, hnodup, by simp, .nil slots⟩
  | @cons owner kind type₀ added _ last h ih =>
    subst hall
    have hproperty : (computedSlot name line accessors type).property? = some name := rfl
    rw [extendProperty, hproperty] at ih
    by_cases howner : name = owner
    · subst howner
      rw [if_pos rfl] at ih
      have hnodup' : (if accessors.contains kind then accessors else accessors ++ [kind]).Nodup := by
        split
        · exact hnodup
        · rename_i hcontains
          rw [List.nodup_append]
          refine ⟨hnodup, by simp, fun a ha b hb => ?_⟩
          rintro rfl
          rw [List.mem_singleton.1 hb] at ha
          exact hcontains (by simpa using ha)
      obtain ⟨accessors', type', rest, hlast, hnodup', hmem, hrest⟩ := ih hnodup' rfl
      refine ⟨accessors', type', rest, hlast, hnodup', fun other => ?_, ?_⟩
      · rw [hmem, List.mem_cons]
        by_cases hother : other = kind
        · subst hother
          split
          · rename_i hcontains
            simp only [List.contains_eq_mem, decide_eq_true_eq] at hcontains
            simp [hcontains]
          · simp
        · split <;> simp [hother]
      · rw [List.filter_cons_of_neg (by simp)]
        exact hrest
    · rw [if_neg (by simpa using howner)] at ih
      obtain ⟨accessors', type', rest, hlast, hnodup', hmem, hrest⟩ := ih hnodup rfl
      refine ⟨accessors', type', rest, hlast, hnodup', fun other => ?_, ?_⟩
      · rw [hmem, List.mem_cons, Prod.mk.injEq]
        simp [howner]
      · rw [List.filter_cons_of_pos (by simpa using Ne.symm howner)]
        exact .cons hrest

end Grows

/-! ## Class bodies -/

section Body

variable {frozen : Bool} {slots : List Slot}

/-- What a function does to the slots before it, by its role. -/
theorem liftFunction_by_role {line : Nat} {name : String} {decorators : List Expr} {returns : Option Expr}
    {next : List Slot} (h : liftFunction slots line name decorators returns = .ok next) :
    match roleAmong? (propertyNames slots) decorators with
    | none => next = slots
    | some .getter => ∃ type, next = computedSlot name line [.get] type :: slots
    | some .cached => ∃ type, returns.mapM Expr.text = .ok type
      ∧ next = ⟨{ patterns := [.identifier name], type, line }, false⟩ :: slots
    | some (.companion owner kind) => ∃ type, next = extendProperty owner kind type slots := by
  rw [liftFunction, ← propertyNames, ← roleAmong?] at h
  cases hrole : roleAmong? (propertyNames slots) decorators with
  | none =>
    rw [hrole] at h
    cases h
    rfl
  | some role =>
    rw [hrole] at h
    cases role with
    | getter =>
      obtain ⟨type, -, h⟩ := bind_eq_ok_iff.1 h
      cases h
      exact ⟨type, rfl⟩
    | cached =>
      obtain ⟨type, htype, h⟩ := bind_eq_ok_iff.1 h
      cases h
      exact ⟨type, htype, rfl⟩
    | companion owner kind =>
      dsimp only at h
      split at h
      · obtain ⟨type, -, h⟩ := bind_eq_ok_iff.1 h
        cases h
        exact ⟨type, rfl⟩
      · cases h
        exact ⟨none, rfl⟩

/-- The slots after a body are those before it, with further accessors, and behind them one slot for each
member that the body declares. -/
theorem declares_of_foldlM {body : List Stmt} {last : List Slot}
    (h : body.foldlM (liftStatement frozen) slots = .ok last) :
    ∃ fresh earlier, last = fresh ++ earlier
      ∧ DeclaresMembers frozen (propertyNames slots) body (fresh.reverse.map Slot.member)
      ∧ Grows (furtherAccessors (propertyNames slots) body) slots earlier := by
  -- A slot can still change after its statement, so the claim also says how the slots before the body grow;
  -- each statement takes its own slot out of those that grow behind it.
  induction body generalizing slots with
  | nil =>
    cases h
    exact ⟨[], _, rfl, .nil _, .nil _⟩
  | cons stmt rest ih =>
    rw [List.foldlM_cons] at h
    obtain ⟨next, hnext, h⟩ := bind_eq_ok_iff.1 h
    obtain ⟨fresh, earlier, rfl, hdeclares, hgrows⟩ := ih h
    have hpush : ∀ slot behind, fresh ++ slot :: behind = (fresh ++ [slot]) ++ behind := by simp
    have hmembers : ∀ slot : Slot, (fresh ++ [slot]).reverse.map Slot.member
        = slot.member :: fresh.reverse.map Slot.member := by simp
    cases stmt with
    | annAssign line target hint value bare =>
      obtain ⟨member, hmember, hnext⟩ := bind_eq_ok_iff.1 hnext
      cases hnext
      obtain ⟨behind, rfl, hbehind⟩ := hgrows.of_plain rfl
      refine ⟨fresh ++ [⟨member, false⟩], behind, hpush _ _, ?_, hbehind⟩
      rw [hmembers]
      exact .annotated hmember hdeclares
    | assign line targets value =>
      obtain ⟨member, hmember, hnext⟩ := bind_eq_ok_iff.1 hnext
      cases hnext
      obtain ⟨behind, rfl, hbehind⟩ := hgrows.of_plain rfl
      refine ⟨fresh ++ [⟨member, false⟩], behind, hpush _ _, ?_, hbehind⟩
      rw [hmembers]
      exact .assigned hmember hdeclares
    | function line isAsync name params body decorators returns =>
      have hstep := liftFunction_by_role hnext
      cases hrole : roleAmong? (propertyNames slots) decorators with
      | none =>
        rw [hrole] at hstep
        dsimp only at hstep
        subst hstep
        refine ⟨fresh, earlier, rfl, .other ?_ hdeclares, ?_⟩
        · simp [Stmt.isDeclaring, hrole]
        · rwa [furtherAccessors, hrole]
      | some role =>
        rw [hrole] at hstep
        cases role with
        | getter =>
          obtain ⟨type, rfl⟩ := hstep
          obtain ⟨accessors, type', behind, rfl, hnodup, hmem, hbehind⟩ := hgrows.of_computed (by simp)
          refine ⟨fresh ++ [computedSlot name line accessors type'], behind, hpush _ _, ?_, ?_⟩
          · rw [hmembers]
            refine .computed hrole hnodup (fun kind => ?_) hdeclares
            rw [hmem, List.mem_singleton]
            rfl
          · rw [furtherAccessors, hrole]
            exact hbehind
        | cached =>
          obtain ⟨type, htype, rfl⟩ := hstep
          obtain ⟨behind, rfl, hbehind⟩ := hgrows.of_plain rfl
          refine ⟨fresh ++ [_], behind, hpush _ _, ?_, ?_⟩
          · rw [hmembers]
            exact .cached hrole htype hdeclares
          · rw [furtherAccessors, hrole]
            exact hbehind
        | companion owner kind =>
          obtain ⟨type, rfl⟩ := hstep
          rw [propertyNames_extendProperty] at hdeclares hgrows
          refine ⟨fresh, earlier, rfl, .other ?_ hdeclares, ?_⟩
          · simp [Stmt.isDeclaring, hrole]
          · rw [furtherAccessors, hrole]
            exact .cons hgrows
    | _ =>
      cases hnext
      exact ⟨fresh, earlier, rfl, .other rfl hdeclares, hgrows⟩

/-- The members of a class body are those that it declares and those of its initializers. -/
theorem declares_of_liftMembers {body : List Stmt} {members : List Member}
    (h : liftMembers frozen body = .ok members) :
    ∃ declared created, DeclaresMembers frozen [] body declared ∧ createdMembers body = .ok created
      ∧ members = declared ++ undeclared (declared.flatMap Member.identifiers) created := by
  rw [liftMembers_eq_bind] at h
  obtain ⟨slots, hslots, h⟩ := bind_eq_ok_iff.1 h
  obtain ⟨created, hcreated, h⟩ := bind_eq_ok_iff.1 h
  cases h
  obtain ⟨fresh, earlier, rfl, hdeclares, hgrows⟩ := declares_of_foldlM hslots
  obtain rfl := hgrows.eq_nil
  rw [List.append_nil]
  exact ⟨_, created, hdeclares, hcreated, rfl⟩

end Body

/-! ## Created members -/

/-- Of some created members those are kept whose names are not declared: for each such name the first member,
in the order in which they were created. -/
structure FirstOccurrences (declared : List String) (created kept : List Member) : Prop where
  sublist : kept.Sublist created
  filter : ∀ name, kept.filter (·.displayName = name)
    = if name ∈ declared then [] else (created.find? (·.displayName = name)).toList

theorem firstOccurrences_undeclared (declared : List String) (created : List Member) :
    FirstOccurrences declared created (undeclared declared created) := by
  -- The induction is over all lists of declared names, since each kept member adds its own.
  induction created generalizing declared with
  | nil => exact ⟨.refl [], by simp [undeclared]⟩
  | cons member rest ih =>
    rw [undeclared]
    split
    · rename_i hcontains
      have hdeclared : member.displayName ∈ declared := by simpa using hcontains
      refine ⟨(ih declared).sublist.cons member, fun name => ?_⟩
      rw [(ih declared).filter]
      split
      · rfl
      · rename_i hname
        have hne : member.displayName ≠ name := fun heq => hname (heq ▸ hdeclared)
        rw [List.find?_cons_of_neg (by simpa using hne)]
    · rename_i hcontains
      have hundeclared : member.displayName ∉ declared := by simpa using hcontains
      refine ⟨(ih _).sublist.cons_cons member, fun name => ?_⟩
      by_cases hname : member.displayName = name
      · -- The name counts as declared for the members behind.
        subst hname
        rw [List.filter_cons_of_pos (by simp), (ih _).filter, if_pos List.mem_cons_self,
          if_neg hundeclared, List.find?_cons_of_pos (by simp)]
        rfl
      · rw [List.filter_cons_of_neg (by simpa using hname), (ih _).filter,
          List.find?_cons_of_neg (by simpa using hname)]
        simp [Ne.symm hname]

namespace FirstOccurrences

variable {declared : List String} {created kept : List Member}

/-- No kept member has a declared name. -/
theorem displayName_not_mem (h : FirstOccurrences declared created kept) :
    ∀ member ∈ kept, member.displayName ∉ declared := by
  intro member hmember hdeclared
  have hfilter := h.filter member.displayName
  rw [if_pos hdeclared, List.filter_eq_nil_iff] at hfilter
  exact hfilter member hmember (by simp)

/-- No two kept members have one name. -/
theorem nodup (h : FirstOccurrences declared created kept) : (kept.map Member.displayName).Nodup := by
  rw [List.nodup_iff_count_le_one]
  intro name
  have hcount : (kept.map Member.displayName).count name
      = (kept.filter (·.displayName = name)).length := by
    rw [List.count_eq_length_filter, List.filter_map, List.length_map]
    congr 2
  rw [hcount, h.filter]
  split
  · simp
  · cases created.find? (·.displayName = name) <;> simp

end FirstOccurrences

/-- A name that the first of two lists of members binds is looked up in it. -/
theorem findMember_append_of_mem {declared other : List Member} {name : String}
    (h : name ∈ declared.flatMap Member.identifiers) :
    ∃ member, findMember declared name = some member
      ∧ findMember (declared ++ other) name = some member := by
  obtain ⟨binding, hbinding, hname⟩ := List.mem_flatMap.1 h
  have hfound : (findMember declared name).isSome = true := by
    rw [findMember, List.find?_isSome]
    exact ⟨binding, hbinding, List.contains_iff_mem.2 hname⟩
  obtain ⟨member, hmember⟩ := Option.isSome_iff_exists.1 hfound
  refine ⟨member, hmember, ?_⟩
  rw [findMember, List.find?_append, ← findMember, hmember, Option.some_or]

/-! ## Texts -/

/-- The expressions in an assignment whose texts its members can need. -/
def Source.Stmt.assignedExprs : Stmt → List Expr
  | .annAssign _ target hint value _ =>
    target :: hint :: (finalType? hint).join.toList ++ value.toList
  | .assign _ targets value => targets ++ [value]
  | _ => []

/-- The expressions in a statement of a class body whose texts the members of the class can need. -/
def Source.Stmt.memberExprs : Stmt → List Expr
  | .function _ _ name _ body _ returns =>
    returns.toList ++ if name = "__init__" then (flattenedBlock body).flatMap Stmt.assignedExprs else []
  | stmt => stmt.assignedExprs

section Failure

variable {problem : PrintError}

theorem error_of_optionText {value : Option Expr} (h : value.mapM Expr.text = .error problem) :
    ∃ e ∈ value.toList, e.text = .error problem := by
  cases value with
  | none => cases h
  | some e =>
    rw [Option.mapM_some] at h
    exact ⟨e, by simp, map_eq_error_iff.1 h⟩

theorem error_of_unwrapFinal {hint : Expr} (h : unwrapFinal hint = .error problem) :
    ∃ e ∈ hint :: (finalType? hint).join.toList, e.text = .error problem := by
  unfold unwrapFinal at h
  split at h
  · rename_i type hfinal
    obtain ⟨e, he, herror⟩ := error_of_optionText (map_eq_error_iff.1 h)
    refine ⟨e, List.mem_cons_of_mem hint ?_, herror⟩
    rwa [hfinal, Option.join_some]
  · exact ⟨hint, List.mem_cons_self, map_eq_error_iff.1 h⟩

theorem error_of_liftPattern {target : Expr} (h : liftPattern target = .error problem) :
    target.text = .error problem := by
  unfold liftPattern at h
  split at h
  · cases h
  · exact map_eq_error_iff.1 h
  · exact map_eq_error_iff.1 h

theorem error_of_liftAnnotated {frozen : Bool} {line : Nat} {target hint : Expr} {value : Option Expr}
    (bare : Bool) (h : liftAnnotated frozen line target hint value = .error problem) :
    ∃ e ∈ (Stmt.annAssign line target hint value bare).assignedExprs, e.text = .error problem := by
  simp only [Stmt.assignedExprs, List.mem_append, List.mem_cons, or_and_right, exists_or, exists_eq_left]
  rw [liftAnnotated] at h
  rcases bind_eq_error_iff.1 h with hunwrap | ⟨⟨isFinal, type⟩, -, h⟩
  · obtain ⟨e, he, herror⟩ := error_of_unwrapFinal hunwrap
    rcases List.mem_cons.1 he with rfl | he
    · exact .inl (.inr (.inl herror))
    · exact .inl (.inr (.inr ⟨e, he, herror⟩))
  rcases bind_eq_error_iff.1 h with hpattern | ⟨pattern, -, h⟩
  · exact .inl (.inl (error_of_liftPattern hpattern))
  rcases bind_eq_error_iff.1 h with hvalue | ⟨initializer, -, ⟨⟩⟩
  exact .inr (error_of_optionText hvalue)

theorem error_of_liftAssigned {line : Nat} {targets : List Expr} {value : Expr}
    (h : liftAssigned line targets value = .error problem) :
    ∃ e ∈ (Stmt.assign line targets value).assignedExprs, e.text = .error problem := by
  rw [liftAssigned] at h
  rcases bind_eq_error_iff.1 h with hpatterns | ⟨patterns, -, h⟩
  · obtain ⟨target, htarget, herror⟩ := exists_of_mapM_eq_error hpatterns
    exact ⟨target, List.mem_append_left [value] htarget, error_of_liftPattern herror⟩
  · split at h
    · cases h
    · rcases bind_eq_error_iff.1 h with hvalue | ⟨text, -, ⟨⟩⟩
      exact ⟨value, by simp [Stmt.assignedExprs], hvalue⟩

theorem error_of_liftFunction {slots : List Slot} {line : Nat} {name : String} {decorators : List Expr}
    {returns : Option Expr} (h : liftFunction slots line name decorators returns = .error problem) :
    ∃ e ∈ returns.toList, e.text = .error problem := by
  -- The return type is the only text that a function can need, whatever its role.
  cases hreturns : returns.mapM Expr.text with
  | error problem' =>
    have hproblem : problem' = problem := by
      rw [liftFunction, hreturns] at h
      dsimp only at h
      split at h
      · cases h
      · cases h
        rfl
      · cases h
        rfl
      · split at h
        · cases h
          rfl
        · cases h
    exact hproblem ▸ error_of_optionText hreturns
  | ok type =>
    obtain ⟨next, hnext⟩ := exists_liftFunction slots line name decorators hreturns
    rw [hnext] at h
    cases h

theorem error_of_liftStatement {frozen : Bool} {slots : List Slot} {stmt : Stmt}
    (h : liftStatement frozen slots stmt = .error problem) :
    ∃ e ∈ stmt.memberExprs, e.text = .error problem := by
  cases stmt with
  | annAssign line target hint value bare =>
    rcases bind_eq_error_iff.1 h with hmember | ⟨member, -, ⟨⟩⟩
    exact error_of_liftAnnotated bare hmember
  | assign line targets value =>
    rcases bind_eq_error_iff.1 h with hmember | ⟨member, -, ⟨⟩⟩
    exact error_of_liftAssigned hmember
  | function line isAsync name params body decorators returns =>
    obtain ⟨e, he, herror⟩ := error_of_liftFunction h
    exact ⟨e, List.mem_append_left _ he, herror⟩
  | _ => cases h

theorem error_of_receiverMembers {receiver : String} {stmt : Stmt}
    (h : receiverMembers receiver stmt = .error problem) :
    ∃ e ∈ stmt.assignedExprs, e.text = .error problem := by
  unfold receiverMembers at h
  split at h
  · split at h
    · cases h
    · rcases bind_eq_error_iff.1 h with hunwrap | ⟨⟨isFinal, type⟩, -, h⟩
      · obtain ⟨e, he, herror⟩ := error_of_unwrapFinal hunwrap
        exact ⟨e, List.mem_append_left _ (List.mem_cons_of_mem _ he), herror⟩
      · rcases bind_eq_error_iff.1 h with hvalue | ⟨initializer, -, ⟨⟩⟩
        obtain ⟨e, he, herror⟩ := error_of_optionText hvalue
        exact ⟨e, List.mem_append_right _ he, herror⟩
  · rename_i line targets value
    obtain ⟨name, -, h⟩ := exists_of_mapM_eq_error h
    rcases bind_eq_error_iff.1 h with hvalue | ⟨text, -, ⟨⟩⟩
    exact ⟨value, by simp [Stmt.assignedExprs], hvalue⟩
  · cases h

theorem error_of_initializerMembers {stmt : Stmt} (h : initializerMembers stmt = .error problem) :
    ∃ e ∈ stmt.memberExprs, e.text = .error problem := by
  unfold initializerMembers at h
  split at h
  · rename_i line isAsync name params body decorators returns
    split at h
    · rename_i hname
      unfold liftInstanceMembers at h
      split at h
      · cases h
      · obtain ⟨stmt, hstmt, herror⟩ := exists_of_mapM_eq_error (map_eq_error_iff.1 h)
        obtain ⟨e, he, herror⟩ := error_of_receiverMembers herror
        refine ⟨e, List.mem_append_right _ ?_, herror⟩
        rw [if_pos hname]
        exact List.mem_flatMap.2 ⟨stmt, hstmt, he⟩
    · cases h
  · cases h

/-- The members of a class body are missing only if an expression in it has no text. -/
theorem error_of_liftMembers {frozen : Bool} {body : List Stmt}
    (h : liftMembers frozen body = .error problem) :
    ∃ e ∈ body.flatMap Stmt.memberExprs, e.text = .error problem := by
  have hstmt : ∃ stmt ∈ body, ∃ e ∈ stmt.memberExprs, e.text = .error problem := by
    rw [liftMembers_eq_bind] at h
    rcases bind_eq_error_iff.1 h with hslots | ⟨slots, -, h⟩
    · obtain ⟨stmt, hstmt, slots, herror⟩ := exists_of_foldlM_eq_error hslots
      exact ⟨stmt, hstmt, error_of_liftStatement herror⟩
    · rcases bind_eq_error_iff.1 h with hcreated | ⟨created, -, ⟨⟩⟩
      obtain ⟨stmt, hstmt, herror⟩ := exists_of_mapM_eq_error (map_eq_error_iff.1 hcreated)
      exact ⟨stmt, hstmt, error_of_initializerMembers herror⟩
  obtain ⟨stmt, hstmt, e, he, herror⟩ := hstmt
  exact ⟨e, List.mem_flatMap.2 ⟨stmt, hstmt, he⟩, herror⟩

end Failure

/-! ## Members of a class body -/

/-- The members of a class body are missing only if a text in it is. Otherwise they are those that the body
declares, in source order, and behind them those that its initializers create, each name once, without the
names that the body declares. So a name that is declared is never looked up among the created members. -/
theorem members_ordered (frozen : Bool) (body : List Stmt) :
    (∃ problem, liftMembers frozen body = .error problem ∧
      ∃ e ∈ body.flatMap Stmt.memberExprs, e.text = .error problem) ∨
      ∃ declared created own, liftMembers frozen body = .ok (declared ++ own) ∧
        DeclaresMembers frozen [] body declared ∧ createdMembers body = .ok created ∧
        FirstOccurrences (declared.flatMap Member.identifiers) created own ∧
        (∀ member ∈ own, member.identifiers = [member.displayName]) ∧
        (own.map Member.displayName).Nodup ∧
        (∀ member ∈ own, member.displayName ∉ declared.flatMap Member.identifiers) ∧
        ∀ name ∈ declared.flatMap Member.identifiers, ∃ member,
          findMember declared name = some member ∧ findMember (declared ++ own) name = some member := by
  cases hmembers : liftMembers frozen body with
  | error problem => exact .inl ⟨problem, rfl, error_of_liftMembers hmembers⟩
  | ok members =>
    obtain ⟨declared, created, hdeclares, hcreated, rfl⟩ := declares_of_liftMembers hmembers
    have hfirst := firstOccurrences_undeclared (declared.flatMap Member.identifiers) created
    refine .inr ⟨declared, created, _, rfl, hdeclares, hcreated, hfirst, fun member hmember => ?_,
      hfirst.nodup, hfirst.displayName_not_mem, fun name hname => findMember_append_of_mem hname⟩
    obtain ⟨name, hpatterns⟩ := patterns_of_createdMembers hcreated member (hfirst.sublist.subset hmember)
    rw [identifiers_of_patterns hpatterns, Member.displayName, hpatterns]
    rfl

/-- A property keeps its place when it gets a setter, and what the body declares is not created again. -/
example :
    let name (id : String) : Expr := .name ⟨1, 0⟩ id
    let created (attr value : String) : Stmt := .assign 1 [.attribute ⟨1, 0⟩ (name "self") attr] (name value)
    let function (own : String) (body : List Stmt) (decorators : List Expr) : Stmt :=
      .function 1 false own (.mk [] [.mk "self" none none] none [] none) body decorators none
    (liftMembers false [
        function "__init__" [created "x" "v", created "y" "v", created "y" "w"] [],
        function "a" [] [name "property"],
        .assign 1 [name "x"] (name "v"),
        function "a" [] [.attribute ⟨1, 0⟩ (name "a") "setter"]]).toOption.map
      (·.map fun member => (member.displayName, member.accessors, member.initializer))
      = some [("a", some [.get, .set], none), ("x", none, some "v"), ("y", none, some "v")] :=
  rfl

end PropertyWrapper
