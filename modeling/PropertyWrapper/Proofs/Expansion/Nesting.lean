import PropertyWrapper.Proofs.Expansion.Accounting
import PropertyWrapper.Proofs.Expansion.Inserted
import PropertyWrapper.Proofs.Lifting.Values

/-!
# Nested wrapper types

The first pass looks at a marked class after it has treated the body of the class, so the body may have lost
marks and got configurations. Neither matters for the two members that a configuration is read off: what is
decided about the class is what its written form says.

* `introspect_congr` : only members that bind one of the two names matter;
* `liftStatement_stripped` : marks matter for no member;
* `sameSlots_of_inserts` : inserted configurations keep the slots of a class body alike;
* `createdMembers_of_inserts` : they change nothing about the members that initializers create;
* `introspect_of_inserts` : a class is introspected as it is written;
* `DecidedAs` : the verdict on a marked statement, by its written form;
* `introspection_undisturbed` : the first pass decides about all marked statements in this way.
-/

namespace PropertyWrapper

open Source

/-! ## Members -/

/-- Whether a member binds one of the names that a configuration is read off. -/
def Member.bindsValue (member : Member) : Bool :=
  valueNames.any fun name => member.identifiers.contains name

theorem findMember_filter_bindsValue (members : List Member) {name : String}
    (hname : name ∈ valueNames) :
    findMember (members.filter Member.bindsValue) name = findMember members name := by
  have hbinds : ∀ member : Member, member.identifiers.contains name = true → member.bindsValue = true :=
    fun member h => List.any_eq_true.2 ⟨name, hname, h⟩
  rw [findMember, findMember, List.find?_filter]
  congr 1
  funext member
  rw [Bool.eq_iff_iff, decide_eq_true_iff]
  exact and_iff_right_of_imp (hbinds member)

/-- Members that bind neither the wrapped nor the projected value can be inserted and removed anywhere. -/
theorem introspect_congr {declaration : Declaration} {members : List Member}
    (h : members.filter Member.bindsValue = declaration.members.filter Member.bindsValue) :
    introspect { declaration with members } = introspect declaration := by
  have hfind : ∀ name ∈ valueNames, findMember members name = findMember declaration.members name := by
    intro name hname
    rw [← findMember_filter_bindsValue members hname, h, findMember_filter_bindsValue _ hname]
  rw [introspect, introspect]
  simp only [hfind wrappedValue (by decide), hfind projectedValue (by decide)]

/-! ## Marks -/

theorem findSome?_eraseP {α β : Type} {p : α → Bool} {f : α → Option β}
    (hnone : ∀ a, p a = true → f a = none) (list : List α) :
    (list.eraseP p).findSome? f = list.findSome? f := by
  induction list with
  | nil => rfl
  | cons a list ih =>
    rw [List.eraseP_cons]
    cases ha : p a with
    | true => rw [cond_true, List.findSome?_cons, hnone a ha]
    | false => rw [cond_false, List.findSome?_cons, List.findSome?_cons, ih]

/-- What a mark refers to ends in the name of the mark. -/
theorem exists_referenceName_of_mark {decorator : Expr} (h : isWrapperMark decorator = true) :
    ∃ name, referenceName decorator = some name ∧ lastComponent name = "macrofy" := by
  obtain ⟨name, hname, hlast⟩ := (Option.any_eq_true _ _).1 h
  exact ⟨name, hname, List.mem_singleton.1 (List.contains_iff_mem.1 hlast)⟩

/-- A mark refers to nothing else. -/
theorem refersTo_of_mark {decorator : Expr} {components : List String}
    (h : isWrapperMark decorator = true) (hother : "macrofy" ∉ components) :
    refersTo (referenceName decorator) components = false := by
  obtain ⟨name, hname, hlast⟩ := exists_referenceName_of_mark h
  rw [hname, refersTo, Option.any_some, hlast]
  simpa using hother

/-- A mark gives a function no role among the members of its class. -/
theorem decoratorRole?_of_mark {decorator : Expr} (properties : List String)
    (h : isWrapperMark decorator = true) : decoratorRole? properties decorator = none := by
  obtain ⟨name, hname, hlast⟩ := exists_referenceName_of_mark h
  have hproperty : name ≠ "property" := by
    rintro rfl
    exact absurd hlast (by decide)
  have hbuiltin : name ≠ "builtins.property" := by
    rintro rfl
    exact absurd hlast (by decide)
  have hkind : companionKind? "macrofy" = none := by decide
  have hcached : ¬ "macrofy" = "cached_property" := by decide
  rw [decoratorRole?, hname, Option.bind_some, hlast, hkind]
  simp [hproperty, hbuiltin, hcached]

/-- Marks matter for no member of a class. -/
theorem liftStatement_stripped (frozen : Bool) (slots : List Slot) (stmt : Stmt) :
    liftStatement frozen slots stmt.stripped = liftStatement frozen slots stmt := by
  cases stmt with
  | function line isAsync name params body decorators returns =>
    have hrole := findSome?_eraseP (f := decoratorRole? (propertyNames slots))
      (fun decorator => decoratorRole?_of_mark _) decorators
    rw [stripped_of_not_class rfl, withoutMark, liftStatement, liftStatement, liftFunction, liftFunction]
    rw [propertyNames] at hrole
    rw [hrole]
  | _ => rfl

theorem initializerMembers_stripped (stmt : Stmt) :
    initializerMembers stmt.stripped = initializerMembers stmt := by
  cases stmt <;> rfl

theorem bodyStripped_eq_map (body : List Stmt) : bodyStripped body = body.map Stmt.stripped := by
  induction body with
  | nil => rfl
  | cons stmt rest ih => rw [bodyStripped, List.map_cons, ih]

theorem liftMembers_bodyStripped (frozen : Bool) (body : List Stmt) :
    liftMembers frozen (bodyStripped body) = liftMembers frozen body := by
  have hlift : (fun slots (stmt : Stmt) => liftStatement frozen slots stmt.stripped)
      = liftStatement frozen := by
    funext slots stmt
    exact liftStatement_stripped frozen slots stmt
  have hcreated : initializerMembers ∘ Stmt.stripped = initializerMembers := by
    funext stmt
    exact initializerMembers_stripped stmt
  rw [liftMembers, liftMembers, liftDeclared, liftDeclared, bodyStripped_eq_map, List.foldlM_map,
    List.mapM_map, hlift, hcreated]

/-- Marks decide neither the kind of a class nor whether it is frozen. -/
theorem classKind_eraseP (bases decorators : List Expr) :
    classKind bases (decorators.eraseP isWrapperMark) = classKind bases decorators
      ∧ isFrozenClass bases (decorators.eraseP isWrapperMark) = isFrozenClass bases decorators := by
  have hdecorated : ∀ names, "macrofy" ∉ names →
      isDecorated (decorators.eraseP isWrapperMark) names = isDecorated decorators names :=
    fun names hother => any_eraseP_of_not (fun decorator h => refersTo_of_mark h hother) decorators
  have hfreezes : ∀ decorator, isWrapperMark decorator = true → freezes decorator = false := by
    intro decorator h
    cases decorator with
    | call pos func args keywords =>
      have hother : refersTo (dottedName func) ["dataclass"] = false :=
        refersTo_of_mark h (by decide)
      rw [freezes, hother, Bool.false_and]
    | _ => rfl
  constructor
  · rw [classKind, classKind, hdecorated _ (by decide), hdecorated _ (by decide)]
  · rw [isFrozenClass, isFrozenClass, any_eraseP_of_not hfreezes]

/-! ## Inserted configurations -/

/-- The name of a configuration is none of those that a configuration is read off. -/
theorem configName_not_mem_valueNames (type : String) : configName type ∉ valueNames := by
  have hlast : (configName type).toList.getLast? = some 'o' := by
    rw [configName, String.toList_append, List.getLast?_append]
    rfl
  intro hmem
  have hcases : configName type = wrappedValue ∨ configName type = projectedValue := by
    simpa [valueNames] using hmem
  rcases hcases with h | h
  · rw [h] at hlast
    cases hlast
  · rw [h] at hlast
    cases hlast

/-- The facts of a configuration can be written. -/
theorem exists_printKeywords_facts (facts : List (Field × FactValue)) :
    ∃ texts, printKeywords false (facts.map fun (field, value) =>
      .mk ⟨1, 0⟩ (some field.name) value.expr) = .ok texts := by
  induction facts with
  | nil => exact ⟨[], rfl⟩
  | cons fact facts ih =>
    obtain ⟨field, value⟩ := fact
    obtain ⟨texts, htexts⟩ := ih
    have hvalue : ∃ text, value.expr.print false .test = .ok text := by
      cases value with
      | flag value => exact ⟨_, rfl⟩
      | text value => exact ⟨_, rfl⟩
    obtain ⟨text, htext⟩ := hvalue
    refine ⟨(field.name ++ "=" ++ text) :: texts, ?_⟩
    rw [List.map_cons, printKeywords, Keyword.print, htext, htexts]
    rfl

/-- The assignment of a configuration is a stored member under its name. -/
theorem liftStatement_config (frozen : Bool) (slots : List Slot) (declaration : ConfigDeclaration) :
    ∃ slot, liftStatement frozen slots declaration.statement = .ok (slot :: slots)
      ∧ slot.property? = none ∧ slot.member.identifiers = [declaration.name] := by
  obtain ⟨texts, htexts⟩ := exists_printKeywords_facts declaration.config.facts
  refine ⟨⟨{
    patterns := [.identifier declaration.name]
    initializer := some (configConstructor ++ "(" ++ commaSeparated ([] ++ texts) ++ ")")
    line := 1 }, false⟩, ?_, rfl, rfl⟩
  rw [ConfigDeclaration.statement, liftStatement, liftAssigned]
  have htext : (Expr.call ⟨1, 0⟩ (.name ⟨1, 0⟩ configConstructor) []
      (declaration.config.facts.map fun (field, value) =>
        Keyword.mk ⟨1, 0⟩ (some field.name) value.expr)).text
      = .ok (configConstructor ++ "(" ++ commaSeparated ([] ++ texts) ++ ")") := by
    rw [Expr.text, Expr.print, htexts]
    rfl
  rw [htext]
  rfl

/-- The configuration of a class is a member, but for neither of the two values. -/
theorem exists_idle_config (frozen : Bool) (slots : List Slot) {declaration : ConfigDeclaration}
    {type : String} (hname : declaration.name = configName type) :
    ∃ next, liftStatement frozen slots declaration.statement = .ok next ∧ Idle [] slots next := by
  obtain ⟨slot, hlift, hproperty, hidentifiers⟩ := liftStatement_config frozen slots declaration
  refine ⟨slot :: slots, hlift, .cons ?_ fun shown hshown => ?_⟩
  · rw [← Bool.not_eq_true, isValue_of_identifiers hidentifiers, hname]
    exact configName_not_mem_valueNames type
  · rw [hproperty] at hshown
    cases hshown

/-- Two class bodies give alike slots, or neither can be lifted. -/
inductive SameSlots : Except PrintError (List Slot) → Except PrintError (List Slot) → Prop where
  | ok {slots slots' : List Slot} (h : SameValues [] slots slots') : SameSlots (.ok slots) (.ok slots')
  | error (problem problem' : PrintError) : SameSlots (.error problem) (.error problem')

/-- Slots that differ in no generated property are alike in both directions. -/
theorem SameValues.symm {slots slots' : List Slot} (h : SameValues [] slots slots') :
    SameValues [] slots' slots where
  values := by
    refine h.values.flip.imp fun slot slot' halike => ?_
    cases halike with
    | same => exact .same slot
    | rewritten hgenerated => cases hgenerated
  properties name hname := (h.properties name hname).symm
  named := h.named'
  named' := h.named

/-- One statement of a class body keeps slots alike. -/
theorem sameSlots_liftStatement {slots slots' : List Slot} (frozen : Bool) (stmt : Stmt)
    (h : SameValues [] slots slots') :
    SameSlots (liftStatement frozen slots stmt) (liftStatement frozen slots' stmt) := by
  have howners : ∀ owner ∈ stmt.extendedNames, owner ∉ ([] : List String) := fun _ _ => List.not_mem_nil
  cases hlift : liftStatement frozen slots stmt with
  | ok next =>
    obtain ⟨next', hlift', hnext⟩ := h.liftStatement howners hlift
    rw [hlift']
    exact .ok hnext
  | error problem =>
    cases hlift' : liftStatement frozen slots' stmt with
    | ok next' =>
      obtain ⟨next, hnext, -⟩ := h.symm.liftStatement howners hlift'
      rw [hlift] at hnext
      cases hnext
    | error problem' => exact .error problem problem'

/-- Inserted configurations keep the slots of a class body alike. -/
theorem sameSlots_of_inserts {plain body : List Stmt} {configs : List ConfigDeclaration} (frozen : Bool)
    {slots slots' : List Slot} (h : Inserts plain configs body) (hslots : SameValues [] slots slots') :
    SameSlots (plain.foldlM (liftStatement frozen) slots) (body.foldlM (liftStatement frozen) slots') := by
  induction h generalizing slots slots' with
  | nil => exact .ok hslots
  | @other stmt rest others configs hclass hrest ih =>
    have hstmt := sameSlots_liftStatement frozen stmt hslots
    rw [List.foldlM_cons, List.foldlM_cons]
    generalize liftStatement frozen slots stmt = lifted at hstmt
    generalize liftStatement frozen slots' stmt = lifted' at hstmt
    cases hstmt with
    | ok h => exact ih h
    | error problem problem' => exact .error problem problem'
  | @classDef line name bases keywords inner inner' rest others decorators innerConfigs configs own hbody hown
      hrest ihbody ihrest =>
    -- The class itself is no member, whatever its body is.
    rw [List.foldlM_cons, List.foldlM_cons]
    change SameSlots (rest.foldlM (liftStatement frozen) slots)
      ((own.toList.map ConfigDeclaration.statement ++ others).foldlM (liftStatement frozen) slots')
    cases own with
    | none => exact ihrest hslots
    | some declaration =>
      obtain ⟨next, hlift, hidle⟩ := exists_idle_config frozen slots' (hown declaration rfl).1
      rw [Option.toList_some, List.map_singleton, List.singleton_append, List.foldlM_cons, hlift]
      exact ihrest (hslots.of_idle (.refl slots) hidle)

/-- Initializers create the same members with inserted configurations as without. -/
theorem createdMembers_of_inserts {plain body : List Stmt} {configs : List ConfigDeclaration}
    (h : Inserts plain configs body) : createdMembers body = createdMembers plain := by
  induction h with
  | nil => rfl
  | other hclass hrest ih => rw [createdMembers_cons, createdMembers_cons, ih]
  | @classDef line name bases keywords inner inner' rest others decorators innerConfigs configs own hbody hown
      hrest ihbody ihrest =>
    -- Neither classes nor assignments are initializers.
    rw [createdMembers_cons_of_nil _ rfl, createdMembers_cons_of_nil _ rfl, ← ihrest]
    cases own with
    | none => rfl
    | some declaration => exact createdMembers_cons_of_nil others rfl

/-- Class bodies with and without inserted configurations are introspected alike, or neither can be
lifted. -/
theorem introspect_liftMembers_of_inserts {plain body : List Stmt} {configs : List ConfigDeclaration}
    (h : Inserts plain configs body) (frozen : Bool) (kind : DeclarationKind) (name : String) (line : Int) :
    (liftMembers frozen body).toOption.map (fun members => introspect { kind, name, members, line })
      = (liftMembers frozen plain).toOption.map fun members => introspect { kind, name, members, line } := by
  have hslots := sameSlots_of_inserts frozen h .nil
  rw [liftMembers_eq_bind, liftMembers_eq_bind, createdMembers_of_inserts h]
  generalize plain.foldlM (liftStatement frozen) [] = lifted at hslots ⊢
  generalize body.foldlM (liftStatement frozen) [] = lifted' at hslots ⊢
  cases hslots with
  | error problem problem' => rfl
  | ok hvalues =>
    cases hcreated : createdMembers plain with
    | error problem => rfl
    | ok created =>
      have hpatterns := patterns_of_createdMembers hcreated
      exact congrArg some (hvalues.introspect_eq hpatterns).symm

/-! ## Classes -/

/-- The name of what a statement declares and the configuration that is read off it, or the problem with it;
nothing if a part of the statement cannot be written. -/
def introspected? (stmt : Stmt) : Option (String × Except Problem WrapperConfig) :=
  (liftDeclaration stmt).toOption.map fun declaration => (declaration.name, introspect declaration)

section Class

variable {filename : String} {line : Nat} {name : String} {bases : List Expr} {keywords : List Keyword}
  {inner inner' : List Stmt} {decorators : List Expr}

theorem introspected?_classDef :
    introspected? (.classDef line name bases keywords inner decorators)
      = ((liftMembers (isFrozenClass bases decorators) inner).toOption.map fun members =>
        introspect { kind := classKind bases decorators, name, members, line }).map fun outcome =>
          (name, outcome) := by
  rw [introspected?, liftDeclaration, declaredMembers, classify]
  cases liftMembers (isFrozenClass bases decorators) inner <;> rfl

/-- A class without its mark, with what the first pass has made of its body, is introspected as it is
written. -/
theorem introspected?_withoutMark
    (h : (introspectBody filename inner).result = .ok inner') :
    introspected? (withoutMark (.classDef line name bases keywords inner' decorators))
      = introspected? (.classDef line name bases keywords inner decorators) := by
  have hinserts := inserts_of_introspects (introspects_of_result inner h)
  obtain ⟨hkind, hfrozen⟩ := classKind_eraseP bases decorators
  rw [withoutMark, introspected?_classDef, introspected?_classDef, hkind, hfrozen,
    introspect_liftMembers_of_inserts hinserts, liftMembers_bodyStripped]

end Class

/-- The verdict on a marked statement in a file follows from the statement as it is written. -/
def DecidedAs (filename : String) (stmt : Stmt) (verdict : Verdict) : Prop :=
  ∃ mark attr declaration, wrapperMark? stmt = some mark ∧ liftAttribute mark = .ok attr
    ∧ liftDeclaration stmt = .ok declaration
    ∧ (∀ config, introspect declaration = .ok config → verdict = .ok (declaration.withConfig config))
    ∧ ∀ problem, introspect declaration = .error problem →
      verdict = .error ((Diagnostic.at? problem (some attr)).inFile filename)

/-- What is decided about a mark where the first pass meets it, the statement as it is written decides. -/
def MarkSite.DecidedBy (filename : String) (stmt : Stmt) (site : MarkSite) : Prop :=
  ∀ verdict, site.Judged filename verdict → DecidedAs filename stmt verdict

/-- Statements that are introspected alike get the same verdicts. -/
theorem decidedBy_of_introspected? {filename : String} {stmt treated : Stmt} {mark : Expr}
    (hmark : wrapperMark? stmt = some mark) (hsame : introspected? treated = introspected? stmt) :
    MarkSite.DecidedBy filename stmt ⟨mark, treated⟩ := by
  rintro verdict ⟨attr, declaration', hattr, hdeclaration', hverdict⟩
  rw [introspected?, hdeclaration'] at hsame
  obtain ⟨declaration, hdeclaration, hpair⟩ := Option.map_eq_some_iff.1 hsame.symm
  obtain ⟨hname, hintrospect⟩ := Prod.mk.inj hpair
  refine ⟨mark, attr, declaration, hmark, hattr, eq_ok_of_toOption hdeclaration, ?_, ?_⟩
  · intro config hconfig
    have hwith : declaration'.withConfig config = declaration.withConfig config := by
      simp only [Declaration.withConfig, hname]
    rw [hverdict, expandWrapper, ← hintrospect, hconfig, ← hwith]
    rfl
  · intro problem hproblem
    rw [hverdict, expandWrapper, ← hintrospect, hproblem]
    rfl

/-! ## The first pass -/

theorem decidedBy_markSite? {filename : String} {stmt treated : Stmt}
    (hmarks : wrapperMark? treated = wrapperMark? stmt)
    (hsame : introspected? (withoutMark treated) = introspected? stmt) :
    List.Forall₂ (MarkSite.DecidedBy filename) ([stmt].filter Stmt.isMarked) treated.markSite?.toList := by
  rw [Stmt.markSite?, hmarks, List.filter_singleton, ← wrapperMark?_isSome]
  cases hmark : wrapperMark? stmt with
  | none => exact .nil
  | some mark => exact .cons (decidedBy_of_introspected? hmark hsame) .nil

theorem introspected?_of_not_class {stmt : Stmt} (h : stmt.isClass = false) :
    introspected? (withoutMark stmt) = introspected? stmt := by
  cases stmt with
  | classDef => cases h
  | _ => rfl

/-- What the first pass decides about the marks that it meets, their statements as they are written decide. -/
theorem decidedBy_bodyMarkSites {filename : String} (body : List Stmt) {marked : List Stmt}
    (h : (introspectBody filename body).result = .ok marked) :
    List.Forall₂ (MarkSite.DecidedBy filename) ((bodyReached body).filter Stmt.isMarked)
      (bodyMarkSites filename body) := by
  induction body using bodyInduction generalizing marked with
  | nil => exact .nil
  | other stmt rest hclass ih =>
    obtain ⟨first, others, -, hothers, -, -⟩ := introspectBody_cons h
    rw [bodyReached, reached_of_not_class hclass, List.filter_append, bodyMarkSites,
      markSites_of_not_class hclass]
    exact List.rel_append (decidedBy_markSite? rfl (introspected?_of_not_class hclass)) (ih hothers)
  | classDef line name bases keywords inner decorators rest ihinner ihrest =>
    obtain ⟨first, others, hfirst, hothers, -, -⟩ := introspectBody_cons h
    rw [introspectStmt] at hfirst
    obtain ⟨inner', hinner, -, -⟩ := Trace.result_bind hfirst
    have hinner' : introspectedBody filename inner = inner' := by rw [introspectedBody, hinner]
    rw [bodyReached, Stmt.reached, List.filter_append, List.filter_append, bodyMarkSites, Stmt.markSites,
      hinner']
    have hown : List.Forall₂ (MarkSite.DecidedBy filename)
        ([Stmt.classDef line name bases keywords inner decorators].filter Stmt.isMarked)
        (Stmt.classDef line name bases keywords inner' decorators).markSite?.toList :=
      decidedBy_markSite? rfl (introspected?_withoutMark hinner)
    exact List.rel_append (List.rel_append (ihinner hinner) hown) (ihrest hothers)

/-- The first pass decides about every marked statement as it is written, inner ones first. -/
theorem decided_of_introspectBody {filename : String} {body marked : List Stmt}
    (h : (introspectBody filename body).result = .ok marked) :
    ∃ verdicts, List.Forall₂ (DecidedAs filename) ((bodyReached body).filter Stmt.isMarked) verdicts
      ∧ Reports (introspectBody filename body).events verdicts := by
  obtain ⟨verdicts, hverdicts, hreports⟩ := verdicts_of_introspectBody body h
  refine ⟨verdicts, ?_, hreports⟩
  have hsites := decidedBy_bodyMarkSites body h
  clear hreports h
  generalize (bodyReached body).filter Stmt.isMarked = stmts at hsites
  generalize bodyMarkSites filename body = sites at hsites hverdicts
  induction hsites generalizing verdicts with
  | nil =>
    cases hverdicts
    exact .nil
  | cons hsite hrest ih =>
    obtain ⟨verdict, others, hverdict, hothers, rfl⟩ := List.forall₂_cons_left_iff.1 hverdicts
    exact .cons (hsite verdict hverdict) (ih others hothers)

/-- Nested wrapper types do not disturb the introspection of the classes around them. The first pass decides
about every marked statement as it is written, although it meets a class after its body; what it meets is
introspected as the written class, and so is every declaration that differs in members which bind neither of
the two names. -/
theorem introspection_undisturbed (filename : String) :
    (∀ body marked, (introspectBody filename body).result = .ok marked →
      ∃ verdicts, List.Forall₂ (DecidedAs filename) ((bodyReached body).filter Stmt.isMarked) verdicts
        ∧ Reports (introspectBody filename body).events verdicts)
    ∧ (∀ line name bases keywords inner inner' decorators,
      (introspectBody filename inner).result = .ok inner' →
      introspected? (withoutMark (.classDef line name bases keywords inner' decorators))
        = introspected? (.classDef line name bases keywords inner decorators))
    ∧ ∀ (declaration : Declaration) (members : List Member),
      members.filter Member.bindsValue = declaration.members.filter Member.bindsValue →
      introspect { declaration with members } = introspect declaration :=
  ⟨fun _ _ => decided_of_introspectBody, fun _ _ _ _ _ _ _ => introspected?_withoutMark,
    fun _ _ => introspect_congr⟩

/-! ## An instance -/

/-- A wrapper type in another one, whose wrapped value is created by its initializer. -/
def nestedSource : String :=
  "@macrofy\nclass Outer:\n    def __init__(self):\n        self.wrapped_value = 1\n" ++
  "    @macrofy\n    class Inner:\n        wrapped_value: Final\n"

/-- The configurations of the wrapper types of the source. -/
def nestedConfigs : List ConfigDeclaration :=
  [{ name := "InnerMacro", config := { isReference := true }, wrapper := "Inner" },
   { name := "OuterMacro", config := { wrappedIsSettable := true, isReference := true }, wrapper := "Outer" }]

theorem configs_nestedSource :
    ((parseModule nestedSource).toOption.bind fun body =>
      (introspectBody "m.py" body).result.toOption.map fun _ =>
        (introspectBody "m.py" body).events.filterMap Event.config?) = some nestedConfigs := by
  rw [Direct.parseModule_eq]
  decide +kernel

/-- Both wrapper types are introspected as they are written. -/
theorem introspection_undisturbed_nestedSource :
    ∃ body marked verdicts, parseModule nestedSource = .ok body
      ∧ (introspectBody "m.py" body).result = .ok marked
      ∧ List.Forall₂ (DecidedAs "m.py") ((bodyReached body).filter Stmt.isMarked) verdicts
      ∧ verdicts.filterMap Except.toOption = nestedConfigs := by
  obtain ⟨body, hbody, hmarked⟩ := Option.bind_eq_some_iff.1 configs_nestedSource
  obtain ⟨marked, hmarked, hconfigs⟩ := Option.map_eq_some_iff.1 hmarked
  have hmarked := eq_ok_of_toOption hmarked
  obtain ⟨verdicts, hverdicts, hreports⟩ := (introspection_undisturbed "m.py").1 body marked hmarked
  exact ⟨body, marked, verdicts, eq_ok_of_toOption hbody, hmarked, hverdicts,
    hreports.configs.symm.trans hconfigs⟩

end PropertyWrapper
