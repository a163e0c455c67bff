import PropertyWrapper.Model.Introspection
import PropertyWrapper.Proofs.Lifting.Names
import PropertyWrapper.Proofs.Result
import PropertyWrapper.Proofs.Source.Printed
import PropertyWrapper.Source.Module

/-!
# Texts of lifted declarations

What is taken from a sound tree as text is closed: attributes with their arguments, the types and
initial values of members, and so the configurations that follow from them.

* `closed_liftAttribute` : the name and the arguments of an attribute;
* `closed_liftTarget` : the name, type and initial value of what an attribute is attached to;
* `closed_introspect` : the configuration of a wrapper type.
-/

namespace PropertyWrapper

open Source

theorem closed_text {e : Expr} {text : String} (h : e.isSound = true) (heq : e.text = .ok text) :
    IsClosed text :=
  closed_print .test e text h heq

theorem closed_optionText {e : Option Expr} {text : Option String} (h : e.all Expr.isSound = true)
    (heq : e.mapM Expr.text = .ok text) : ∀ found ∈ text, IsClosed found := by
  cases e with
  | none =>
    cases heq
    simp
  | some e =>
    obtain ⟨found, hfound, hpure⟩ := bind_eq_ok_iff.1 heq
    cases hpure
    rintro _ ⟨⟩
    exact closed_text h hfound

/-! ## Attributes -/

/-- The texts of an attribute are closed. -/
structure Attribute.IsClosed (attr : Attribute) : Prop where
  name : Source.IsClosed attr.name
  arguments : ∀ argument ∈ attr.arguments, Source.IsClosed argument.text

theorem closed_liftPositional {e : Expr} {lifted : Position × Argument} (h : e.isSound = true)
    (heq : liftPositional e = .ok lifted) : Source.IsClosed lifted.2.text := by
  obtain ⟨text, htext, hpure⟩ := bind_eq_ok_iff.1 heq
  cases hpure
  exact closed_text h htext

theorem closed_liftKeyword {keyword : Keyword} {lifted : Position × Argument}
    (h : keyword.isSound = true) (heq : liftKeyword keyword = .ok lifted) :
    Source.IsClosed lifted.2.text := by
  obtain ⟨text, htext, heq⟩ := bind_eq_ok_iff.1 heq
  obtain ⟨pos, name, value⟩ := keyword
  cases name with
  | none =>
    cases heq
    exact .lead (by decide) (closed_text h htext)
  | some label =>
    cases heq
    simp only [Keyword.isSound, Bool.and_eq_true] at h
    have hlabel : isPlainText (label ++ "=") = true :=
      isPlainText_append (isPlainText_of_isWord h.1) (by decide)
    exact .lead hlabel (closed_text h.2 htext)

theorem closed_liftArguments {args : List Expr} {keywords : List Keyword} {lifted : List Argument}
    (hargs : allSound args = true) (hkeywords : keywordsSound keywords = true)
    (heq : liftArguments args keywords = .ok lifted) :
    ∀ argument ∈ lifted, Source.IsClosed argument.text := by
  rw [allSound_eq, List.all_eq_true] at hargs
  rw [keywordsSound_eq, List.all_eq_true] at hkeywords
  obtain ⟨positional, hpositional, heq⟩ := bind_eq_ok_iff.1 heq
  obtain ⟨named, hnamed, hpure⟩ := bind_eq_ok_iff.1 heq
  cases hpure
  have hclosed := forall_of_mapM_eq_ok hpositional fun e he _ => closed_liftPositional (hargs e he)
  have hclosed' := forall_of_mapM_eq_ok hnamed fun k hk _ => closed_liftKeyword (hkeywords k hk)
  intro argument hargument
  obtain ⟨pair, hpair, rfl⟩ := List.mem_map.1 hargument
  rcases List.mem_append.1 ((Sorting.sortStably_perm _ _).mem_iff.1 hpair) with hmem | hmem
  · exact hclosed pair hmem
  · exact hclosed' pair hmem

/-- The texts of the attribute that a sound expression denotes are closed. -/
theorem closed_liftAttribute {e : Expr} {attr : Attribute} (h : e.isSound = true)
    (heq : liftAttribute e = .ok attr) : attr.IsClosed := by
  unfold liftAttribute at heq
  split at heq
  · rename_i pos func args keywords
    simp only [Expr.isSound, Bool.and_eq_true] at h
    obtain ⟨name, hname, heq⟩ := bind_eq_ok_iff.1 heq
    obtain ⟨arguments, harguments, hpure⟩ := bind_eq_ok_iff.1 heq
    cases hpure
    exact ⟨closed_text h.1.1 hname, closed_liftArguments h.1.2 h.2 harguments⟩
  · obtain ⟨name, hname, hpure⟩ := bind_eq_ok_iff.1 heq
    cases hpure
    exact ⟨closed_text h hname, by simp⟩

/-! ## Targets -/

/-- The texts of a target are closed, and its name is a word. -/
structure Target.IsClosed (target : Target) : Prop where
  displayName : isWord target.displayName = true
  type : ∀ member name, target.single? = some (member, name) → ∀ text ∈ member.type, Source.IsClosed text
  initializer : ∀ member name, target.single? = some (member, name) →
    ∀ text ∈ member.initializer, Source.IsClosed text

/-- The member of a target with one plain name is the target. -/
theorem fst_of_single? {member field : Member} {name : String}
    (h : (Target.member field).single? = some (member, name)) : member = field := by
  rw [Target.single?] at h
  split at h
  · cases h
    rfl
  · cases h

/-- A target with one plain name has that name. -/
theorem displayName_of_single? {target : Target} {member : Member} {name : String}
    (h : target.single? = some (member, name)) : target.displayName = name := by
  cases target with
  | declaration declaration => cases h
  | member field =>
    rw [Target.single?] at h
    split at h
    · rename_i heq
      cases h
      rw [Target.displayName, Member.displayName, heq]
      rfl
    · cases h

/-- The first name of the pattern of a sound target is a word. -/
theorem isWord_liftPattern {target : Expr} {pattern : BindingPattern} (h : target.isSound = true)
    (heq : liftPattern target = .ok pattern) : ∀ name ∈ pattern.firstName?, isWord name = true := by
  unfold liftPattern at heq
  split at heq
  · cases heq
    rintro _ ⟨⟩
    exact h
  · rename_i value attr
    obtain ⟨text, -, rfl⟩ := map_eq_ok_iff.1 heq
    simp only [Expr.isSound, Bool.and_eq_true] at h
    rintro _ ⟨⟩
    exact h.2
  · obtain ⟨text, -, rfl⟩ := map_eq_ok_iff.1 heq
    intro name hname
    obtain ⟨names, hnames, hmem⟩ := List.mem_flatten.1 (List.mem_of_head? hname)
    exact words_levels target h names hnames name hmem

/-- The name of a member with one pattern. -/
theorem isWord_displayName {pattern : BindingPattern} {member : Member}
    (hpatterns : member.patterns = [pattern]) (h : ∀ name ∈ pattern.firstName?, isWord name = true) :
    isWord member.displayName = true := by
  rw [Member.displayName, hpatterns, List.findSome?_cons]
  cases hname : pattern.firstName? with
  | none => decide
  | some name => exact h name hname

theorem closed_textWithout {parts : Annotated} {entry : Option Nat} {text : String}
    (hhead : parts.head.isSound = true) (hbase : parts.base.isSound = true)
    (hmetadata : allSound parts.metadata = true) (heq : parts.textWithout entry = .ok text) :
    Source.IsClosed text := by
  have hremaining : ∀ e ∈ entry.elim parts.metadata parts.metadata.eraseIdx, e.isSound = true := by
    rw [allSound_eq, List.all_eq_true] at hmetadata
    cases entry with
    | none => exact hmetadata
    | some index => exact fun e he => hmetadata e (List.mem_of_mem_eraseIdx he)
  unfold Annotated.textWithout at heq
  dsimp only at heq
  split at heq
  · exact closed_text hbase heq
  · obtain ⟨texts, htexts, heq⟩ := bind_eq_ok_iff.1 heq
    obtain ⟨head, hhead', hpure⟩ := bind_eq_ok_iff.1 heq
    cases hpure
    refine .indexed (closed_text hhead hhead') (.commaSeparated ?_)
    refine forall_of_mapM_eq_ok htexts fun e he _ => closed_text ?_
    rcases List.mem_cons.1 he with rfl | he
    · exact hbase
    · exact hremaining e he

/-- The parts of a sound annotation are sound. -/
theorem isSound_annotated? {hint : Expr} {parts : Annotated} (h : hint.isSound = true)
    (heq : annotated? hint = some parts) :
    parts.head.isSound = true ∧ parts.base.isSound = true ∧ allSound parts.metadata = true := by
  unfold annotated? at heq
  split at heq
  · simp only [Expr.isSound, allSound, Bool.and_eq_true] at h
    split at heq
    · cases heq
      simp only [allSound, Bool.and_eq_true]
      exact ⟨h.1, h.2.1, h.2.2⟩
    · cases heq
  · cases heq

/-- The type that a sound annotation states is closed. -/
theorem closed_statedType {hint : Expr} {entry : Option Nat} {type : String} (h : hint.isSound = true)
    (heq : statedType hint entry = .ok type) : Source.IsClosed type := by
  obtain ⟨whole, hwhole, heq⟩ := bind_eq_ok_iff.1 heq
  split at heq
  · rename_i parts hparts
    obtain ⟨hhead, hbase, hmetadata⟩ := isSound_annotated? h hparts
    exact closed_textWithout hhead hbase hmetadata heq
  · cases heq
    exact closed_text h hwhole

/-- The name of a sound definition is a word, and so is the word for any other statement. -/
theorem isWord_stmtName {stmt : Stmt} (h : stmt.isSound = true) : isWord stmt.name = true := by
  have hwords : ∀ word ∈ ["return", "delete", "assign", "augassign", "annassign", "asyncfor", "for",
      "while", "if", "asyncwith", "with", "match", "raise", "trystar", "try", "assert", "import",
      "importfrom", "global", "nonlocal", "expr", "pass", "break", "continue"], isWord word = true := by
    decide
  cases stmt with
  | function line isAsync name params body decorators returns =>
    simp only [Stmt.isSound, Bool.and_eq_true] at h
    exact h.1.1.1
  | classDef line name bases keywords body decorators =>
    simp only [Stmt.isSound, Bool.and_eq_true] at h
    exact h.1.1
  | loop line isAsync target iterable body orelse =>
    cases isAsync <;> exact hwords _ (by simp [Stmt.name])
  | withBlock line isAsync items body => cases isAsync <;> exact hwords _ (by simp [Stmt.name])
  | tryBlock line isGroup body handlers orelse final =>
    cases isGroup <;> exact hwords _ (by simp [Stmt.name])
  | _ => exact hwords _ (by simp [Stmt.name])

/-- The parts of the target that an annotated assignment is. -/
theorem liftTarget_annAssign {line : Nat} {place hint : Expr} {value : Option Expr} {bare : Bool}
    {entry : Option Nat} {target : Target}
    (h : liftTarget (.annAssign line place hint value bare) entry = .ok target) :
    ∃ type pattern initializer, statedType hint entry = .ok type
      ∧ liftPattern place = .ok pattern ∧ value.mapM Expr.text = .ok initializer
      ∧ target = .member { patterns := [pattern], type := some type, initializer, line } := by
  obtain ⟨type, htype, h⟩ := bind_eq_ok_iff.1 h
  obtain ⟨pattern, hpattern, h⟩ := bind_eq_ok_iff.1 h
  obtain ⟨initializer, hinitializer, hpure⟩ := bind_eq_ok_iff.1 h
  cases hpure
  exact ⟨type, pattern, initializer, htype, hpattern, hinitializer, rfl⟩

/-- The texts of what an attribute of a sound statement is attached to are closed. -/
theorem closed_liftTarget {stmt : Stmt} {entry : Option Nat} {target : Target}
    (h : stmt.isSound = true) (heq : liftTarget stmt entry = .ok target) : target.IsClosed := by
  unfold liftTarget at heq
  split at heq
  · rename_i line place hint value bare
    obtain ⟨type, pattern, initializer, htype, hpattern, hinitializer, rfl⟩ :=
      liftTarget_annAssign
        (show liftTarget (.annAssign line place hint value bare) entry = .ok target from heq)
    simp only [Stmt.isSound, Bool.and_eq_true] at h
    have hclosed := closed_statedType h.1.2 htype
    have hname := isWord_liftPattern h.1.1 hpattern
    refine ⟨isWord_displayName rfl hname, ?_, ?_⟩
    · intro member name hsingle
      obtain rfl := fst_of_single? hsingle
      rintro _ ⟨⟩
      exact hclosed
    · intro member name hsingle
      obtain rfl := fst_of_single? hsingle
      exact closed_optionText h.2 hinitializer
  · obtain ⟨declaration, hdeclaration, hpure⟩ := bind_eq_ok_iff.1 heq
    cases hpure
    obtain ⟨members, -, hpure⟩ := bind_eq_ok_iff.1 hdeclaration
    cases hpure
    exact ⟨isWord_stmtName h, by simp [Target.single?], by simp [Target.single?]⟩

/-! ## Members -/

/-- The type of a member, if it has one, is closed. -/
def Member.TypeClosed (member : Member) : Prop := ∀ text ∈ member.type, Source.IsClosed text

theorem isSound_finalType? {hint : Expr} {type : Option Expr} (h : hint.isSound = true)
    (heq : finalType? hint = some type) : type.all Expr.isSound = true := by
  fun_induction finalType? hint with
  | case1 pos value index hfinal =>
    cases heq
    simp only [Expr.isSound, Bool.and_eq_true] at h
    exact h.2
  | case2 pos value index _ hvariable ih =>
    simp only [Expr.isSound, Bool.and_eq_true] at h
    exact ih h.2 heq
  | case3 => cases heq
  | case4 =>
    cases heq
    rfl
  | case5 => cases heq

theorem closed_unwrapFinal {hint : Expr} {found : Bool × Option String} (h : hint.isSound = true)
    (heq : unwrapFinal hint = .ok found) : ∀ text ∈ found.2, Source.IsClosed text := by
  unfold unwrapFinal at heq
  split at heq
  · rename_i type htype
    obtain ⟨text, htext, rfl⟩ := map_eq_ok_iff.1 heq
    exact closed_optionText (isSound_finalType? h htype) htext
  · obtain ⟨text, htext, rfl⟩ := map_eq_ok_iff.1 heq
    rintro _ ⟨⟩
    exact closed_text h htext

mutual

/-- A sound statement holds sound statements only. -/
theorem isSound_of_mem_flattened (stmt : Stmt) (h : stmt.isSound = true) :
    ∀ inner ∈ stmt.flattened, inner.isSound = true := by
  match stmt with
  | .loop _ _ _ _ body orelse =>
    have hself := h
    simp only [Stmt.isSound, Bool.and_eq_true] at h
    simp only [Stmt.flattened, List.forall_mem_append, List.forall_mem_cons]
    exact ⟨⟨hself, isSound_of_mem_flattenedBlock body h.1⟩, isSound_of_mem_flattenedBlock orelse h.2⟩
  | .whileLoop _ _ body orelse =>
    have hself := h
    simp only [Stmt.isSound, Bool.and_eq_true] at h
    simp only [Stmt.flattened, List.forall_mem_append, List.forall_mem_cons]
    exact ⟨⟨hself, isSound_of_mem_flattenedBlock body h.1⟩, isSound_of_mem_flattenedBlock orelse h.2⟩
  | .branch _ _ body orelse =>
    have hself := h
    simp only [Stmt.isSound, Bool.and_eq_true] at h
    simp only [Stmt.flattened, List.forall_mem_append, List.forall_mem_cons]
    exact ⟨⟨hself, isSound_of_mem_flattenedBlock body h.1⟩, isSound_of_mem_flattenedBlock orelse h.2⟩
  | .withBlock _ _ _ body =>
    simp only [Stmt.flattened, List.forall_mem_cons]
    exact ⟨h, isSound_of_mem_flattenedBlock body h⟩
  | .tryBlock _ _ body handlers orelse final =>
    have hself := h
    simp only [Stmt.isSound, Bool.and_eq_true] at h
    simp only [Stmt.flattened, List.forall_mem_append, List.forall_mem_cons]
    exact ⟨⟨⟨⟨hself, isSound_of_mem_flattenedBlock body h.1.1.1⟩,
      isSound_of_mem_flattenedBlock orelse h.1.2⟩, isSound_of_mem_flattenedBlock final h.2⟩,
      isSound_of_mem_flattenedHandlers handlers h.1.1.2⟩
  | .function .. | .classDef .. | .ret .. | .delete .. | .assign .. | .augAssign .. | .annAssign ..
  | .matchOn .. | .raise .. | .assert .. | .imports .. | .importFrom .. | .global .. | .nonlocal ..
  | .expr .. | .pass _ | .breakLoop _ | .continueLoop _ =>
    simpa [Stmt.flattened] using h

theorem isSound_of_mem_flattenedBlock (body : List Stmt) (h : bodySound body = true) :
    ∀ inner ∈ flattenedBlock body, inner.isSound = true := by
  match body with
  | [] => simp [flattenedBlock]
  | stmt :: rest =>
    simp only [bodySound, Bool.and_eq_true] at h
    rw [flattenedBlock, List.forall_mem_append]
    exact ⟨isSound_of_mem_flattened stmt h.1, isSound_of_mem_flattenedBlock rest h.2⟩

theorem isSound_of_mem_flattenedHandlers (handlers : List Handler) (h : handlersSound handlers = true) :
    ∀ inner ∈ flattenedHandlers handlers, inner.isSound = true := by
  match handlers with
  | [] => simp [flattenedHandlers]
  | .mk _ _ body :: rest =>
    simp only [handlersSound, Handler.isSound, Bool.and_eq_true] at h
    rw [flattenedHandlers, List.forall_mem_append, Handler.flattened]
    exact ⟨isSound_of_mem_flattenedBlock body h.1, isSound_of_mem_flattenedHandlers rest h.2⟩

end

theorem closed_receiverMembers {receiver : String} {stmt : Stmt} {members : List Member}
    (h : stmt.isSound = true) (heq : receiverMembers receiver stmt = .ok members) :
    ∀ member ∈ members, member.TypeClosed := by
  unfold receiverMembers at heq
  split at heq
  · rename_i line target hint value bare
    simp only [Stmt.isSound, Bool.and_eq_true] at h
    split at heq
    · cases heq
      simp
    · obtain ⟨⟨isFinal, type⟩, htype, heq⟩ := bind_eq_ok_iff.1 heq
      obtain ⟨initializer, hinitializer, hpure⟩ := bind_eq_ok_iff.1 heq
      cases hpure
      intro member hmember
      obtain rfl := List.mem_singleton.1 hmember
      exact closed_unwrapFinal h.1.2 htype
  · refine forall_of_mapM_eq_ok heq fun name _ member hmember => ?_
    obtain ⟨text, -, hpure⟩ := bind_eq_ok_iff.1 hmember
    cases hpure
    simp [Member.TypeClosed, storedMember]
  · cases heq
    simp

theorem closed_initializerMembers {stmt : Stmt} {members : List Member} (h : stmt.isSound = true)
    (heq : initializerMembers stmt = .ok members) : ∀ member ∈ members, member.TypeClosed := by
  unfold initializerMembers at heq
  split at heq
  · rename_i line isAsync name params body decorators returns
    simp only [Stmt.isSound, Bool.and_eq_true] at h
    split at heq
    · unfold liftInstanceMembers at heq
      split at heq
      · cases heq
        simp
      · obtain ⟨found, hfound, rfl⟩ := map_eq_ok_iff.1 heq
        intro member hmember
        obtain ⟨members, hmembers, hmem⟩ := List.mem_flatten.1 hmember
        have hclosed := forall_of_mapM_eq_ok hfound fun inner hinner _ =>
          closed_receiverMembers (isSound_of_mem_flattenedBlock body h.1.1.2 inner hinner)
        exact hclosed members hmembers member hmem
    · cases heq
      simp
  · cases heq
    simp

/-- The types of the members in some slots are closed. -/
def SlotsClosed (slots : List Slot) : Prop := ∀ slot ∈ slots, slot.member.TypeClosed

theorem SlotsClosed.cons {slots : List Slot} {slot : Slot} (h : SlotsClosed slots)
    (hslot : slot.member.TypeClosed) : SlotsClosed (slot :: slots) :=
  List.forall_mem_cons.2 ⟨hslot, h⟩

theorem SlotsClosed.extendProperty {owner : String} {kind : AccessorKind} {type : Option String}
    {slots : List Slot} (h : SlotsClosed slots) (htype : ∀ text ∈ type, Source.IsClosed text) :
    SlotsClosed (extendProperty owner kind type slots) := by
  induction slots with
  | nil => exact h
  | cons slot slots ih =>
    obtain ⟨hslot, hslots⟩ := List.forall_mem_cons.1 h
    rw [PropertyWrapper.extendProperty]
    split
    · refine SlotsClosed.cons hslots fun text htext => ?_
      cases type with
      | none => exact hslot text (by simpa [Slot.extended] using htext)
      | some found => exact htype text (by simpa [Slot.extended] using htext)
    · exact (ih hslots).cons hslot

theorem closed_liftFunction {slots slots' : List Slot} {line : Nat} {name : String}
    {decorators : List Expr} {returns : Option Expr} (h : SlotsClosed slots)
    (hreturns : returns.all Expr.isSound = true)
    (heq : liftFunction slots line name decorators returns = .ok slots') : SlotsClosed slots' := by
  unfold liftFunction at heq
  dsimp only at heq
  split at heq
  · cases heq
    exact h
  · obtain ⟨type, htype, hpure⟩ := bind_eq_ok_iff.1 heq
    cases hpure
    exact h.cons (closed_optionText hreturns htype)
  · obtain ⟨type, htype, hpure⟩ := bind_eq_ok_iff.1 heq
    cases hpure
    exact h.cons (closed_optionText hreturns htype)
  · split at heq
    · obtain ⟨type, htype, hpure⟩ := bind_eq_ok_iff.1 heq
      cases hpure
      exact h.extendProperty (closed_optionText hreturns htype)
    · cases heq
      exact h.extendProperty (by simp)

theorem closed_liftStatement {frozen : Bool} {slots slots' : List Slot} {stmt : Stmt}
    (h : SlotsClosed slots) (hsound : stmt.isSound = true)
    (heq : liftStatement frozen slots stmt = .ok slots') : SlotsClosed slots' := by
  unfold liftStatement at heq
  split at heq
  · simp only [Stmt.isSound, Bool.and_eq_true] at hsound
    obtain ⟨member, hmember, hpure⟩ := bind_eq_ok_iff.1 heq
    cases hpure
    obtain ⟨⟨isFinal, type⟩, htype, hmember⟩ := bind_eq_ok_iff.1 hmember
    obtain ⟨pattern, -, hmember⟩ := bind_eq_ok_iff.1 hmember
    obtain ⟨initializer, -, hpure⟩ := bind_eq_ok_iff.1 hmember
    cases hpure
    exact h.cons (closed_unwrapFinal hsound.1.2 htype)
  · obtain ⟨member, hmember, hpure⟩ := bind_eq_ok_iff.1 heq
    cases hpure
    obtain ⟨patterns, -, hmember⟩ := bind_eq_ok_iff.1 hmember
    split at hmember
    · cases hmember
      exact h.cons (by simp [Member.TypeClosed])
    · obtain ⟨text, -, hpure⟩ := bind_eq_ok_iff.1 hmember
      cases hpure
      exact h.cons (by simp [Member.TypeClosed])
  · simp only [Stmt.isSound, Bool.and_eq_true] at hsound
    exact closed_liftFunction h hsound.2 heq
  · cases heq
    exact h

theorem mem_of_mem_undeclared {declared : List String} {members : List Member} {member : Member}
    (h : member ∈ undeclared declared members) : member ∈ members := by
  induction members generalizing declared with
  | nil => cases h
  | cons first rest ih =>
    rw [undeclared] at h
    split at h
    · exact List.mem_cons_of_mem _ (ih h)
    · rcases List.mem_cons.1 h with rfl | h
      · exact List.mem_cons_self
      · exact List.mem_cons_of_mem _ (ih h)

/-- The types of the members of a sound class body are closed. -/
theorem closed_liftMembers {frozen : Bool} {body : List Stmt} {members : List Member}
    (h : bodySound body = true) (heq : liftMembers frozen body = .ok members) :
    ∀ member ∈ members, member.TypeClosed := by
  rw [bodySound_eq, List.all_eq_true] at h
  obtain ⟨declared, hdeclared, heq⟩ := bind_eq_ok_iff.1 heq
  obtain ⟨created, hcreated, hpure⟩ := bind_eq_ok_iff.1 heq
  cases hpure
  obtain ⟨slots, hslots, hpure⟩ := bind_eq_ok_iff.1 hdeclared
  cases hpure
  have hclosed : SlotsClosed slots := invariant_of_foldlM_eq_ok hslots (by simp [SlotsClosed])
    fun stmt hstmt slots slots' hslots => closed_liftStatement hslots (h stmt hstmt)
  intro member hmember
  rcases List.mem_append.1 hmember with hmember | hmember
  · obtain ⟨slot, hslot, rfl⟩ := List.mem_map.1 hmember
    exact hclosed slot (List.mem_reverse.1 hslot)
  · obtain ⟨members, hmembers, hmem⟩ := List.mem_flatten.1 (mem_of_mem_undeclared hmember)
    have hinstance := forall_of_mapM_eq_ok hcreated fun stmt hstmt _ =>
      closed_initializerMembers (h stmt hstmt)
    exact hinstance members hmembers member hmem

/-! ## Configurations -/

/-- A text is a closed string. -/
def Text.LooseText.IsClosed (text : Text.LooseText) : Prop :=
  ∃ string, text = .whole string ∧ Source.IsClosed string

/-- The texts of a configuration, where it has any, are closed. -/
structure WrapperConfig.IsClosed (config : WrapperConfig) : Prop where
  wrapperType : ∀ text ∈ config.wrapperType, text.IsClosed
  projectedType : ∀ text ∈ config.projectedType, text.IsClosed

/-- A text can stand in generated code: it is closed or, where `astray` is set, it is read as an expression. -/
def Text.LooseText.Fits (astray : Bool) (text : Text.LooseText) : Prop :=
  ∃ string, text = .whole string
    ∧ (Closes [] (Text.unifyNewlines string.toList) ∨ astray = true ∧ ∃ value, parseExpression string = .ok value)

theorem Text.LooseText.IsClosed.fits {text : Text.LooseText} (h : text.IsClosed) (astray : Bool) :
    text.Fits astray := by
  obtain ⟨string, rfl, hclosed⟩ := h
  refine ⟨string, rfl, .inl ?_⟩
  rwa [Text.unifyNewlines_of_not_mem hclosed.not_mem_return]

/-- The texts of a configuration, where it has any, can stand in generated code. -/
structure WrapperConfig.Fits (astray : Bool) (config : WrapperConfig) : Prop where
  wrapperType : ∀ text ∈ config.wrapperType, text.Fits astray
  projectedType : ∀ text ∈ config.projectedType, text.Fits astray

theorem WrapperConfig.IsClosed.fits {config : WrapperConfig} (h : config.IsClosed) (astray : Bool) :
    config.Fits astray :=
  ⟨fun text htext => (h.wrapperType text htext).fits astray, fun text htext => (h.projectedType text htext).fits astray⟩

/-- A text is a single expression. -/
def Text.LooseText.IsExpression (text : Text.LooseText) : Prop :=
  ∃ string value, text = .whole string ∧ parseExpression string = .ok value

/-- The texts of a configuration, where it has any, are single expressions. -/
structure WrapperConfig.HoldsExpressions (config : WrapperConfig) : Prop where
  wrapperType : ∀ text ∈ config.wrapperType, text.IsExpression
  projectedType : ∀ text ∈ config.projectedType, text.IsExpression

theorem WrapperConfig.HoldsExpressions.fits {config : WrapperConfig} (h : config.HoldsExpressions) :
    config.Fits true := by
  have hfits : ∀ text : Text.LooseText, text.IsExpression → text.Fits true := by
    rintro _ ⟨string, value, rfl, hvalue⟩
    exact ⟨string, rfl, .inr ⟨rfl, value, hvalue⟩⟩
  exact ⟨fun text htext => hfits text (h.wrapperType text htext),
    fun text htext => hfits text (h.projectedType text htext)⟩

/-- The configuration of the wrapper type that a sound statement declares is closed. -/
theorem closed_introspect {stmt : Stmt} {declaration : Declaration} {config : WrapperConfig}
    (h : stmt.isSound = true) (hlift : liftDeclaration stmt = .ok declaration)
    (heq : introspect declaration = .ok config) : config.IsClosed := by
  obtain ⟨members, hmembers, hpure⟩ := bind_eq_ok_iff.1 hlift
  cases hpure
  have hclosed : ∀ member ∈ members, member.TypeClosed := by
    cases stmt with
    | classDef line name bases keywords body decorators =>
      simp only [Stmt.isSound, Bool.and_eq_true] at h
      exact closed_liftMembers h.1.2 hmembers
    | _ =>
      cases hmembers
      simp
  unfold introspect at heq
  split at heq
  · split at heq
    · cases heq
    · cases heq
      refine ⟨by simp [configOf], fun text htext => ?_⟩
      obtain ⟨string, hstring, rfl⟩ := Option.map_eq_some_iff.1 htext
      obtain ⟨projected, hprojected, htype⟩ := Option.bind_eq_some_iff.1 hstring
      exact ⟨string, rfl, hclosed projected (List.mem_of_find?_eq_some hprojected) string htype⟩
  · cases heq

end PropertyWrapper
