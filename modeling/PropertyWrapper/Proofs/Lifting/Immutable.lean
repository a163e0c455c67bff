import PropertyWrapper.Lifting.Member
import PropertyWrapper.Proofs.Lifting.Chains

/-!
# Immutable fields

Whether an annotated field is immutable is decided by the form of its annotation: it is marked as final, alone
or with a type, inside any number of annotations of class variables, or the class is frozen and the annotation
is not one of a class variable.

* `IsFinal` : the form of a final annotation, with the type in it;
* `IsClassVariable` : the form of an annotation of a class variable;
* `finalType?_eq_some_iff` : the final annotations that are recognised are those of the form;
* `liftAnnotated_eq_ok_iff` : the member of an annotated assignment;
* `immutable_by_form` : final annotations, their types, and immutable members.
-/

namespace PropertyWrapper

open Source

/-! ## Forms of annotations -/

/-- An annotation is final: the mark stands alone or with a type, inside any number of annotations of class
variables. -/
inductive IsFinal : Expr → Option Expr → Prop where
  | alone {hint : Expr} (h : EndsIn "Final" hint) : IsFinal hint none
  | typed (pos : Position) {head : Expr} (type : Expr) (h : EndsIn "Final" head) :
      IsFinal (.subscript pos head type) (some type)
  | inClassVariable (pos : Position) {head inner : Expr} {type : Option Expr}
      (h : EndsIn "ClassVar" head) (hinner : IsFinal inner type) :
      IsFinal (.subscript pos head inner) type

/-- An annotation is that of a class variable, with or without a type. -/
inductive IsClassVariable : Expr → Prop where
  | alone {hint : Expr} (h : EndsIn "ClassVar" hint) : IsClassVariable hint
  | typed (pos : Position) {head : Expr} (type : Expr) (h : EndsIn "ClassVar" head) :
      IsClassVariable (.subscript pos head type)

theorem endsIn_final_iff {e : Expr} : refersTo (dottedName e) ["Final"] = true ↔ EndsIn "Final" e :=
  refersTo_dottedName_iff (by decide)

theorem endsIn_classVar_iff {e : Expr} :
    refersTo (dottedName e) ["ClassVar"] = true ↔ EndsIn "ClassVar" e :=
  refersTo_dottedName_iff (by decide)

/-- A subscript is no chain. -/
theorem not_endsIn_subscript {word : String} {pos : Position} {head index : Expr} :
    ¬ EndsIn word (.subscript pos head index) := by
  rintro ⟨_, ⟨⟩, -⟩

/-- A chain that ends in one word does not end in another one. -/
theorem EndsIn.eq {e : Expr} {word other : String} (h : EndsIn word e) (h' : EndsIn other e)
    (hword : '.' ∉ word.toList) (hother : '.' ∉ other.toList) : word = other := by
  obtain ⟨name, hname, hlast⟩ := (Option.any_eq_true _ _).1 ((refersTo_dottedName_iff hword).2 h)
  have hrefers := (refersTo_dottedName_iff hother).2 h'
  rw [hname] at hrefers
  simp only [refersTo, Option.any_some, List.contains_eq_mem, List.mem_singleton,
    decide_eq_true_eq] at hlast hrefers
  exact hlast.symm.trans hrefers

theorem isFinal_iff_of_not_subscript {hint : Expr} {type : Option Expr}
    (h : ∀ pos head index, hint = .subscript pos head index → False) :
    IsFinal hint type ↔ EndsIn "Final" hint ∧ none = type := by
  constructor
  · intro hfinal
    cases hfinal with
    | alone hends => exact ⟨hends, rfl⟩
    | typed => exact (h _ _ _ rfl).elim
    | inClassVariable => exact (h _ _ _ rfl).elim
  · rintro ⟨hends, rfl⟩
    exact .alone hends

/-- The annotations that are recognised as final are those of the form, and the type is the one in it. -/
theorem finalType?_eq_some_iff {hint : Expr} {type : Option Expr} :
    finalType? hint = some type ↔ IsFinal hint type := by
  -- The cases: a subscript of the mark, one of a class variable, any other one, the mark alone, anything else.
  induction hint using finalType?.induct generalizing type with
  | case1 pos head index hfinal =>
    have hhead := endsIn_final_iff.1 hfinal
    rw [finalType?, if_pos hfinal, Option.some.injEq]
    constructor
    · rintro rfl
      exact .typed pos index hhead
    · intro h
      cases h with
      | alone h => exact absurd h not_endsIn_subscript
      | typed => rfl
      | inClassVariable pos h => exact absurd (hhead.eq h (by decide) (by decide)) (by decide)
  | case2 pos head index hfinal hvariable ih =>
    have hhead := endsIn_classVar_iff.1 hvariable
    rw [finalType?, if_neg hfinal, if_pos hvariable, ih]
    constructor
    · exact .inClassVariable pos hhead
    · intro h
      cases h with
      | alone h => exact absurd h not_endsIn_subscript
      | typed pos type h => exact absurd (endsIn_final_iff.2 h) hfinal
      | inClassVariable pos h hinner => exact hinner
  | case3 pos head index hfinal hvariable =>
    rw [finalType?, if_neg hfinal, if_neg hvariable]
    constructor
    · rintro ⟨⟩
    · intro h
      cases h with
      | alone h => exact absurd h not_endsIn_subscript
      | typed pos type h => exact absurd (endsIn_final_iff.2 h) hfinal
      | inClassVariable pos h => exact absurd (endsIn_classVar_iff.2 h) hvariable
  | case4 hint hsubscript hfinal =>
    rw [finalType?, if_pos hfinal, isFinal_iff_of_not_subscript hsubscript, ← endsIn_final_iff,
      Option.some.injEq, and_iff_right hfinal]
    exact hsubscript
  | case5 hint hsubscript hfinal =>
    rw [finalType?, if_neg hfinal, isFinal_iff_of_not_subscript hsubscript, ← endsIn_final_iff]
    · exact iff_of_false nofun fun h => hfinal h.1
    · exact hsubscript

/-- The head of an annotation is that of a class variable exactly if the annotation has this form. -/
theorem refersTo_headName_iff {hint : Expr} :
    refersTo (headName hint) ["ClassVar"] = true ↔ IsClassVariable hint := by
  cases hint with
  | subscript pos head index =>
    rw [headName, endsIn_classVar_iff]
    constructor
    · exact .typed pos index
    · intro h
      cases h with
      | alone h => exact absurd h not_endsIn_subscript
      | typed pos type h => exact h
  | _ =>
    rw [headName, endsIn_classVar_iff]
    · constructor
      · exact .alone
      · rintro ⟨h⟩
        exact h
    · rintro _ _ _ ⟨⟩

/-! ## Members -/

/-- An annotated assignment has a member if its parts have texts. -/
theorem liftAnnotated_eq_ok_iff {frozen : Bool} {line : Nat} {target hint : Expr} {value : Option Expr}
    {member : Member} :
    liftAnnotated frozen line target hint value = .ok member
      ↔ ∃ isFinal type pattern initializer, unwrapFinal hint = .ok (isFinal, type)
        ∧ liftPattern target = .ok pattern ∧ value.mapM Expr.text = .ok initializer
        ∧ member = {
          patterns := [pattern]
          binding := bindingIf (isFinal || frozen && !refersTo (headName hint) ["ClassVar"])
          type
          initializer
          line } := by
  rw [liftAnnotated]
  constructor
  · intro h
    obtain ⟨⟨isFinal, type⟩, hunwrap, h⟩ := bind_eq_ok_iff.1 h
    obtain ⟨pattern, hpattern, h⟩ := bind_eq_ok_iff.1 h
    obtain ⟨initializer, hinitializer, h⟩ := bind_eq_ok_iff.1 h
    cases h
    exact ⟨isFinal, type, pattern, initializer, hunwrap, hpattern, hinitializer, rfl⟩
  · rintro ⟨isFinal, type, pattern, initializer, hunwrap, hpattern, hinitializer, rfl⟩
    rw [hunwrap, hpattern, hinitializer]
    rfl

theorem bindingIf_eq_immutable_iff {isImmutable : Bool} :
    bindingIf isImmutable = .immutable ↔ isImmutable = true := by
  cases isImmutable <;> decide

/-- Whether an annotation is final is decided by its form. A mark alone leaves no text, a marked type leaves
its text, and any other annotation leaves its own text. An annotated assignment of a class has a member if its
parts have texts, and the member is immutable exactly if the annotation is final, or if the class is frozen
and the annotation is not one of a class variable. -/
theorem immutable_by_form (hint : Expr) :
    (∀ isFinal text, unwrapFinal hint = .ok (isFinal, text) →
      (isFinal = true ↔ ∃ type, IsFinal hint type)) ∧
      (IsFinal hint none → unwrapFinal hint = .ok (true, none)) ∧
      (∀ type, IsFinal hint (some type) → unwrapFinal hint = (true, some ·) <$> type.text) ∧
      ((¬ ∃ type, IsFinal hint type) → unwrapFinal hint = (false, some ·) <$> hint.text) ∧
      ∀ frozen line target value,
        ((∃ member, liftAnnotated frozen line target hint value = .ok member) ↔
          (∃ final, unwrapFinal hint = .ok final) ∧ (∃ pattern, liftPattern target = .ok pattern) ∧
            ∃ initializer, value.mapM Expr.text = .ok initializer) ∧
        ∀ member, liftAnnotated frozen line target hint value = .ok member →
          (member.binding = .immutable ↔
            (∃ type, IsFinal hint type) ∨ frozen = true ∧ ¬ IsClassVariable hint) := by
  have hnone : (¬ ∃ type, IsFinal hint type) → finalType? hint = none := by
    intro hnot
    rw [Option.eq_none_iff_forall_ne_some]
    intro type htype
    exact hnot ⟨type, finalType?_eq_some_iff.1 htype⟩
  have hmarked : ∀ type, IsFinal hint type → unwrapFinal hint = (true, ·) <$> type.mapM Expr.text := by
    intro type htype
    rw [unwrapFinal, finalType?_eq_some_iff.2 htype]
  have hplain : (¬ ∃ type, IsFinal hint type) → unwrapFinal hint = (false, some ·) <$> hint.text := by
    intro hnot
    rw [unwrapFinal, hnone hnot]
  have hreported : ∀ isFinal text, unwrapFinal hint = .ok (isFinal, text) →
      (isFinal = true ↔ ∃ type, IsFinal hint type) := by
    intro isFinal text hunwrap
    by_cases hform : ∃ type, IsFinal hint type
    · obtain ⟨type, htype⟩ := hform
      rw [hmarked type htype] at hunwrap
      obtain ⟨_, -, heq⟩ := map_eq_ok_iff.1 hunwrap
      cases heq
      exact iff_of_true rfl ⟨type, htype⟩
    · rw [hplain hform] at hunwrap
      obtain ⟨_, -, heq⟩ := map_eq_ok_iff.1 hunwrap
      cases heq
      exact iff_of_false Bool.false_ne_true hform
  refine ⟨hreported, hmarked none, fun type htype => ?_, hplain, fun frozen line target value => ⟨?_, ?_⟩⟩
  · rw [hmarked _ htype, Option.mapM_some]
    cases type.text <;> rfl
  · constructor
    · rintro ⟨member, hmember⟩
      obtain ⟨isFinal, type, pattern, initializer, hunwrap, hpattern, hinitializer, -⟩ :=
        liftAnnotated_eq_ok_iff.1 hmember
      exact ⟨⟨_, hunwrap⟩, ⟨_, hpattern⟩, ⟨_, hinitializer⟩⟩
    · rintro ⟨⟨⟨isFinal, type⟩, hunwrap⟩, ⟨pattern, hpattern⟩, ⟨initializer, hinitializer⟩⟩
      exact ⟨_, liftAnnotated_eq_ok_iff.2
        ⟨isFinal, type, pattern, initializer, hunwrap, hpattern, hinitializer, rfl⟩⟩
  · intro member hmember
    obtain ⟨isFinal, type, pattern, initializer, hunwrap, -, -, rfl⟩ := liftAnnotated_eq_ok_iff.1 hmember
    rw [bindingIf_eq_immutable_iff, Bool.or_eq_true, Bool.and_eq_true, hreported _ _ hunwrap,
      Bool.not_eq_true', ← Bool.not_eq_true, refersTo_headName_iff]

/-- `ClassVar[t.Final[int]]` is final and leaves `int`. -/
example :
    let name (id : String) : Expr := .name ⟨1, 0⟩ id
    unwrapFinal (.subscript ⟨1, 0⟩ (name "ClassVar")
      (.subscript ⟨1, 9⟩ (.attribute ⟨1, 9⟩ (name "t") "Final") (name "int"))) = .ok (true, some "int") :=
  rfl

end PropertyWrapper
