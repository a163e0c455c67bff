import PropertyWrapper.Lifting.Attribute
import PropertyWrapper.Proofs.Source.Sound

/-!
# Names of sound targets

The names under which targets are reported and generated are taken from the tree of a target. In a
sound tree they are words, and so are the names that are derived from them.

* `words_levels` : the names that occur in a sound tree;
* `isWord_displayName` : the name of a lifted target.
-/

namespace PropertyWrapper

open Source

/-! ## Qualified names -/

theorem reverse_qualified (name word : String) :
    (name ++ "." ++ word).toList.reverse = word.toList.reverse ++ '.' :: name.toList.reverse := by
  rw [String.toList_append, String.toList_append, List.reverse_append, List.reverse_append]
  rfl

section Qualified

variable {word : String} (name : String)

theorem forall_ne_dot (h : '.' ∉ word.toList) :
    ∀ c ∈ word.toList.reverse, decide (c ≠ '.') = true := by
  intro c hc
  rw [decide_eq_true_iff]
  rintro rfl
  exact h (List.mem_reverse.1 hc)

/-- A word without dots behind a dot is the last component. -/
theorem lastComponent_qualified (h : '.' ∉ word.toList) : lastComponent (name ++ "." ++ word) = word := by
  rw [lastComponent, reverse_qualified, List.takeWhile_append_of_pos (forall_ne_dot h),
    List.takeWhile_cons_of_neg (by decide), List.append_nil, List.reverse_reverse, String.ofList_toList]

/-- What stands before the dot and a word without dots is the qualifier. -/
theorem qualifier_qualified (h : '.' ∉ word.toList) : qualifier (name ++ "." ++ word) = name := by
  rw [qualifier, reverse_qualified, List.dropWhile_append_of_pos (forall_ne_dot h),
    List.dropWhile_cons_of_neg (by decide), List.drop_succ_cons, List.drop_zero, List.reverse_reverse,
    String.ofList_toList]

theorem setter_eq_qualified : name ++ ".setter" = name ++ "." ++ "setter" := by
  rw [String.append_assoc]
  rfl

theorem lastComponent_setter : lastComponent (name ++ ".setter") = "setter" := by
  rw [setter_eq_qualified]
  exact lastComponent_qualified name (by decide)

theorem qualifier_setter : qualifier (name ++ ".setter") = name := by
  rw [setter_eq_qualified]
  exact qualifier_qualified name (by decide)

end Qualified

/-! ## Names by level -/

/-- All names of some levels are words. -/
def Levels.AllWords (levels : Levels) : Prop := ∀ names ∈ levels, ∀ name ∈ names, isWord name = true

namespace Levels.AllWords

theorem nil : Levels.AllWords [] := by
  intro names hnames
  cases hnames

theorem beside {left right : Levels} (hleft : left.AllWords) (hright : right.AllWords) :
    (left.beside right).AllWords := by
  induction left generalizing right with
  | nil => simpa [Levels.beside] using hright
  | cons names left ih =>
    cases right with
    | nil => simpa [Levels.beside] using hleft
    | cons names' right =>
      intro names₀ hnames name hname
      rcases List.mem_cons.1 hnames with rfl | hnames
      · rcases List.mem_append.1 hname with hname | hname
        · exact hleft _ (by simp) name hname
        · exact hright _ (by simp) name hname
      · exact ih (fun names h => hleft names (by simp [h])) (fun names h => hright names (by simp [h]))
          names₀ hnames name hname

theorem below {levels : Levels} (h : levels.AllWords) : levels.below.AllWords := by
  intro names hnames name hname
  rcases List.mem_cons.1 hnames with rfl | hnames
  · cases hname
  · exact h names hnames name hname

end Levels.AllWords

mutual

/-- The names that occur in a sound expression are words. -/
theorem words_levels (e : Expr) (h : e.isSound = true) : e.levels.AllWords := by
  match e with
  | .name _ id =>
    intro names hnames name hname
    obtain rfl : names = [id] := by simpa [Expr.levels] using hnames
    obtain rfl : name = id := by simpa using hname
    exact h
  | .constant .. => exact .nil
  | .formatted _ parts =>
    simp only [Expr.isSound, Bool.and_eq_true] at h
    exact (words_partLevels parts h.2).below
  | .attribute _ value _ =>
    simp only [Expr.isSound, Bool.and_eq_true] at h
    exact (words_levels value h.1).below
  | .subscript _ value index =>
    simp only [Expr.isSound, Bool.and_eq_true] at h
    exact ((words_levels value h.1).beside (words_levels index h.2)).below
  | .call _ func args keywords =>
    simp only [Expr.isSound, Bool.and_eq_true] at h
    exact ((words_levels func h.1.1).beside
      ((words_allLevels args h.1.2).beside (words_keywordLevels keywords h.2))).below
  | .starred _ value => exact (words_levels value h).below
  | .slice _ lower upper step =>
    simp only [Expr.isSound, Bool.and_eq_true] at h
    exact ((words_optionLevels lower h.1.1).beside
      ((words_optionLevels upper h.1.2).beside (words_optionLevels step h.2))).below
  | .tuple _ elements => exact (words_allLevels elements h).below
  | .list _ elements => exact (words_allLevels elements h).below
  | .set _ elements => exact (words_allLevels elements h).below
  | .dict _ items => exact ((words_keyLevels items h).beside (words_valueLevels items h)).below
  | .listComp _ element clauses =>
    simp only [Expr.isSound, Bool.and_eq_true] at h
    exact ((words_levels element h.1).beside (words_clauseLevels clauses h.2)).below
  | .setComp _ element clauses =>
    simp only [Expr.isSound, Bool.and_eq_true] at h
    exact ((words_levels element h.1).beside (words_clauseLevels clauses h.2)).below
  | .generator _ element clauses =>
    simp only [Expr.isSound, Bool.and_eq_true] at h
    exact ((words_levels element h.1).beside (words_clauseLevels clauses h.2)).below
  | .dictComp _ key value clauses =>
    simp only [Expr.isSound, Bool.and_eq_true] at h
    exact ((words_levels key h.1.1).beside
      ((words_levels value h.1.2).beside (words_clauseLevels clauses h.2))).below
  | .unary _ _ operand => exact (words_levels operand h).below
  | .binary _ _ left right =>
    simp only [Expr.isSound, Bool.and_eq_true] at h
    exact ((words_levels left h.1).beside (words_levels right h.2)).below
  | .boolean _ _ operands => exact (words_allLevels operands h).below
  | .compare _ left rest =>
    simp only [Expr.isSound, Bool.and_eq_true] at h
    exact ((words_levels left h.1).beside (words_stepLevels rest h.2)).below
  | .conditional _ body test orelse =>
    simp only [Expr.isSound, Bool.and_eq_true] at h
    exact ((words_levels test h.1.2).beside
      ((words_levels body h.1.1).beside (words_levels orelse h.2))).below
  | .lambda _ params body =>
    simp only [Expr.isSound, Bool.and_eq_true] at h
    exact ((words_parametersLevels params h.1).below.beside (words_levels body h.2)).below
  | .assigned _ target value =>
    simp only [Expr.isSound, Bool.and_eq_true] at h
    exact ((words_levels target h.1).beside (words_levels value h.2)).below
  | .await _ value => exact (words_levels value h).below
  | .yield _ value => exact (words_optionLevels value h).below
  | .yieldFrom _ value => exact (words_levels value h).below

theorem words_allLevels (es : List Expr) (h : allSound es = true) : (allLevels es).AllWords := by
  match es with
  | [] => exact .nil
  | e :: rest =>
    simp only [allSound, Bool.and_eq_true] at h
    exact (words_levels e h.1).beside (words_allLevels rest h.2)

theorem words_optionLevels (value : Option Expr) (h : optionSound value = true) :
    (optionLevels value).AllWords := by
  match value with
  | none => exact .nil
  | some e => exact words_levels e h

theorem words_formatLevels (part : FormatPart) (h : part.isSound = true) : part.levels.AllWords := by
  match part with
  | .text _ => exact .nil
  | .field value _ spec =>
    simp only [FormatPart.isSound, Bool.and_eq_true] at h
    exact ((words_levels value h.1).beside (words_specLevels spec h.2)).below

theorem words_specLevels (spec : Option (List FormatPart)) (h : specSound spec = true) :
    (specLevels spec).AllWords := by
  match spec with
  | none => exact .nil
  | some parts => exact (words_partLevels parts h).below

theorem words_partLevels (parts : List FormatPart) (h : partsSound parts = true) :
    (partLevels parts).AllWords := by
  match parts with
  | [] => exact .nil
  | part :: rest =>
    simp only [partsSound, Bool.and_eq_true] at h
    exact (words_formatLevels part h.1).beside (words_partLevels rest h.2)

theorem words_keywordLevels (keywords : List Keyword) (h : keywordsSound keywords = true) :
    (keywordLevels keywords).AllWords := by
  match keywords with
  | [] => exact .nil
  | .mk _ none value :: rest =>
    simp only [keywordsSound, Keyword.isSound, Bool.and_eq_true] at h
    exact (words_levels value h.1).below.beside (words_keywordLevels rest h.2)
  | .mk _ (some _) value :: rest =>
    simp only [keywordsSound, Keyword.isSound, Bool.and_eq_true] at h
    exact (words_levels value h.1.2).below.beside (words_keywordLevels rest h.2)

theorem words_keyLevels (items : List DictItem) (h : itemsSound items = true) :
    (keyLevels items).AllWords := by
  match items with
  | [] => exact .nil
  | .pair key _ :: rest =>
    simp only [itemsSound, DictItem.isSound, Bool.and_eq_true] at h
    exact (words_levels key h.1.1).beside (words_keyLevels rest h.2)
  | .unpack _ :: rest =>
    simp only [itemsSound, Bool.and_eq_true] at h
    exact Levels.AllWords.nil.beside (words_keyLevels rest h.2)

theorem words_valueLevels (items : List DictItem) (h : itemsSound items = true) :
    (valueLevels items).AllWords := by
  match items with
  | [] => exact .nil
  | .pair _ value :: rest =>
    simp only [itemsSound, DictItem.isSound, Bool.and_eq_true] at h
    exact (words_levels value h.1.2).beside (words_valueLevels rest h.2)
  | .unpack value :: rest =>
    simp only [itemsSound, DictItem.isSound, Bool.and_eq_true] at h
    exact (words_levels value h.1).beside (words_valueLevels rest h.2)

theorem words_clauseLevels (clauses : List Comprehension) (h : clausesSound clauses = true) :
    (clauseLevels clauses).AllWords := by
  match clauses with
  | [] => exact .nil
  | .mk _ target iterable conditions :: rest =>
    simp only [clausesSound, Comprehension.isSound, Bool.and_eq_true] at h
    exact ((words_levels target h.1.1.1).beside
      ((words_levels iterable h.1.1.2).beside (words_allLevels conditions h.1.2))).below.beside
        (words_clauseLevels rest h.2)

theorem words_stepLevels (steps : List CompareStep) (h : stepsSound steps = true) :
    (stepLevels steps).AllWords := by
  match steps with
  | [] => exact .nil
  | .mk _ operand :: rest =>
    simp only [stepsSound, CompareStep.isSound, Bool.and_eq_true] at h
    exact (words_levels operand h.1).beside (words_stepLevels rest h.2)

theorem words_parameterLevels (params : List Parameter) (h : paramsSound params = true) :
    (parameterLevels params).AllWords := by
  match params with
  | [] => exact .nil
  | .mk _ _ value :: rest =>
    simp only [paramsSound, Parameter.isSound, Bool.and_eq_true] at h
    exact (words_optionLevels value h.1.2).beside (words_parameterLevels rest h.2)

theorem words_parametersLevels (params : Parameters) (h : params.isSound = true) :
    params.levels.AllWords := by
  match params with
  | .mk positionalOnly regular _ keywordOnly _ =>
    simp only [Parameters.isSound, Bool.and_eq_true] at h
    exact (words_parameterLevels keywordOnly h.1.2).beside
      ((words_parameterLevels positionalOnly h.1.1.1.1).beside (words_parameterLevels regular h.1.1.1.2))

end

end PropertyWrapper
