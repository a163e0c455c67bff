import PropertyWrapper.Expansion.Rendering
import PropertyWrapper.Proofs.Source.Unescaped
import PropertyWrapper.Proofs.Source.Unplaced

/-!
# Configurations and their facts

A configuration is written as the facts that differ from their defaults, and a call of its constructor
with these facts as named arguments builds it again.

* `WrapperConfig.ofKeywords` : the configuration that a call with named arguments builds;
* `fact?_ext` : a configuration is determined by the facts that differ from their defaults;
* `withField?_of_fact?`, `foldlM_constantFacts` : one field after the other is set;
* `States`, `ofKeywords_of_states` : named arguments that state the facts of a configuration build it;
* `BuildsConfig`, `buildsConfig_of_states` : such arguments are constants for single fields in their order.
-/

namespace PropertyWrapper

open Source Text

/-! ## Configurations from named arguments -/

/-- A configuration with one field set to a constant, if the constant is a value of the field. -/
def WrapperConfig.withField? (config : WrapperConfig) : Field → Constant → Option WrapperConfig
  | .isReference, .bool value => some { config with isReference := value }
  | .wrappedIsSettable, .bool value => some { config with wrappedIsSettable := value }
  | .projectedIsSettable, .bool value => some { config with projectedIsSettable := value }
  | .wrapperType, .none => some { config with wrapperType := none }
  | .wrapperType, .str _ text => some { config with wrapperType := some (.ofPoints text) }
  | .projectedType, .none => some { config with projectedType := none }
  | .projectedType, .str _ text => some { config with projectedType := some (.ofPoints text) }
  | _, _ => none

/-- The field that a named argument sets and the constant that it sets it to. -/
def statedFact? : Keyword → Option (Field × Constant)
  | .mk _ (some name) (.constant _ value) =>
    (Field.all.find? fun field => field.name == name).map (·, value)
  | _ => none

/-- The configuration that a call of the constructor with named arguments builds. A field that is not
named has its default; no field is named twice. -/
def WrapperConfig.ofKeywords (keywords : List Keyword) : Option WrapperConfig := do
  let facts ← keywords.mapM statedFact?
  if (facts.map (·.1)).Nodup then
    facts.foldlM (fun config fact => config.withField? fact.1 fact.2) {}
  else none

/-! ## Facts -/

/-- The constant that a fact's value is written as. -/
def FactValue.constant : FactValue → Constant
  | .flag value => .bool value
  | .text value => .str false value.points

/-- No fact is lost where facts with their default are left out. -/
theorem fact?_ext {a b : WrapperConfig} (h : ∀ field, a.fact? field = b.fact? field) : a = b := by
  have hflag : ∀ {x y : Bool}, (if x then some (FactValue.flag true) else none)
      = (if y then some (.flag true) else none) → x = y := by
    decide
  have htext : ∀ {x y : Option LooseText}, x.map FactValue.text = y.map .text → x = y :=
    fun heq => Option.map_injective (fun _ _ => FactValue.text.inj) heq
  cases a
  cases b
  rw [WrapperConfig.mk.injEq]
  exact ⟨hflag (h .wrappedIsSettable), hflag (h .projectedIsSettable), hflag (h .isReference),
    htext (h .wrapperType), htext (h .projectedType)⟩

/-- Setting a field to its value in another configuration gives it that value and changes nothing else. -/
theorem withField?_of_fact? {source : WrapperConfig} {field : Field} {value : FactValue}
    (h : source.fact? field = some value) (config : WrapperConfig) :
    ∃ config', config.withField? field value.constant = some config' ∧
      config'.fact? field = some value ∧
        ∀ other, other ≠ field → config'.fact? other = config.fact? other := by
  have hflag : ∀ {x : Bool}, (if x then some (FactValue.flag true) else none) = some value →
      value = .flag true := by
    rintro (_ | _) heq
    · cases heq
    · exact (Option.some.inj heq).symm
  cases field with
  | isReference =>
    obtain rfl := hflag h
    refine ⟨{ config with isReference := true }, rfl, rfl, fun other hother => ?_⟩
    cases other <;> first | rfl | exact absurd rfl hother
  | wrappedIsSettable =>
    obtain rfl := hflag h
    refine ⟨{ config with wrappedIsSettable := true }, rfl, rfl, fun other hother => ?_⟩
    cases other <;> first | rfl | exact absurd rfl hother
  | projectedIsSettable =>
    obtain rfl := hflag h
    refine ⟨{ config with projectedIsSettable := true }, rfl, rfl, fun other hother => ?_⟩
    cases other <;> first | rfl | exact absurd rfl hother
  | wrapperType =>
    obtain ⟨text, -, rfl⟩ := Option.map_eq_some_iff.1 h
    refine ⟨{ config with wrapperType := some text }, ?_, rfl, fun other hother => ?_⟩
    · rw [FactValue.constant, WrapperConfig.withField?, ofPoints_points]
    · cases other <;> first | rfl | exact absurd rfl hother
  | projectedType =>
    obtain ⟨text, -, rfl⟩ := Option.map_eq_some_iff.1 h
    refine ⟨{ config with projectedType := some text }, ?_, rfl, fun other hother => ?_⟩
    · rw [FactValue.constant, WrapperConfig.withField?, ofPoints_points]
    · cases other <;> first | rfl | exact absurd rfl hother

/-- The facts about some fields with their values as constants. -/
def constantFacts (config : WrapperConfig) (fields : List Field) : List (Field × Constant) :=
  fields.filterMap fun field => (config.fact? field).map fun value => (field, value.constant)

theorem constantFacts_all (config : WrapperConfig) :
    config.facts.map (fun fact => (fact.1, fact.2.constant)) = constantFacts config Field.all := by
  simp only [WrapperConfig.facts, constantFacts, List.map_filterMap, Option.map_map]
  rfl

theorem fields_constantFacts (config : WrapperConfig) (fields : List Field) :
    (constantFacts config fields).map Prod.fst
      = fields.filter fun field => (config.fact? field).isSome := by
  induction fields with
  | nil => rfl
  | cons field fields ih =>
    unfold constantFacts at ih ⊢
    cases h : config.fact? field with
    | none => rw [List.filterMap_cons_none (by rw [h]; rfl), ih, List.filter_cons_of_neg (by simp [h])]
    | some value =>
      rw [List.filterMap_cons_some (by rw [h]; rfl), List.map_cons, ih,
        List.filter_cons_of_pos (by simp [h])]

/-- Setting fields one after the other copies the facts about them. -/
theorem foldlM_constantFacts (source : WrapperConfig) (fields : List Field) (config : WrapperConfig) :
    ∃ config', (constantFacts source fields).foldlM
        (fun config fact => config.withField? fact.1 fact.2) config = some config' ∧
      ∀ field, config'.fact? field =
        if field ∈ fields then (source.fact? field).or (config.fact? field) else config.fact? field := by
  -- The induction is on the fields and not on the facts: a field with its default takes no step.
  induction fields generalizing config with
  | nil => exact ⟨config, rfl, fun field => by simp⟩
  | cons first fields ih =>
    unfold constantFacts at ih ⊢
    cases hfact : source.fact? first with
    | none =>
      obtain ⟨config', hfold, hfacts⟩ := ih config
      refine ⟨config', ?_, fun field => ?_⟩
      · rw [List.filterMap_cons_none (by rw [hfact]; rfl), hfold]
      · rw [hfacts field]
        by_cases hfield : field = first
        · simp [hfield, hfact]
        · simp [hfield]
    | some value =>
      obtain ⟨next, hnext, hset, hother⟩ := withField?_of_fact? hfact config
      obtain ⟨config', hfold, hfacts⟩ := ih next
      refine ⟨config', ?_, fun field => ?_⟩
      · rw [List.filterMap_cons_some (by rw [hfact]; rfl), List.foldlM_cons, hnext]
        exact hfold
      · rw [hfacts field]
        by_cases hfield : field = first
        · simp [hfield, hfact, hset]
        · simp [hfield, hother field hfield]

/-- A named argument that states a fact. -/
def States (keyword : Keyword) (fact : Field × FactValue) : Prop :=
  ∃ pos place, keyword = .mk pos (some fact.1.name) (.constant place fact.2.constant)

theorem statedFact?_of_states {keyword : Keyword} {fact : Field × FactValue} (h : States keyword fact) :
    statedFact? keyword = some (fact.1, fact.2.constant) := by
  obtain ⟨pos, place, rfl⟩ := h
  have hfind : ∀ field : Field, (Field.all.find? fun other => other.name == field.name) = some field := by
    intro field
    cases field <;> decide
  rw [statedFact?, hfind, Option.map_some]

theorem mapM_statedFact? {keywords : List Keyword} {facts : List (Field × FactValue)}
    (h : List.Forall₂ States keywords facts) :
    keywords.mapM statedFact? = some (facts.map fun fact => (fact.1, fact.2.constant)) := by
  induction h with
  | nil => rfl
  | cons hstates _ ih =>
    rw [List.mapM_cons, statedFact?_of_states hstates, ih]
    rfl

/-- Named arguments that state the facts of a configuration build it. -/
theorem ofKeywords_of_states {config : WrapperConfig} {keywords : List Keyword}
    (h : List.Forall₂ States keywords config.facts) : WrapperConfig.ofKeywords keywords = some config := by
  have hstated : keywords.mapM statedFact? = some (constantFacts config Field.all) := by
    rw [mapM_statedFact? h, constantFacts_all]
  have hnodup : ((constantFacts config Field.all).map (·.1)).Nodup := by
    rw [fields_constantFacts]
    exact List.Nodup.filter _ (by decide)
  have hdefault : ∀ field, ({} : WrapperConfig).fact? field = none := by
    intro field
    cases field <;> rfl
  obtain ⟨config', hfold, hfacts⟩ := foldlM_constantFacts config Field.all {}
  have hall : ∀ field, field ∈ Field.all := by
    intro field
    cases field <;> decide
  -- all fields are set, and the defaults that the steps start from have no facts
  have heq : config' = config := fact?_ext fun field => by
    rw [hfacts field, if_pos (hall field), hdefault, Option.or_none]
  rw [WrapperConfig.ofKeywords, hstated]
  change (if _ then _ else _) = _
  rw [if_pos hnodup, hfold, heq]

/-- The names of arguments that state facts. -/
theorem names_of_states {keywords : List Keyword} {facts : List (Field × FactValue)}
    (h : List.Forall₂ States keywords facts) :
    keywords.map Keyword.name = facts.map fun fact => some fact.1.name := by
  induction h with
  | nil => rfl
  | cons hstates _ ih =>
    obtain ⟨pos, place, rfl⟩ := hstates
    rw [List.map_cons, List.map_cons, ih]
    rfl

/-- The values of arguments that state facts are constants. -/
theorem constants_of_states {keywords : List Keyword} {facts : List (Field × FactValue)}
    (h : List.Forall₂ States keywords facts) :
    ∀ keyword ∈ keywords, ∃ place value, keyword.value = .constant place value := by
  induction h with
  | nil => simp
  | cons hstates _ ih =>
    obtain ⟨pos, place, rfl⟩ := hstates
    exact List.forall_mem_cons.2 ⟨⟨place, _, rfl⟩, ih⟩

/-- Facts are written in the order of all fields. -/
theorem sublist_names (config : WrapperConfig) :
    List.Sublist (config.facts.map fun fact => some fact.1.name)
      (Field.all.map fun field => some field.name) := by
  have hfields : config.facts.map (·.1) = Field.all.filter fun field => (config.fact? field).isSome := by
    rw [← fields_constantFacts, ← constantFacts_all, List.map_map]
    rfl
  have hmap : (config.facts.map fun fact => some fact.1.name)
      = (config.facts.map (·.1)).map fun field => some field.name := by
    rw [List.map_map]
    rfl
  rw [hmap, hfields]
  exact List.filter_sublist.map _

theorem unplacedKeywords_of_states {keywords : List Keyword} {facts : List (Field × FactValue)}
    (h : List.Forall₂ States keywords facts) :
    unplacedKeywords keywords = unplacedKeywords
      (facts.map fun (field, value) => .mk ⟨1, 0⟩ (some field.name) value.expr) := by
  induction h with
  | nil => rfl
  | @cons keyword fact _ _ hstates _ ih =>
    obtain ⟨pos, place, rfl⟩ := hstates
    obtain ⟨field, value⟩ := fact
    rw [List.map_cons, unplacedKeywords, unplacedKeywords, ih]
    cases value <;> rfl

/-- Named arguments that build a configuration: constants for some of the fields, each of them once and
in the order of all fields. -/
structure BuildsConfig (keywords : List Keyword) (config : WrapperConfig) : Prop where
  ordered : List.Sublist (keywords.map Keyword.name) (Field.all.map fun field => some field.name)
  distinct : (keywords.map Keyword.name).Nodup
  constant : ∀ keyword ∈ keywords, ∃ place value, keyword.value = .constant place value
  built : WrapperConfig.ofKeywords keywords = some config

theorem buildsConfig_of_states {keywords : List Keyword} {config : WrapperConfig}
    (h : List.Forall₂ States keywords config.facts) : BuildsConfig keywords config := by
  have hordered : List.Sublist (keywords.map Keyword.name) (Field.all.map fun field => some field.name) := by
    rw [names_of_states h]
    exact sublist_names config
  exact ⟨hordered, hordered.nodup (by decide), constants_of_states h, ofKeywords_of_states h⟩

end PropertyWrapper
