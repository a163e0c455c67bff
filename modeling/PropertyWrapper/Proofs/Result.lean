import Mathlib

/-!
# Results of steps that can fail

What is known about the steps of a computation once it has given a value or failed.

* `bind_eq_ok_iff` : both steps of a sequence gave a value;
* `mapM_eq_ok_iff_forall₂` : every step gave its value;
* `forall_of_mapM_eq_ok` : what holds of the value of every step holds of all values;
* `exists_of_mapM_eq_error`, `exists_of_foldlM_eq_error` : a failure is that of one of the steps.
-/

namespace PropertyWrapper

variable {ε ε' α β : Type}

/-- A sequence gives a value when both of its steps do. -/
theorem bind_eq_ok_iff {first : Except ε α} {next : α → Except ε β} {value : β} :
    (first >>= next) = .ok value ↔ ∃ a, first = .ok a ∧ next a = .ok value := by
  cases first with
  | error error =>
    constructor
    · intro h
      cases h
    · rintro ⟨_, h, -⟩
      cases h
  | ok a =>
    constructor
    · intro h
      exact ⟨a, rfl, h⟩
    · rintro ⟨_, heq, h⟩
      cases heq
      exact h

theorem map_eq_ok_iff {first : Except ε α} {f : α → β} {value : β} :
    f <$> first = .ok value ↔ ∃ a, first = .ok a ∧ f a = value := by
  cases first with
  | error error =>
    constructor
    · intro h
      cases h
    · rintro ⟨_, h, -⟩
      cases h
  | ok a =>
    constructor
    · intro h
      cases h
      exact ⟨a, rfl, rfl⟩
    · rintro ⟨_, heq, rfl⟩
      cases heq
      rfl

theorem mapError_eq_ok_iff {first : Except ε α} {f : ε → ε'} {value : α} :
    first.mapError f = .ok value ↔ first = .ok value := by
  cases first with
  | error error =>
    constructor
    · intro h
      cases h
    · intro h
      cases h
  | ok a =>
    constructor
    · intro h
      cases h
      rfl
    · rintro ⟨⟩
      rfl

theorem eq_ok_of_toOption {result : Except ε α} {value : α} (h : result.toOption = some value) :
    result = .ok value := by
  cases result with
  | ok => exact congrArg Except.ok (Option.some.inj h)
  | error => cases h

/-- What every step gives for the items of a list, all steps together give for the list. -/
theorem forall_of_mapM_eq_ok {step : α → Except ε β} {items : List α} {values : List β}
    {P : β → Prop} (h : items.mapM step = .ok values)
    (hstep : ∀ item ∈ items, ∀ value, step item = .ok value → P value) :
    ∀ value ∈ values, P value := by
  induction items generalizing values with
  | nil =>
    rw [List.mapM_nil] at h
    cases h
    simp
  | cons item items ih =>
    rw [List.mapM_cons] at h
    obtain ⟨first, hfirst, h⟩ := bind_eq_ok_iff.1 h
    obtain ⟨others, hothers, h⟩ := bind_eq_ok_iff.1 h
    cases h
    intro value hvalue
    rcases List.mem_cons.1 hvalue with rfl | hvalue
    · exact hstep item (by simp) value hfirst
    · exact ih hothers (fun item hitem => hstep item (by simp [hitem])) value hvalue

/-- All steps together give the values that they give for the items of a list. -/
theorem mapM_eq_ok_iff_forall₂ {step : α → Except ε β} {items : List α} {values : List β} :
    items.mapM step = .ok values
      ↔ List.Forall₂ (fun item value => step item = .ok value) items values := by
  induction items generalizing values with
  | nil =>
    rw [List.mapM_nil, List.forall₂_nil_left_iff]
    constructor
    · rintro ⟨⟩
      rfl
    · rintro rfl
      rfl
  | cons item items ih =>
    rw [List.mapM_cons, bind_eq_ok_iff, List.forall₂_cons_left_iff]
    constructor
    · rintro ⟨first, hfirst, h⟩
      obtain ⟨others, hothers, heq⟩ := bind_eq_ok_iff.1 h
      cases heq
      exact ⟨first, others, hfirst, ih.1 hothers, rfl⟩
    · rintro ⟨first, others, hfirst, hothers, rfl⟩
      exact ⟨first, hfirst, bind_eq_ok_iff.2 ⟨others, ih.2 hothers, rfl⟩⟩

/-- If all steps together give a value, every step does. -/
theorem exists_of_mapM_eq_ok {step : α → Except ε β} {items : List α} {values : List β}
    (h : items.mapM step = .ok values) : ∀ item ∈ items, ∃ value, step item = .ok value := by
  induction items generalizing values with
  | nil => simp
  | cons item items ih =>
    rw [List.mapM_cons] at h
    obtain ⟨first, hfirst, h⟩ := bind_eq_ok_iff.1 h
    obtain ⟨others, hothers, -⟩ := bind_eq_ok_iff.1 h
    exact List.forall_mem_cons.2 ⟨⟨first, hfirst⟩, ih hothers⟩

/-- All steps together give a value if every step does. -/
theorem mapM_eq_ok_of_forall {step : α → Except ε β} {items : List α}
    (h : ∀ item ∈ items, ∃ value, step item = .ok value) : ∃ values, items.mapM step = .ok values := by
  induction items with
  | nil => exact ⟨[], rfl⟩
  | cons item items ih =>
    obtain ⟨⟨value, hvalue⟩, hrest⟩ := List.forall_mem_cons.1 h
    obtain ⟨values, hvalues⟩ := ih hrest
    refine ⟨value :: values, ?_⟩
    rw [List.mapM_cons, hvalue, hvalues]
    rfl

/-- What every step of a fold keeps holds of its result. -/
theorem invariant_of_foldlM_eq_ok {σ : Type} {step : σ → α → Except ε σ} {items : List α}
    {state result : σ} {P : σ → Prop} (h : items.foldlM step state = .ok result) (hstate : P state)
    (hstep : ∀ item ∈ items, ∀ state next, P state → step state item = .ok next → P next) :
    P result := by
  induction items generalizing state with
  | nil =>
    cases h
    exact hstate
  | cons item items ih =>
    rw [List.foldlM_cons] at h
    obtain ⟨next, hnext, h⟩ := bind_eq_ok_iff.1 h
    refine ih h (hstep item (by simp) state next hstate hnext) fun item' hitem => ?_
    exact hstep item' (by simp [hitem])

/-! ## Failures -/

theorem bind_eq_error_iff {first : Except ε α} {next : α → Except ε β} {error : ε} :
    (first >>= next) = .error error
      ↔ first = .error error ∨ ∃ a, first = .ok a ∧ next a = .error error := by
  cases first with
  | error error' =>
    constructor
    · rintro ⟨⟩
      exact .inl rfl
    · rintro (⟨⟨⟩⟩ | ⟨_, h, -⟩)
      · rfl
      · cases h
  | ok a =>
    constructor
    · intro h
      exact .inr ⟨a, rfl, h⟩
    · rintro (h | ⟨_, h, h'⟩)
      · cases h
      · cases h
        exact h'

theorem map_eq_error_iff {first : Except ε α} {f : α → β} {error : ε} :
    f <$> first = .error error ↔ first = .error error := by
  cases first with
  | error error' =>
    constructor
    · rintro ⟨⟩
      rfl
    · rintro ⟨⟩
      rfl
  | ok a =>
    constructor
    · rintro ⟨⟩
    · rintro ⟨⟩

theorem mapError_eq_error_iff {result : Except ε α} {f : ε → ε'} {error : ε'} :
    result.mapError f = .error error ↔ ∃ error', result = .error error' ∧ f error' = error := by
  cases result with
  | error error' =>
    constructor
    · rintro ⟨⟩
      exact ⟨error', rfl, rfl⟩
    · rintro ⟨_, ⟨⟩, rfl⟩
      rfl
  | ok a =>
    constructor
    · intro h
      cases h
    · rintro ⟨_, h, -⟩
      cases h

/-- If all steps together fail, one of them does in the same way. -/
theorem exists_of_mapM_eq_error {step : α → Except ε β} {items : List α} {error : ε}
    (h : items.mapM step = .error error) : ∃ item ∈ items, step item = .error error := by
  induction items with
  | nil => cases h
  | cons item items ih =>
    rw [List.mapM_cons] at h
    rcases bind_eq_error_iff.1 h with hitem | ⟨_, -, h⟩
    · exact ⟨item, List.mem_cons_self, hitem⟩
    · rcases bind_eq_error_iff.1 h with hitems | ⟨_, -, ⟨⟩⟩
      obtain ⟨failed, hmem, hfailed⟩ := ih hitems
      exact ⟨failed, List.mem_cons_of_mem item hmem, hfailed⟩

/-- If a fold fails, one of its steps does in the same way. -/
theorem exists_of_foldlM_eq_error {σ : Type} {step : σ → α → Except ε σ} {items : List α} {state : σ}
    {error : ε} (h : items.foldlM step state = .error error) :
    ∃ item ∈ items, ∃ state, step state item = .error error := by
  induction items generalizing state with
  | nil => cases h
  | cons item items ih =>
    rw [List.foldlM_cons] at h
    rcases bind_eq_error_iff.1 h with hitem | ⟨_, -, hitems⟩
    · exact ⟨item, List.mem_cons_self, state, hitem⟩
    · obtain ⟨failed, hmem, hfailed⟩ := ih hitems
      exact ⟨failed, List.mem_cons_of_mem item hmem, hfailed⟩

end PropertyWrapper
