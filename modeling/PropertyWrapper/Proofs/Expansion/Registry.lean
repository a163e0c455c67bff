import PropertyWrapper.Expansion.Module
import PropertyWrapper.Proofs.Lifting.Texts

/-!
# Registries during an expansion

The first pass only writes to the registry, so whatever resolves before it resolves after it. What is
known of all configurations is kept by every write that has the same property.

* `Registry.resolve_of_overlay` : a name that does not resolve after writes did not before them;
* `Registry.forall_overlay` : what holds of all configurations is kept by writes of which it holds;
* `Registry.find?_overlay` : the last write under a key counts.
-/

namespace PropertyWrapper

namespace Registry

variable {registry : Registry} {key : Key} {config : WrapperConfig}

/-- All texts of the configurations of a registry are closed. -/
def IsClosed (registry : Registry) : Prop := ∀ entry ∈ registry.entries, entry.2.IsClosed

/-- All texts of the configurations of a registry are single expressions. -/
def HoldsExpressions (registry : Registry) : Prop := ∀ entry ∈ registry.entries, entry.2.HoldsExpressions

/-- All texts of the configurations of a registry can stand in generated code. -/
def Fits (astray : Bool) (registry : Registry) : Prop := ∀ entry ∈ registry.entries, entry.2.Fits astray

theorem IsClosed.fits (h : registry.IsClosed) (astray : Bool) : registry.Fits astray :=
  fun entry hentry => (h entry hentry).fits astray

theorem HoldsExpressions.fits (h : registry.HoldsExpressions) : registry.Fits true :=
  fun entry hentry => (h entry hentry).fits

theorem find?_write_self : (registry.write key config).find? key = some config :=
  lookup_writeEntry_self key config registry.entries

theorem find?_write_of_ne {other : Key} (h : other ≠ key) :
    (registry.write key config).find? other = registry.find? other :=
  lookup_writeEntry_of_ne config registry.entries h

theorem find?_of_write {other : Key} (h : (registry.write key config).find? other = none) :
    registry.find? other = none := by
  by_cases hkey : other = key
  · rw [hkey, find?_write_self] at h
    cases h
  · rwa [find?_write_of_ne hkey] at h

theorem overlay_append (entries entries' : List (Key × WrapperConfig)) :
    registry.overlay (entries ++ entries') = (registry.overlay entries).overlay entries' :=
  List.foldl_append

theorem find?_of_overlay {entries : List (Key × WrapperConfig)} {other : Key}
    (h : (registry.overlay entries).find? other = none) : registry.find? other = none := by
  induction entries generalizing registry with
  | nil => exact h
  | cons entry entries ih => exact find?_of_write (ih h)

/-- A name that does not resolve after writes did not resolve before them. -/
theorem resolve_of_overlay {entries : List (Key × WrapperConfig)} {name : Option String}
    (h : (registry.overlay entries).resolve name = none) : registry.resolve name = none := by
  cases name with
  | none => rfl
  | some name =>
    simp only [resolve, Option.bind_some, Option.orElse_eq_orElse, Option.orElse_eq_or,
      Option.or_eq_none_iff] at h ⊢
    exact ⟨find?_of_overlay h.1, find?_of_overlay h.2⟩

theorem mem_writeEntry {entry : Key × WrapperConfig} {entries : List (Key × WrapperConfig)}
    (h : entry ∈ writeEntry key config entries) : entry ∈ entries ∨ entry.2 = config := by
  induction entries with
  | nil =>
    rw [writeEntry, List.mem_singleton] at h
    exact .inr (by rw [h])
  | cons first rest ih =>
    rw [writeEntry] at h
    split at h
    · rcases List.mem_cons.1 h with rfl | h
      · exact .inr rfl
      · exact .inl (List.mem_cons_of_mem _ h)
    · rcases List.mem_cons.1 h with rfl | h
      · exact .inl List.mem_cons_self
      · rcases ih h with h | h
        · exact .inl (List.mem_cons_of_mem _ h)
        · exact .inr h

section Forall

variable {P : WrapperConfig → Prop}

theorem forall_write (h : ∀ entry ∈ registry.entries, P entry.2) (hconfig : P config) :
    ∀ entry ∈ (registry.write key config).entries, P entry.2 := by
  intro entry hentry
  rcases mem_writeEntry hentry with hentry | hentry
  · exact h entry hentry
  · rw [hentry]
    exact hconfig

/-- What holds of all configurations of a registry holds after writes of which it holds. -/
theorem forall_overlay {entries : List (Key × WrapperConfig)} (h : ∀ entry ∈ registry.entries, P entry.2)
    (hentries : ∀ entry ∈ entries, P entry.2) : ∀ entry ∈ (registry.overlay entries).entries, P entry.2 := by
  induction entries generalizing registry with
  | nil => exact h
  | cons entry entries ih =>
    obtain ⟨hentry, hothers⟩ := List.forall_mem_cons.1 hentries
    exact ih (forall_write h hentry) hothers

theorem mem_of_find? (h : registry.find? key = some config) : ∃ entry ∈ registry.entries,
    entry.2 = config := by
  obtain ⟨entries⟩ := registry
  change entries.lookup key = some config at h
  induction entries with
  | nil => cases h
  | cons entry entries ih =>
    rw [List.lookup_cons] at h
    split at h
    · cases h
      exact ⟨entry, by simp, rfl⟩
    · obtain ⟨found, hfound, heq⟩ := ih h
      exact ⟨found, List.mem_cons_of_mem _ hfound, heq⟩

/-- What holds of all configurations of a registry holds of what a reference resolves to. -/
theorem of_resolve (h : ∀ entry ∈ registry.entries, P entry.2) {name : Option String}
    (hresolve : registry.resolve name = some config) : P config := by
  obtain ⟨name, rfl, hfound⟩ := Option.bind_eq_some_iff.1 hresolve
  have hentry : ∃ key, registry.find? key = some config := by
    rw [Option.orElse_eq_orElse, Option.orElse_eq_or, Option.or_eq_some_iff] at hfound
    rcases hfound with hfound | ⟨-, hfound⟩
    · exact ⟨_, hfound⟩
    · exact ⟨_, hfound⟩
  obtain ⟨key, hkey⟩ := hentry
  obtain ⟨entry, hentry, rfl⟩ := mem_of_find? hkey
  exact h entry hentry

end Forall

end Registry

end PropertyWrapper
