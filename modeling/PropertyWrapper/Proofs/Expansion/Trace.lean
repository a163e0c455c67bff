import PropertyWrapper.Expansion.Trace
import PropertyWrapper.Proofs.Result

/-!
# Steps of a trace

A sequence of traces that gives a value gives one in each of its steps, and its events are those of the
steps in order.

* `Trace.bind_of_ok` : a sequence whose first trace gives a value;
* `Trace.result_bind` : the steps of a sequence that gives a value;
* `Trace.result_bind_iff` : a sequence gives a value when both of its steps do;
* `Trace.result_printing` : a trace that only writes a part of the source.
-/

namespace PropertyWrapper.Trace

variable {α β : Type}

@[simp] theorem events_pure (a : α) : (pure a : Trace α).events = [] := rfl

@[simp] theorem events_printing (result : Except Source.PrintError α) :
    (printing result).events = [] := rfl

@[simp] theorem events_note (event : Event) : (note event).events = [event] := rfl

@[simp] theorem events_ofResult (result : Except ExpansionError α) :
    (ofResult result).events = [] := rfl

/-- A sequence whose first trace gives a value. -/
theorem bind_of_ok {trace : Trace α} {next : α → Trace β} {a : α} (h : trace.result = .ok a) :
    trace >>= next = ⟨trace.events ++ (next a).events, (next a).result⟩ := by
  change trace.andThen next = _
  rw [andThen, h]

/-- The steps of a sequence that gives a value. -/
theorem result_bind {trace : Trace α} {next : α → Trace β} {b : β}
    (h : (trace >>= next).result = .ok b) :
    ∃ a, trace.result = .ok a ∧ (next a).result = .ok b
      ∧ (trace >>= next).events = trace.events ++ (next a).events := by
  have hsteps : ∃ a, trace.result = .ok a ∧ (next a).result = .ok b := by
    change (trace.andThen next).result = _ at h
    rw [andThen] at h
    split at h
    · rename_i a ha
      exact ⟨a, ha, h⟩
    · cases h
  obtain ⟨a, ha, hb⟩ := hsteps
  exact ⟨a, ha, hb, by rw [bind_of_ok ha]⟩

/-- A sequence gives a value when both of its steps do. -/
theorem result_bind_iff {trace : Trace α} {next : α → Trace β} {b : β} :
    (trace >>= next).result = .ok b ↔ ∃ a, trace.result = .ok a ∧ (next a).result = .ok b := by
  constructor
  · intro h
    obtain ⟨a, ha, hb, -⟩ := result_bind h
    exact ⟨a, ha, hb⟩
  · rintro ⟨a, ha, hb⟩
    rw [bind_of_ok ha]
    exact hb

theorem result_printing {result : Except Source.PrintError α} {a : α} :
    (printing result).result = .ok a ↔ result = .ok a :=
  mapError_eq_ok_iff

end PropertyWrapper.Trace
