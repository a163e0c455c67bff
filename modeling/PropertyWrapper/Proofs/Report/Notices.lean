import Mathlib.Data.List.DropRight
import PropertyWrapper.Proofs.Expansion.Positions
import PropertyWrapper.Proofs.Report.Schema
import PropertyWrapper.Report.Reporter

/-!
# Structured reports over a run

A reporter hears of starts, sources and ends in any order. It keeps the sources and their records apart,
and both are always those since the last start, so that the summary of a report fits its records.

* `Notice`, `Reporter.told` : what a reporter hears, and what becomes of it;
* `sinceStart` : the sources since the last start;
* `told_structured` : a structured reporter keeps these and their records;
* `Json.IsConsistent` : a report whose summary counts its records;
* `reports_consistent` : all reports are consistent, and when they are valid.
-/

namespace PropertyWrapper.Report

open Files

/-! ## Notices -/

/-- What a reporter hears. -/
inductive Notice where
  | start (count : Nat)
  | result (path : String) (outcome : Outcome) (index total : Int)
  | complete

namespace Notice

/-- Whether a run starts. -/
def isStart : Notice → Bool
  | .start _ => true
  | _ => false

/-- The source that a notice is about. -/
def source? : Notice → Option SourceOutcome
  | .result path outcome _ _ => some (path, outcome)
  | _ => none

end Notice

/-- The sources since the last start. -/
def sinceStart (notices : List Notice) : List SourceOutcome :=
  (notices.rtakeWhile fun notice => !notice.isStart).filterMap Notice.source?

theorem sinceStart_concat (notices : List Notice) (notice : Notice) :
    sinceStart (notices ++ [notice])
      = if notice.isStart then [] else sinceStart notices ++ notice.source?.toList := by
  rw [sinceStart, List.rtakeWhile_concat]
  cases notice <;> simp [Notice.isStart, Notice.source?, sinceStart]

namespace Reporter

/-- The reporter after a notice. The end of a run leaves it as it is. -/
def after (reporter : Reporter) : Notice → Reporter
  | .start count => (reporter.start count).1
  | .result path outcome index total => (reporter.addSource path outcome index total).1
  | .complete => reporter

/-- The reporter after notices in order. -/
def told (reporter : Reporter) (notices : List Notice) : Reporter := notices.foldl after reporter

theorem told_concat (reporter : Reporter) (notices : List Notice) (notice : Notice) :
    reporter.told (notices ++ [notice]) = (reporter.told notices).after notice :=
  List.foldl_append

/-- A structured reporter keeps the sources since the last start, and their records. -/
theorem told_structured (path : Option String) (notices : List Notice) :
    told { format := .structured path } notices
      = { format := .structured path
          sources := sinceStart notices
          records := (sinceStart notices).map ofSource } := by
  -- From the last notice on, as a start discards what was heard before it.
  induction notices using List.reverseRecOn with
  | nil => rfl
  | append_singleton notices notice ih =>
    rw [told_concat, ih, sinceStart_concat]
    cases notice with
    | start count => rfl
    | result path outcome index total => simp [after, addSource, Notice.isStart, Notice.source?]
    | complete => simp [after, Notice.isStart, Notice.source?]

end Reporter

/-! ## Reading of reports -/

namespace Json

/-- The member of an object with a name. -/
def member? (value : Json) (name : String) : Option Json :=
  match value with
  | .object members => members.lookup name
  | _ => none

/-- The items of the array under a name. -/
def itemsAt (value : Json) (name : String) : List Json :=
  match value.member? name with
  | some (.array items) => items
  | _ => []

/-- The number under a name. -/
def numberAt? (value : Json) (name : String) : Option Int :=
  match value.member? name with
  | some (.int number) => some number
  | _ => none

/-- Whether the flag under a name is set. -/
def isTrueAt (value : Json) (name : String) : Bool :=
  match value.member? name with
  | some (.bool flag) => flag
  | _ => false

/-- The records of a report. -/
def records (report : Json) : List Json := report.itemsAt "sources"

/-- The number under a name in the summary of a report. -/
def summaryNumber? (report : Json) (name : String) : Option Int :=
  (report.member? "summary").bind (·.numberAt? name)

/-- The summary of a report counts its records. -/
structure IsConsistent (report : Json) : Prop where
  total : report.summaryNumber? "total" = some report.records.length
  changed : report.summaryNumber? "changed" = some (report.records.countP (·.isTrueAt "changed"))
  expanded : report.summaryNumber? "expanded"
    = some (report.records.map fun record => (record.numberAt? "expanded").getD 0).sum
  generated : report.summaryNumber? "generated"
    = some (report.records.map fun record => (record.itemsAt "configs").length).sum
  diagnostics : report.summaryNumber? "diagnostics"
    = some (report.records.map fun record => (record.itemsAt "diagnostics").length).sum

end Json

theorem records_reportOf (time : String) (sources : List SourceOutcome) (records : List Json) :
    (reportOf time sources records).records = records := rfl

theorem foldl_expanded (sources : List SourceOutcome) (start : Int) :
    sources.foldl (fun total source => total + source.2.expanded) start
      = start + (sources.map fun source => source.2.expanded).sum := by
  induction sources generalizing start with
  | nil => simp
  | cons source rest ih => rw [List.foldl_cons, ih, List.map_cons, List.sum_cons, Int.add_assoc]

/-- A report on sources with their own records is consistent. -/
theorem isConsistent_reportOf (time : String) (sources : List SourceOutcome) :
    (reportOf time sources (sources.map ofSource)).IsConsistent where
  total := by
    rw [records_reportOf, List.length_map]
    rfl
  changed := by
    rw [records_reportOf, List.countP_map]
    rfl
  expanded := by
    rw [records_reportOf, List.map_map]
    change some (sources.foldl (fun total source => total + source.2.expanded) 0) = _
    rw [foldl_expanded, Int.zero_add]
    rfl
  generated := by
    rw [records_reportOf, List.map_map]
    change some ((sources.flatMap (·.2.configs)).length : Int) = _
    rw [List.length_flatMap]
    simp [Function.comp_def, ofSource, Json.itemsAt, Json.member?, List.lookup_cons]
  diagnostics := by
    rw [records_reportOf, List.map_map]
    change some ((sources.flatMap (·.2.diagnostics)).length : Int) = _
    rw [List.length_flatMap]
    simp [Function.comp_def, ofSource, Json.itemsAt, Json.member?, List.lookup_cons]

/-! ## Ends of runs -/

/-- What a structured reporter does at the end of a run over some sources. -/
structure Reporter.EndsRun (reporter : Reporter) (path : Option String) (sources : List SourceOutcome)
    (time : String) (folder : Folder) : Prop where
  records : (reporter.report time).records = sources.map ofSource
  consistent : (reporter.report time).IsConsistent
  /-- The report is valid if no diagnostic stands on a negative line or column. -/
  admitted : reportSchema.Admits (reporter.report time)
    ↔ ∀ source ∈ sources, ∀ diagnostic ∈ source.2.diagnostics, diagnostic.IsPlaced
  /-- Only then it is not refused. -/
  refused : (∃ fault, reporter.complete time folder = .error (.invalid fault))
    ↔ ∃ source ∈ sources, ∃ diagnostic ∈ source.2.diagnostics,
        diagnostic.line < 0 ∨ diagnostic.column < 0
  /-- What is written is the report. -/
  written : ∀ folder' lines, reporter.complete time folder = .ok (folder', lines) →
    (path = none ∧ folder' = folder ∧ lines = [(reporter.report time).pretty])
      ∨ ∃ file, path = some file ∧ Reporter.save folder file (reporter.report time).pretty = .ok folder'

namespace Reporter

variable {path : Option String} {reporter : Reporter} {time : String} {folder : Folder}

/-- The end of a run writes a valid report to the error stream if there is no path. -/
theorem complete_of_admits_none (h : reporter.format = .structured none)
    (hadmits : reportSchema.Admits (reporter.report time)) :
    reporter.complete time folder = .ok (folder, [(reporter.report time).pretty]) := by
  have hvalid : validated (reporter.report time) = .ok (reporter.report time) :=
    validated_eq_ok_iff.2 ⟨hadmits, rfl⟩
  rw [complete, h]
  dsimp only
  rw [hvalid]
  rfl

/-- The end of a run writes a valid report to the file at a path. -/
theorem complete_of_admits_some {file : String} (h : reporter.format = .structured (some file))
    (hadmits : reportSchema.Admits (reporter.report time)) :
    reporter.complete time folder
      = ((save folder file (reporter.report time).pretty).mapError (.ofPath file) >>= fun folder =>
        .ok (folder, ["JSON report written to " ++ file])) := by
  have hvalid : validated (reporter.report time) = .ok (reporter.report time) :=
    validated_eq_ok_iff.2 ⟨hadmits, rfl⟩
  rw [complete, h]
  dsimp only
  rw [hvalid]
  dsimp only [Except.mapError, bind, Except.bind, pure, Except.pure]

/-- The end of a run refuses a report that is not valid. -/
theorem complete_of_not_admits (h : reporter.format = .structured path)
    (hadmits : ¬ reportSchema.Admits (reporter.report time)) :
    ∃ fault, reporter.complete time folder = .error (.invalid fault) := by
  cases hvalid : validated (reporter.report time) with
  | ok report =>
    obtain ⟨hadmitted, rfl⟩ := validated_eq_ok_iff.1 hvalid
    exact absurd hadmitted hadmits
  | error fault =>
    refine ⟨fault, ?_⟩
    rw [complete, h]
    dsimp only
    rw [hvalid]
    rfl

theorem ofPath_ne_invalid (path : String) (error : PathError) (fault : Fault) :
    ReportError.ofPath path error ≠ .invalid fault := by
  rw [ReportError.ofPath]
  split <;> nofun

theorem invalid_iff (h : reporter.format = .structured path) :
    (∃ fault, reporter.complete time folder = .error (.invalid fault))
      ↔ ¬ reportSchema.Admits (reporter.report time) := by
  refine ⟨?_, complete_of_not_admits h⟩
  rintro ⟨fault, hcomplete⟩ hadmits
  cases path with
  | none =>
    rw [complete_of_admits_none h hadmits] at hcomplete
    cases hcomplete
  | some file =>
    rw [complete_of_admits_some h hadmits] at hcomplete
    cases hsave : save folder file (reporter.report time).pretty with
    | ok folder' =>
      rw [hsave] at hcomplete
      cases hcomplete
    | error error =>
      rw [hsave] at hcomplete
      exact ofPath_ne_invalid _ _ _ (Except.error.inj hcomplete)

/-- What is written at the end of a run is the report. -/
theorem written_of_complete (h : reporter.format = .structured path) {folder' : Folder}
    {lines : List String} (hcomplete : reporter.complete time folder = .ok (folder', lines)) :
    (path = none ∧ folder' = folder ∧ lines = [(reporter.report time).pretty])
      ∨ ∃ file, path = some file ∧ save folder file (reporter.report time).pretty = .ok folder' := by
  by_cases hadmits : reportSchema.Admits (reporter.report time)
  · cases path with
    | none =>
      rw [complete_of_admits_none h hadmits] at hcomplete
      cases hcomplete
      exact .inl ⟨rfl, rfl, rfl⟩
    | some file =>
      rw [complete_of_admits_some h hadmits] at hcomplete
      obtain ⟨saved, hsave, heq⟩ := bind_eq_ok_iff.1 hcomplete
      cases heq
      exact .inr ⟨file, rfl, mapError_eq_ok_iff.1 hsave⟩
  · obtain ⟨fault, hfault⟩ := complete_of_not_admits h hadmits
    rw [hfault] at hcomplete
    cases hcomplete

/-- The end of a run over sources that were kept with their records. -/
theorem endsRun (path : Option String) (sources : List SourceOutcome) (time : String) (folder : Folder) :
    EndsRun { format := .structured path, sources, records := sources.map ofSource } path sources time
      folder := by
  have hadmitted : reportSchema.Admits (reportOf time sources (sources.map ofSource))
      ↔ ∀ source ∈ sources, ∀ diagnostic ∈ source.2.diagnostics, diagnostic.IsPlaced := by
    simp only [admits_reportOf_iff, List.forall_mem_map, admits_ofSource_iff, Diagnostic.IsPlaced]
  refine ⟨rfl, isConsistent_reportOf time sources, hadmitted, ?_, fun _ _ => written_of_complete rfl⟩
  rw [invalid_iff rfl]
  refine (not_congr hadmitted).trans ?_
  simp only [Diagnostic.IsPlaced, not_forall, exists_prop, not_and_or, not_le]

end Reporter

/-- At every end of a run the report is consistent with the sources since the last start, and it is
refused exactly if a diagnostic of them stands on a negative line or column. No expansion gives such a
diagnostic. -/
theorem reports_consistent (path : Option String) (notices : List Notice) (time : String)
    (folder : Folder) :
    (Reporter.told { format := .structured path } notices).EndsRun path (sinceStart notices) time folder
      ∧ ∀ registry filename source outcome,
        (expandSource registry filename source).result = .ok outcome →
        ∀ diagnostic ∈ outcome.diagnostics, diagnostic.IsPlaced := by
  refine ⟨?_, fun registry filename source outcome => placed_of_expandSource⟩
  rw [Reporter.told_structured]
  exact Reporter.endsRun path (sinceStart notices) time folder

end PropertyWrapper.Report
