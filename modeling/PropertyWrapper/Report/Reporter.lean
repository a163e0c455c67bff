import PropertyWrapper.Files.Folder
import PropertyWrapper.Report.Record
import PropertyWrapper.Report.Terminal

/-!
# Reporters

A reporter is told when a run starts, about each source, and when the run is complete. A terminal
reporter writes lines at each step; a structured one writes a single record at the end, to the error
stream or to a file.
-/

namespace PropertyWrapper.Report

open Files Text

/-! ## Formats -/

/-- How a reporter writes. -/
inductive Format where
  | terminal (useColour : Bool)
  /-- A record, in a file if there is a path. -/
  | structured (path : Option String)
deriving DecidableEq, Repr

/-- A format that no reporter has. -/
structure UnsupportedFormat where
  name : String
deriving DecidableEq, Repr

/-- The explanation of an unsupported format. -/
def UnsupportedFormat.message (error : UnsupportedFormat) : String :=
  "Unsupported report format '" ++ error.name ++ "'"

/-- The names of the formats. -/
def formatNames : List String := ["terminal", "json"]

/-- The format with a name. An empty path is no path, and only a structured report has one. -/
def Format.named (name : String) (path : Option String) (useColour : Bool) :
    Except UnsupportedFormat Format :=
  if name = "json" then .ok (.structured ((path.filter (· ≠ "")).map normalPath))
  else if name = "terminal" then .ok (.terminal useColour)
  else .error ⟨name⟩

/-! ## Reporters -/

/-- A reporter with the sources that it was told about. -/
structure Reporter where
  format : Format
  sources : List SourceOutcome := []
  /-- The records of a structured report, each made when its source was reported. -/
  records : List Json := []

/-- Why a report cannot be completed. -/
inductive ReportError where
  | invalid (fault : Fault)
  | unwritable (path : String) (error : PathError)
  | impossiblePath (error : PathError)

/-- The explanation of a failure. -/
def ReportError.message : ReportError → String
  | .invalid fault => fault.message
  | .unwritable path error => "Failed to write JSON report to " ++ path ++ ": " ++ error.message
  | .impossiblePath error => error.message

/-- The failure that a path of a report stands for. -/
def ReportError.ofPath (path : String) (error : PathError) : ReportError :=
  if error.fault = .zeroCharacter then .impossiblePath error else .unwritable path error

namespace Reporter

/-- The reporter at the start of a run over a number of sources, and the lines that it writes. -/
def start (reporter : Reporter) (count : Nat) : Reporter × List String :=
  ({ reporter with sources := [], records := [] },
    match reporter.format with
    | .terminal useColour => [startLine useColour count]
    | .structured _ => [])

/-- The reporter after a source, the given one of a total, and the lines that it writes. -/
def addSource (reporter : Reporter) (path : String) (outcome : Outcome) (index total : Int) :
    Reporter × List String :=
  let reporter := { reporter with sources := reporter.sources ++ [(path, outcome)] }
  match reporter.format with
  | .terminal useColour =>
    (reporter, outcome.diagnostics.map (diagnosticLine useColour)
      ++ [sourceLine useColour path outcome index total])
  | .structured _ =>
    ({ reporter with records := reporter.records ++ [ofSource (path, outcome)] }, [])

/-- The structured report on the sources so far. -/
def report (reporter : Reporter) (time : String) : Json :=
  reportOf time reporter.sources reporter.records

/-- The folder after a report was written to a file. -/
def save (folder : Folder) (path text : String) : Except PathError Folder := do
  (← folder.makeDirectories (parentPath path)).write path (encodeUtf8 text)

/-- The folder after the end of a run, and the lines that the reporter writes. -/
def complete (reporter : Reporter) (time : String) (folder : Folder) :
    Except ReportError (Folder × List String) := do
  match reporter.format with
  | .terminal useColour => return (folder, [summaryLine useColour (reporter.sources.map (·.2))])
  | .structured path =>
    let text := (← (validated (reporter.report time)).mapError .invalid).pretty
    match path with
    | none => return (folder, [text])
    | some path =>
      let folder ← (save folder path text).mapError (.ofPath path)
      return (folder, ["JSON report written to " ++ path])

end Reporter

end PropertyWrapper.Report
