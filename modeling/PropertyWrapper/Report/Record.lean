import PropertyWrapper.Expansion.Module
import PropertyWrapper.Report.Schema

/-!
# Structured reports

A structured report lists one record for each source and a summary of them. It is only written if it
has the form of reports.
-/

namespace PropertyWrapper.Report

/-- The outcome of a source with its path. -/
abbrev SourceOutcome := String × Outcome

/-! ## Records -/

/-- A fact's value. -/
def ofFactValue : FactValue → Json
  | .flag value => .bool value
  | .text value => .text value

/-- The record of a generated configuration. -/
def ofConfig (declaration : ConfigDeclaration) : Json :=
  .object [
    ("name", .text declaration.name),
    ("wrapper", .text declaration.wrapper),
    ("facts", .object (declaration.config.facts.map fun (field, value) =>
      (field.name, ofFactValue value)))]

/-- The record of a diagnostic. -/
def ofDiagnostic (diagnostic : Diagnostic) : Json :=
  .object [
    ("id", .text diagnostic.qualifiedWord),
    ("message", .text diagnostic.message),
    ("severity", .text Diagnostic.severity),
    ("attribute", diagnostic.attributeName.elim .null (.text ·)),
    ("line", .int diagnostic.line),
    ("column", .int diagnostic.column)]

/-- The record of a source. -/
def ofSource (source : SourceOutcome) : Json :=
  let (path, outcome) := source
  .object [
    ("path", .text path),
    ("ok", .bool outcome.isOk),
    ("changed", .bool outcome.changed),
    ("expanded", .int outcome.expanded),
    ("configs", .array (outcome.configs.map ofConfig)),
    ("diagnostics", .array (outcome.diagnostics.map ofDiagnostic))]

/-! ## Summaries -/

/-- The totals over several sources. -/
structure Summary where
  total : Nat
  changed : Nat
  expanded : Int
  generated : Nat
  diagnostics : Nat
deriving DecidableEq, Repr

/-- The totals over a list of sources. -/
def Summary.of (sources : List SourceOutcome) : Summary where
  total := sources.length
  changed := sources.countP (·.2.changed)
  expanded := sources.foldl (fun total source => total + source.2.expanded) 0
  generated := (sources.flatMap (·.2.configs)).length
  diagnostics := (sources.flatMap (·.2.diagnostics)).length

/-- The record of a summary. -/
def ofSummary (summary : Summary) : Json :=
  .object [
    ("total", .int summary.total),
    ("changed", .int summary.changed),
    ("expanded", .int summary.expanded),
    ("generated", .int summary.generated),
    ("diagnostics", .int summary.diagnostics)]

/-! ## Reports -/

/-- The form of the record of a diagnostic. -/
def diagnosticSchema : Schema :=
  .object ["id", "message", "severity", "line", "column"] [
    ("attribute", .optionalText),
    ("column", .natural),
    ("id", .text),
    ("line", .natural),
    ("message", .text),
    ("severity", .word ["error"])]

/-- The form of the record of a configuration. -/
def configSchema : Schema :=
  .object ["name", "wrapper", "facts"] [
    ("facts", .anyObject),
    ("name", .text),
    ("wrapper", .text)]

/-- The form of the record of a source. -/
def sourceSchema : Schema :=
  .object ["path", "ok", "changed", "expanded", "configs", "diagnostics"] [
    ("changed", .flag),
    ("configs", .array configSchema),
    ("diagnostics", .array diagnosticSchema),
    ("expanded", .integer),
    ("ok", .flag),
    ("path", .text)]

/-- The form of the record of a summary. -/
def summarySchema : Schema :=
  .object ["total", "changed", "expanded", "generated", "diagnostics"] [
    ("changed", .integer),
    ("diagnostics", .integer),
    ("expanded", .integer),
    ("generated", .integer),
    ("total", .integer)]

/-- The form of reports. The properties of an object stand in the order of their names, in which faults
count. -/
def reportSchema : Schema :=
  .object ["schema_version", "generated_at", "summary", "sources"] [
    ("generated_at", .text),
    ("schema_version", .text),
    ("sources", .array sourceSchema),
    ("summary", summarySchema)]

/-- The report on a list of sources with their records, written at a time. -/
def reportOf (time : String) (sources : List SourceOutcome) (records : List Json) : Json :=
  .object [
    ("schema_version", .text "1.0.0"),
    ("generated_at", .text time),
    ("summary", ofSummary (.of sources)),
    ("sources", .array records)]

/-- A report that has the form of reports. Of several faults the last one is named. -/
def validated (report : Json) : Except Fault Json :=
  match (reportSchema.faults report).getLast? with
  | some fault => .error fault
  | none => .ok report

end PropertyWrapper.Report
