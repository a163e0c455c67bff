import PropertyWrapper.Report.Record

/-!
# Values that schemas admit

A value without faults is one that its schema admits. The record of a source is admitted exactly if no
diagnostic in it stands on a negative line or column.

* `Schema.Admits` : the values that a schema admits;
* `Schema.faults_eq_nil_iff` : these are the values without faults;
* `admits_ofSource_iff`, `admits_reportOf_iff` : the records and reports that are admitted.
-/

namespace PropertyWrapper.Report

/-- A value has the form that a schema says. -/
inductive Schema.Admits : Schema → Json → Prop where
  | text (value : Text.LooseText) : Admits .text (.text value)
  | someText (value : Text.LooseText) : Admits .optionalText (.text value)
  | noText : Admits .optionalText .null
  | word {words : List String} {value : String} (hmem : value ∈ words) :
      Admits (.word words) (.text value)
  | flag (value : Bool) : Admits .flag (.bool value)
  | integer (value : Int) : Admits .integer (.int value)
  | natural {value : Int} (hle : 0 ≤ value) : Admits .natural (.int value)
  | anyObject (members : List (String × Json)) : Admits .anyObject (.object members)
  | array {schema : Schema} {items : List Json} (hitems : ∀ item ∈ items, Admits schema item) :
      Admits (.array schema) (.array items)
  | object {required : List String} {properties : List (String × Schema)} {members : List (String × Json)}
      (hrequired : ∀ name ∈ required, (members.lookup name).isSome)
      (hproperties : ∀ property ∈ properties, ∀ value, members.lookup property.1 = some value →
        Admits property.2 value) :
      Admits (.object required properties) (.object members)

namespace Schema

/-! ## Forms -/

@[simp] theorem admits_text (value : Text.LooseText) : Schema.text.Admits (.text value) := .text value

@[simp] theorem admits_someText (value : Text.LooseText) : optionalText.Admits (.text value) := .someText value

@[simp] theorem admits_noText : optionalText.Admits .null := .noText

@[simp] theorem admits_flag (value : Bool) : flag.Admits (.bool value) := .flag value

@[simp] theorem admits_integer (value : Int) : integer.Admits (.int value) := .integer value

@[simp] theorem admits_anyObject (members : List (String × Json)) : anyObject.Admits (.object members) :=
  .anyObject members

@[simp] theorem admits_word {words : List String} {value : String} :
    (Schema.word words).Admits (.text value) ↔ value ∈ words := by
  constructor
  · rintro ⟨⟩
    assumption
  · exact .word

@[simp] theorem admits_natural {value : Int} : natural.Admits (.int value) ↔ 0 ≤ value := by
  constructor
  · rintro ⟨⟩
    assumption
  · exact .natural

@[simp] theorem admits_array {schema : Schema} {items : List Json} :
    (array schema).Admits (.array items) ↔ ∀ item ∈ items, schema.Admits item := by
  constructor
  · rintro ⟨⟩
    assumption
  · exact .array

theorem admits_object {required : List String} {properties : List (String × Schema)}
    {members : List (String × Json)} :
    (object required properties).Admits (.object members)
      ↔ (∀ name ∈ required, (members.lookup name).isSome)
        ∧ ∀ property ∈ properties, ∀ value, members.lookup property.1 = some value →
          property.2.Admits value := by
  constructor
  · rintro ⟨⟩
    exact ⟨‹_›, ‹_›⟩
  · rintro ⟨hrequired, hproperties⟩
    exact .object hrequired hproperties

/-! ## Faults -/

theorem absentNames_eq_nil_iff {members : List (String × Json)} {names : List String} :
    absentNames members names = [] ↔ ∀ name ∈ names, (members.lookup name).isSome := by
  rw [absentNames, List.filter_eq_nil_iff]
  simp only [Option.isNone_iff_eq_none, Option.isSome_iff_ne_none]

mutual

/-- The values without faults are those that a schema admits. -/
theorem faults_eq_nil_iff : ∀ (schema : Schema) (value : Json),
    schema.faults value = [] ↔ schema.Admits value
  | .array schema, .array items => by
    rw [faults, List.flatMap_eq_nil_iff, admits_array]
    simp only [faults_eq_nil_iff schema]
  | .object required properties, .object members => by
    rw [faults, List.append_eq_nil_iff, List.map_eq_nil_iff, absentNames_eq_nil_iff,
      propertiesFaults_eq_nil_iff members properties, admits_object]
  | .word words, .text (.whole value) => by
    rw [faults, admits_word]
    split <;> simp_all
  | .word words, .text (.broken value holds) => by
    rw [faults]
    exact iff_of_false (by simp) (by rintro ⟨⟩)
  | .natural, .int value => by
    rw [faults, admits_natural]
    split <;> simp_all
  | .text, .text value => iff_of_true (by rw [faults]) (.text value)
  | .optionalText, .text value => iff_of_true (by rw [faults]) (.someText value)
  | .optionalText, .null => iff_of_true (by rw [faults]) .noText
  | .flag, .bool value => iff_of_true (by rw [faults]) (.flag value)
  | .integer, .int value => iff_of_true (by rw [faults]) (.integer value)
  | .anyObject, .object members => iff_of_true (by rw [faults]) (.anyObject members)
  -- In all other cases the value has a wrong type.
  | .text, .null | .text, .bool _ | .text, .int _ | .text, .array _ | .text, .object _
  | .optionalText, .bool _ | .optionalText, .int _ | .optionalText, .array _ | .optionalText, .object _
  | .word _, .null | .word _, .bool _ | .word _, .int _ | .word _, .array _ | .word _, .object _
  | .flag, .null | .flag, .int _ | .flag, .text _ | .flag, .array _ | .flag, .object _
  | .integer, .null | .integer, .bool _ | .integer, .text _ | .integer, .array _ | .integer, .object _
  | .natural, .null | .natural, .bool _ | .natural, .text _ | .natural, .array _ | .natural, .object _
  | .anyObject, .null | .anyObject, .bool _ | .anyObject, .int _ | .anyObject, .text _
  | .anyObject, .array _
  | .array _, .null | .array _, .bool _ | .array _, .int _ | .array _, .text _ | .array _, .object _
  | .object _ _, .null | .object _ _, .bool _ | .object _ _, .int _ | .object _ _, .text _
  | .object _ _, .array _ => iff_of_false (by simp [faults]) nofun

theorem propertiesFaults_eq_nil_iff (members : List (String × Json)) :
    ∀ properties : List (String × Schema), propertiesFaults members properties = []
      ↔ ∀ property ∈ properties, ∀ value,
        members.lookup property.1 = some value → property.2.Admits value
  | [] => by simp [propertiesFaults]
  | property :: rest => by
    rw [propertiesFaults, List.append_eq_nil_iff, propertyFaults_eq_nil_iff members property,
      propertiesFaults_eq_nil_iff members rest, List.forall_mem_cons]

theorem propertyFaults_eq_nil_iff (members : List (String × Json)) :
    ∀ property : String × Schema, propertyFaults members property = []
      ↔ ∀ value, members.lookup property.1 = some value → property.2.Admits value
  | (name, schema) => by
    rw [propertyFaults]
    cases members.lookup name with
    | none => simp
    | some value => simp [faults_eq_nil_iff schema value]

end

end Schema

/-! ## Records -/

open Schema

/-- An optional text has the form of one. -/
theorem admits_elim_text (value : Option String) : optionalText.Admits (value.elim .null (.text ·)) := by
  cases value <;> simp

/-- The record of a diagnostic is admitted if its line and column are not negative. -/
theorem admits_ofDiagnostic_iff {diagnostic : Diagnostic} :
    diagnosticSchema.Admits (ofDiagnostic diagnostic)
      ↔ 0 ≤ diagnostic.line ∧ 0 ≤ diagnostic.column := by
  simp [diagnosticSchema, ofDiagnostic, admits_object, List.lookup_cons, admits_elim_text,
    Diagnostic.severity, and_comm]

theorem admits_ofConfig (declaration : ConfigDeclaration) : configSchema.Admits (ofConfig declaration) := by
  simp [configSchema, ofConfig, admits_object, List.lookup_cons]

/-- The record of a source is admitted if those of its diagnostics are. -/
theorem admits_ofSource_iff {source : SourceOutcome} :
    sourceSchema.Admits (ofSource source)
      ↔ ∀ diagnostic ∈ source.2.diagnostics, 0 ≤ diagnostic.line ∧ 0 ≤ diagnostic.column := by
  simp [sourceSchema, ofSource, admits_object, List.lookup_cons, admits_ofConfig, admits_ofDiagnostic_iff]

theorem admits_ofSummary (summary : Summary) : summarySchema.Admits (ofSummary summary) := by
  simp [summarySchema, ofSummary, admits_object, List.lookup_cons]

/-- A report is admitted if all its records are. -/
theorem admits_reportOf_iff {time : String} {sources : List SourceOutcome} {records : List Json} :
    reportSchema.Admits (reportOf time sources records)
      ↔ ∀ record ∈ records, sourceSchema.Admits record := by
  simp [reportSchema, reportOf, admits_object, List.lookup_cons, admits_ofSummary]

/-- A report is valid if it is admitted. -/
theorem validated_eq_ok_iff {report found : Json} :
    validated report = .ok found ↔ reportSchema.Admits report ∧ found = report := by
  rw [← faults_eq_nil_iff, validated]
  cases hlast : (reportSchema.faults report).getLast? with
  | none => simp [List.getLast?_eq_none_iff.1 hlast, eq_comm]
  | some fault =>
    have hne : reportSchema.faults report ≠ [] := by
      intro hnil
      rw [hnil] at hlast
      cases hlast
    simp [hne]

end PropertyWrapper.Report
