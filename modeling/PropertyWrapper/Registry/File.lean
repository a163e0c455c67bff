import PropertyWrapper.Document.Construction
import PropertyWrapper.Model.Mapping
import PropertyWrapper.Registry.Basic
import PropertyWrapper.Text.Blank

/-!
# Registry files

A registry file is a document with the wrappers to register and a flag for the built-in ones. All
violations of its form are reported at once, ordered by the paths to them.
-/

namespace PropertyWrapper

open Document Number Sorting Text

/-! ## Violations -/

/-- What a part of a registry file violates. -/
inductive Violation where
  | missing (name : String)
  /-- Keys that are not allowed, in the order of their plain forms. -/
  | unexpected (keys : List Scalar)
  /-- A value that is of none of the types. -/
  | wrongType (value : Value) (types : List String)
  | badName (name : Scalar)
  | emptyText
deriving Inhabited

/-- The form of wrapper names: names joined by points. -/
def namePattern : String := "^[A-Za-z_][A-Za-z0-9_]*(\\.[A-Za-z_][A-Za-z0-9_]*)*$"

/-- The explanation of a violation. -/
def Violation.message : Violation → String
  | .missing name => quoted name ++ " is a required property"
  | .unexpected keys =>
    "Additional properties are not allowed (" ++ String.intercalate ", " (keys.map Scalar.literal)
      ++ (if keys.length = 1 then " was" else " were") ++ " unexpected)"
  | .wrongType value types =>
    value.literal ++ " is not of type " ++ String.intercalate ", " (types.map quoted)
  | .badName name => name.literal ++ " does not match " ++ quoted namePattern
  | .emptyText => quoted "" ++ " should be non-empty"

/-- Whether the explanation of a violation needs an integer with too many digits. -/
def Violation.isTooLong : Violation → Bool
  | .unexpected keys => keys.any Scalar.isTooLong
  | .wrongType value _ => value.hasLongInteger
  | _ => false

/-- A violation with the path to the part that it is about. -/
structure Finding where
  path : List Scalar
  violation : Violation

/-- The path and the explanation of a finding. -/
def Finding.message (finding : Finding) : LooseText :=
  let path := LooseText.join "/" (finding.path.map Scalar.plain)
  (if path = "" then LooseText.whole "root" else path)
    ++ LooseText.whole (": " ++ finding.violation.message)

/-! ## Form -/

/-- The types of fields. -/
inductive FieldType where
  | flag | text
deriving DecidableEq, Repr

/-- The type of a field. -/
def Field.type : Field → FieldType
  | .wrappedIsSettable | .projectedIsSettable | .isReference => .flag
  | .wrapperType | .projectedType => .text

/-- The fields in the order in which they are checked. -/
def Field.checked : List Field :=
  [.wrappedIsSettable, .projectedIsSettable, .isReference, .wrapperType, .projectedType]

/-- The key of the built-in wrappers' flag. -/
def builtinsKey : Scalar := .text "include_builtins"

/-- The key of the wrappers. -/
def wrappersKey : Scalar := .text "wrappers"

/-- Whether characters are a name of ASCII letters, digits and underscores. -/
def isAsciiName : List Char → Bool
  | [] => false
  | c :: rest => (c.isAlpha || c = '_') && rest.all fun c => c.isAlphanum || c = '_'

/-- Whether a text has the form of wrapper names; a line break at its end does not count. -/
def isWrapperName (name : String) : Bool :=
  let chars := name.toList
  let chars := if chars.getLast? = some '\n' then chars.dropLast else chars
  (splitAt '.' chars).all isAsciiName

/-- What keys beyond the allowed ones violate. -/
def unexpectedKeys (isAllowed : Scalar → Bool) (entries : List (Scalar × Value)) :
    List Violation :=
  match (entries.map (·.1)).filter fun key => !isAllowed key with
  | [] => []
  | keys => [.unexpected (sortStably (fun a b => a.plain.precedes b.plain) keys)]

/-- What the value of a flag violates. -/
def flagViolations : Value → List Violation
  | .scalar (.bool _) => []
  | value => [.wrongType value ["boolean"]]

/-- What the value of a type violates. -/
def textViolations : Value → List Violation
  | .scalar (.text text) => if text = "" then [.emptyText] else []
  | .scalar (.brokenText _) => []
  | value => [.wrongType value ["string"]]

/-- What the value of a field violates. -/
def Field.violations (field : Field) (value : Value) : List Violation :=
  match field.type with
  | .flag => flagViolations value
  | .text => textViolations value

/-- The findings in a wrapper's entry. -/
def wrapperFindings (path : List Scalar) : Value → List Finding
  | .scalar .null => []
  | .mapping entries =>
    (unexpectedKeys isFieldKey entries).map (⟨path, ·⟩)
      ++ Field.checked.flatMap fun field =>
        match fieldValue? entries field with
        | some value => (field.violations value).map (⟨path ++ [.text field.name], ·⟩)
        | none => []
  | value => [⟨path, .wrongType value ["object", "null"]⟩]

/-- What the name of a wrapper violates; only texts have a form. -/
def nameViolations : Scalar → List Violation
  | .text name => if isWrapperName name then [] else [.badName (.text name)]
  | .brokenText name => [.badName (.brokenText name)]
  | _ => []

/-- The findings in the wrappers of a file. -/
def wrappersFindings : Value → List Finding
  | .mapping entries =>
    entries.flatMap (fun (key, _) => (nameViolations key).map (⟨[wrappersKey], ·⟩))
      ++ entries.flatMap fun (key, value) => wrapperFindings [wrappersKey, key] value
  | value => [⟨[wrappersKey], .wrongType value ["object"]⟩]

/-- The findings in a file, in the order of the checks. -/
def fileFindings (entries : List (Scalar × Value)) : List Finding :=
  let builtins := (entries.lookup builtinsKey).elim [] flagViolations
  (if (entries.lookup wrappersKey).isSome then [] else [⟨[], .missing "wrappers"⟩])
    ++ (unexpectedKeys [builtinsKey, wrappersKey].contains entries).map (⟨[], ·⟩)
    ++ builtins.map (⟨[builtinsKey], ·⟩)
    ++ (entries.lookup wrappersKey).elim [] wrappersFindings

/-! ## Reading -/

/-- Why a registry file is refused. -/
inductive RegistryFileError where
  | document (error : DocumentError)
  | notMapping
  | invalid (findings : List Finding)
  /-- The paths to the violations have no order. -/
  | unordered
  /-- A violation cannot be explained because an integer has too many digits. -/
  | tooManyDigits
  /-- The entry of a wrapper is neither null nor a mapping. -/
  | noMapping (wrapper : Scalar)
  | unknownFields (error : UnknownFields)

/-- The explanation of a refusal, if there is one. -/
def RegistryFileError.message? : RegistryFileError → Option LooseText
  | .document error => error.message?.map LooseText.whole
  | .notMapping => some "Registry file must contain a mapping at the top level"
  | .invalid findings =>
    some ("Registry schema validation failed: " ++ LooseText.join "; " (findings.map Finding.message))
  | .unordered => none
  | .tooManyDigits => some (.whole (digitLimitMessage none))
  | .noMapping wrapper => some ("Wrapper '" ++ wrapper.plain ++ "' must be a mapping")
  | .unknownFields error => some error.message

/-- The entries of a mapping; other values have none. -/
def entriesOf : Value → List (Scalar × Value)
  | .mapping entries => entries
  | _ => []

/-- The configuration in a wrapper's entry. -/
def WrapperConfig.ofEntry (wrapper : Scalar) : Value → Except RegistryFileError WrapperConfig
  | .scalar .null => .ok {}
  | .mapping entries => (WrapperConfig.ofMapping entries).mapError .unknownFields
  | _ => .error (.noMapping wrapper)

/-- The registry file that the entries of a document describe. -/
def RegistryFile.ofEntries (entries : List (Scalar × Value)) :
    Except RegistryFileError RegistryFile := do
  let wrappers := (entries.lookup wrappersKey).elim [] entriesOf
  return {
    includeBuiltins := (entries.lookup builtinsKey).elim true Value.isTruthy
    wrappers := ← wrappers.mapM fun (key, value) => do
      return (key, ← WrapperConfig.ofEntry key value) }

/-- The findings as they are reported: explained first, and then ordered by their paths. -/
def reported (findings : List Finding) : Except RegistryFileError (List Finding) :=
  if findings.any (·.violation.isTooLong) then .error .tooManyDigits
  else
    match sortByPath? Finding.path findings with
    | none => .error .unordered
    | some findings =>
      if findings.any (·.path.any Scalar.isTooLong) then .error .tooManyDigits else .ok findings

/-- The registry file that a document describes. A document that counts as false is an empty
mapping. -/
def RegistryFile.ofValue (document : Value) : Except RegistryFileError RegistryFile := do
  let document := if document.isTruthy then document else .mapping []
  match document with
  | .mapping entries =>
    match ← reported (fileFindings entries) with
    | [] => RegistryFile.ofEntries entries
    | findings => .error (.invalid findings)
  | _ => .error .notMapping

/-- The paths of the mappings that are looked into: the file itself, its wrappers, and the entry of
each wrapper. -/
def looksIntoFile (path : List Scalar) : Bool := path.headD wrappersKey = wrappersKey

/-- The registry file in a text. -/
def RegistryFile.parse (text : String) : Except RegistryFileError RegistryFile := do
  let content ← (Document.parse text).mapError .document
  RegistryFile.ofValue (content.view looksIntoFile 3)

end PropertyWrapper
