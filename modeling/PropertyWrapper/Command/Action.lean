import PropertyWrapper.Command.Console

/-!
# What the commands do

Expansion of sources, listing of the configurations of wrapper types, and listing of wrappers.
-/

namespace PropertyWrapper.Command

open Document Files Report Source Text

/-! ## Registries -/

/-- Whether a registry file's refusal is an error in the input, rather than a failure of the
command. -/
def refusal? : RegistryFileError → Option String
  | .document (.badScalar message) => some message
  | .document _ => none
  | .unordered => none
  | error => error.message?.map LooseText.escaped

/-- The failure that a registry file's refusal stands for otherwise. -/
def failureOf : RegistryFileError → Failure
  | .document error => .document error
  | _ => .unordered

/-- The path of a file as seen from the root. -/
def fullPath (setting : Setting) (folder : Folder) (path : String) : String :=
  match folder.locate path with
  | .ok ("/" :: names) => joined "/" names
  | .ok names => setting.directory ++ "/" ++ String.intercalate "/" names
  | .error _ => path

/-- The registry file at a path. -/
def loadRegistryFile (setting : Setting) (path : String) : Run RegistryFile := do
  let folder := (← get).folder
  match Run.readText folder path with
  | .error message => Run.refuse message
  | .ok text =>
    match RegistryFile.parse text with
    | .ok file =>
      Run.log setting [.ofRegistryFile (fullPath setting folder path) file.wrappers.length]
      return file
    | .error error =>
      match refusal? error with
      | some message => Run.refuse message
      | none => Run.fail (failureOf error)

/-- The registry that an invocation asks for. -/
def loadRegistry (setting : Setting) (invocation : Invocation) : Run Registry := do
  let file ← (invocation.value? .registry).mapM (loadRegistryFile setting)
  return .build setting.shared file !(invocation.has .noBuiltins)

/-! ## Sources -/

/-- Ends the command because a source cannot be expanded. -/
def stopExpansion {α : Type} (path : String) (error : ExpansionError) : Run α :=
  let unreadable (error : SourceError) : Run α :=
    if error.kind = .value then Run.fail (.source error)
    else
      Run.refuse (path ++ ": cannot parse: " ++ error.message ++ " (line " ++ toString error.line
        ++ ")")
  match error with
  | .source error => unreadable error
  | .render (.unreadable error) => unreadable error
  | .render (.unsupportedAccessor kind) => Run.fail (.accessor kind)
  | .print error => Run.fail (.print error)

/-- The outcome of expanding the file at a path. -/
def expandFile (setting : Setting) (registry : Registry) (path : String) : Run Outcome := do
  match Run.readText (← get).folder path with
  | .error message => Run.refuse (path ++ ": " ++ message)
  | .ok text =>
    let trace := expandSource registry (normalPath path) text
    Run.log setting (trace.events.filterMap LogLine.ofEvent?)
    match trace.result with
    | .ok outcome => return outcome
    | .error error => stopExpansion path error

/-- What becomes of an expanded source. -/
inductive Destination where
  | nowhere
  | inPlace
  | file (path : String)
  | output
deriving DecidableEq, Repr

/-- Where an invocation sends expanded sources. An empty path is no path. -/
def Invocation.destination (invocation : Invocation) : Destination :=
  if invocation.has .check then .nowhere
  else if invocation.has .inPlace then .inPlace
  else
    match (invocation.value? .output).filter (· ≠ "") with
    | some path => .file path
    | none => .output

/-- Sends an expanded source to its destination. A source that did not change is left alone. -/
def deliver (setting : Setting) (destination : Destination) (path : String) (outcome : Outcome) :
    Run Unit :=
  match destination with
  | .nowhere => return
  | .inPlace => if outcome.changed then Run.writeFile setting path outcome.source else return
  | .file target => Run.writeFile setting target outcome.source
  | .output => Run.write outcome.source

/-- The reporter that an invocation asks for. -/
def Invocation.reporter (invocation : Invocation) : Reporter :=
  let name := (invocation.value? .report).getD "terminal"
  match Format.named name (invocation.value? .reportPath) !(invocation.has .noColour) with
  | .ok format => { format }
  | .error _ => { format := .terminal false }

/-- Expands sources in order and reports on each, the first having a given index. -/
def expandAll (setting : Setting) (registry : Registry) (destination : Destination) (total : Nat) :
    Nat → Reporter → List String → Run Reporter
  | _, reporter, [] => return reporter
  | index, reporter, path :: rest => do
    let outcome ← expandFile setting registry path
    let (reporter, lines) := reporter.addSource path outcome index total
    Run.writeErrors lines
    deliver setting destination path outcome
    expandAll setting registry destination total (index + 1) reporter rest

/-- Completes a report. -/
def completeReport (setting : Setting) (reporter : Reporter) : Run Unit := do
  match reporter.complete setting.time (← get).folder with
  | .error error => Run.fail (.report error)
  | .ok (folder, lines) =>
    modify fun console => { console with folder }
    Run.writeErrors lines

/-- Whether a run over sources fails: one of them has a problem, or one changed although none
should. -/
def hasFailed (check : Bool) (outcomes : List Outcome) : Bool :=
  outcomes.any fun outcome => !outcome.isOk || (check && outcome.changed)

/-! ## Commands -/

/-- Expands the sources of an invocation. -/
def runExpand (setting : Setting) (invocation : Invocation) : Run Unit := do
  let sources := invocation.arguments
  if ((invocation.value? .output).filter (· ≠ "")).isSome then
    if invocation.has .inPlace then Run.reject (some .expand) .outputInPlace
    if 1 < sources.length then Run.reject (some .expand) .outputOfSeveral
  let registry ← loadRegistry setting invocation
  let (reporter, lines) := invocation.reporter.start sources.length
  Run.writeErrors lines
  let reporter ←
    expandAll setting registry invocation.destination sources.length 1 reporter sources
  completeReport setting reporter
  let outcomes := reporter.sources.map (·.2)
  Run.exit (if hasFailed (invocation.has .check) outcomes then 1 else 0)

/-- Lists the configurations generated for the types of a source. -/
def runIntrospect (setting : Setting) (invocation : Invocation) : Run Unit := do
  let outcome ← expandFile setting .empty (invocation.arguments.headD "")
  Run.writeErrors (outcome.diagnostics.map (diagnosticLine !(invocation.has .noColour)))
  outcome.configs.forM fun declaration =>
    match printModule [declaration.statement] with
    | .ok text => Run.writeLine text
    | .error error => Run.fail (.print error)
  Run.exit (if outcome.isOk then 0 else 1)

/-- The line of a wrapper in a listing: its key and its facts. A key that is null shows only in front of
facts. -/
def wrapperLine (entry : Key × WrapperConfig) : LooseText :=
  let facts := entry.2.factList
  if facts ≠ "" then entry.1.plain ++ LooseText.whole (": " ++ facts)
  else if entry.1 = .null then ""
  else entry.1.plain

/-- Lists a wrapper. Its key must not be an integer with too many digits, nor a text that cannot be
encoded. -/
def listWrapper (entry : Key × WrapperConfig) : Run Unit :=
  if entry.1.isTooLong then Run.fail (.print .tooManyDigits)
  else
    match wrapperLine entry with
    | .whole line => Run.writeLine line
    | .broken line _ => Run.fail (.source ⟨.surrogates (firstSurrogates line), 0⟩)

/-- Lists the wrappers of a registry by their keys. -/
def runWrappers (setting : Setting) (invocation : Invocation) : Run Unit := do
  let registry ← loadRegistry setting invocation
  if registry.entries.isEmpty then Run.writeLine "No wrappers registered."
  else
    match sortByPath? (fun entry => [entry.1]) registry.entries with
    | some entries => entries.forM listWrapper
    | none => Run.fail .unordered

end PropertyWrapper.Command
