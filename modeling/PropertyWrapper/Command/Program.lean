import PropertyWrapper.Command.Action

/-!
# The program

Arguments select a command. Its options are checked in the order in which they were given, then its
arguments; an option that asks for help or for the version answers before any check.
-/

namespace PropertyWrapper

namespace Command

open Files Report

/-! ## Checks -/

/-- How a switch is named in an error. -/
def Switch.label (switch : Switch) : String :=
  "'" ++ switch.long ++ "'"
    ++ (switch.short?.elim "" fun c => " / '" ++ String.ofList ['-', c] ++ "'")

/-- Refuses a path that cannot be that of a file, which must exist if that is required. -/
def checkFile (name : Name) (mustExist : Bool) (parameter path : String) : Run Unit := do
  if isImpossible path then Run.fail (.file ⟨.zeroCharacter, path⟩)
  match (← get).folder.at? path with
  | .file _ => return
  | .directory => Run.reject (some name) (.directory parameter path)
  | .nothing => if mustExist then Run.reject (some name) (.missingFile parameter path)

/-- Refuses a value that an option cannot have. -/
def checkSwitch (name : Name) (switch : Switch) (value : String) : Run Unit :=
  match switch with
  | .registry => checkFile name true switch.label value
  | .output => checkFile name false switch.label value
  | .report =>
    if formatNames.contains value then return
    else Run.reject (some name) (.badChoice switch.label value formatNames)
  | _ => return

/-- Refuses more arguments than a command takes. -/
def checkExtra (name : Name) (extra : List String) : Run Unit :=
  if extra.isEmpty then return else Run.reject (some name) (.extraArguments extra)

/-- Refuses arguments that a command cannot have. -/
def checkArguments (name : Name) (arguments : List String) : Run Unit := do
  let parameter := "'" ++ name.argument ++ "'"
  match name, arguments with
  | .expand, [] | .introspect, [] => Run.reject (some name) (.missingArgument name.argument)
  | .expand, paths => paths.forM (checkFile name true parameter)
  | .introspect, path :: extra =>
    checkFile name true parameter path
    checkExtra name extra
  | .wrappers, extra => checkExtra name extra

/-- Refuses an invocation of a command that cannot be carried out. -/
def checkInvocation (name : Name) (invocation : Invocation) : Run Unit := do
  invocation.given.forM fun switch =>
    checkSwitch name switch ((invocation.value? switch).getD "")
  checkArguments name invocation.arguments

/-! ## Runs -/

/-- Answers an option that asks for help or for the version. -/
def answerEarly (scope : Scope) (invocation : Invocation) : Run Unit := do
  match invocation.early? with
  | none => return
  | some switch =>
    Run.writeLine (if switch = .version then versionLine else scope.help)
    Run.exit 0

/-- Runs a command with its arguments. -/
def runCommand (setting : Setting) (name : Name) (arguments : List String) : Run Unit := do
  let invocation ← Run.accepted (some name) (readArguments name.switches true arguments)
  answerEarly (some name) invocation
  checkInvocation name invocation
  match name with
  | .expand => runExpand setting invocation
  | .introspect => runIntrospect setting invocation
  | .wrappers => runWrappers setting invocation

/-- Reads the arguments in front of a command, and what follows them. -/
def readGeneral (arguments : List String) : Run Invocation := do
  let invocation ← Run.accepted none (readArguments generalSwitches false arguments)
  answerEarly none invocation
  return invocation

/-- Runs the program with its arguments. A word that is no command is read as an option if it starts
with a dash. -/
def runProgram (setting : Setting) (arguments : List String) : Run Unit := do
  if arguments.isEmpty then
    Run.writeError (Scope.help none)
    Run.exit 2
  let invocation ← readGeneral arguments
  match invocation.arguments with
  | [] => Run.reject none .missingCommand
  | word :: rest =>
    match Name.ofWord? word with
    | some name =>
      runCommand { setting with isVerbose := setting.isVerbose || invocation.has .verbose } name rest
    | none =>
      if word.toList.head? = some '-' then
        let _ ← readGeneral (word :: rest)
      Run.reject none (.noSuchCommand word (Text.similarWords word (Name.all.map Name.word)))

/-! ## Results -/

/-- What a run leaves behind: its exit status or failure, what it wrote, and the files. -/
structure Result where
  status : Except Failure Nat
  output : String
  errors : String
  folder : Folder
  /-- The paths of files that sources were written to, with the texts, in order. -/
  written : List (String × String)

/-- The result of running the program in a folder. A run that comes to its end exits with zero. -/
def execute (setting : Setting) (folder : Folder) (arguments : List String) : Result :=
  let (ending, console) := (runProgram setting arguments).run { folder }
  { status :=
      match ending with
      | .ok () => .ok 0
      | .error (.exit status) => .ok status
      | .error (.failure failure) => .error failure
    output := console.output
    errors := console.errors
    folder := console.folder
    written := console.written }

end Command

/-- A text for programs that exchange strings with this one. They have replacement characters in place of
lone surrogates. -/
instance : Coe Text.LooseText String := ⟨fun text => Text.stringOf text.points⟩

end PropertyWrapper
