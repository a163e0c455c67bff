import PropertyWrapper.Command.Option

/-!
# Help texts

The form and the description of the program and of each command. A scope is a command, or the program
as a whole.
-/

namespace PropertyWrapper.Command

/-- What a text is about: the program or one of its commands. -/
abbrev Scope := Option Name

/-- The words that call a scope. -/
def Scope.path (scope : Scope) : String := "macrofy" ++ scope.elim "" fun name => " " ++ name.word

/-- The arguments of a command, as the form of the command shows them. -/
def Name.argument : Name → String
  | .expand => "SOURCES..."
  | .introspect => "SOURCE"
  | .wrappers => ""

/-- The form of a scope. -/
def Scope.usage (scope : Scope) : String :=
  let arguments :=
    match scope with
    | none => " [OPTIONS] COMMAND [ARGS]..."
    | some .wrappers => " [OPTIONS]"
    | some name => " [OPTIONS] " ++ name.argument
  "Usage: " ++ scope.path ++ arguments

/-- What a scope does. -/
def Scope.description : Scope → String
  | none => "Expand property wrapper annotations into plain Python properties."
  | some .expand => "Expand wrapper types and wrapped properties in SOURCES."
  | some .introspect => "Print the wrapper configs generated for @macrofy types in SOURCE."
  | some .wrappers => "List registered wrappers and their non-default facts."

/-- What a scope offers, line by line. -/
def Scope.details : Scope → List String
  | none => [
    "Options:",
    "  --verbose   Enable verbose logging output.",
    "  --version   Show the macrofy version and exit.",
    "  -h, --help  Show this message and exit.",
    "",
    "Commands:",
    "  expand      Expand wrapper types and wrapped properties in SOURCES.",
    "  introspect  Print the wrapper configs generated for @macrofy types in...",
    "  wrappers    List registered wrappers and their non-default facts."]
  | some .expand => [
    "Options:",
    "  --registry FILE           YAML registry file with additional wrapper",
    "                            configs.",
    "  --no-builtins             Do not register the built-in example wrappers.",
    "  -o, --output FILE         Write the expanded source here.",
    "  --in-place                Rewrite each source file with its expansion.",
    "  --check                   Exit with status 1 when a source would change;",
    "                            write nothing.",
    "  --report [terminal|json]  Report format (terminal by default).  [default:",
    "                            terminal]",
    "  --report-path TEXT        When --report json, write to this path.",
    "  --no-color                Disable ANSI colors in terminal output.",
    "  -h, --help                Show this message and exit."]
  | some .introspect => [
    "Options:",
    "  --no-color  Disable ANSI colors in terminal output.",
    "  -h, --help  Show this message and exit."]
  | some .wrappers => [
    "Options:",
    "  --registry FILE  YAML registry file with additional wrapper configs.",
    "  --no-builtins    Do not list the built-in example wrappers.",
    "  -h, --help       Show this message and exit."]

/-- The help text of a scope. -/
def Scope.help (scope : Scope) : String :=
  String.intercalate "\n"
    ([scope.usage, "", "  " ++ scope.description, ""] ++ scope.details)

/-- The line that names the version. -/
def versionLine : String := "macrofy 0.1.0"

/-- What is shown for a usage error. -/
def UsageError.report (scope : Scope) (error : UsageError) : String :=
  let usage :=
    if error.showsUsage then
      scope.usage ++ "\nTry '" ++ scope.path ++ " --help' for help.\n\n"
    else ""
  usage ++ "Error: " ++ error.message

end PropertyWrapper.Command
