import PropertyWrapper.Files.Folder
import PropertyWrapper.Text.Similar

/-!
# Options of commands

The commands with their options, and how arguments are read: a long option may carry its value behind
an equals sign, short options may be joined, and everything behind two dashes is an argument.
-/

namespace PropertyWrapper.Command

open Text

/-! ## Names -/

/-- The commands. -/
inductive Name where
  | expand | introspect | wrappers
deriving DecidableEq, Repr

/-- The options of all commands. -/
inductive Switch where
  | verbose | version | help
  | registry | noBuiltins | output | inPlace | check | report | reportPath | noColour
deriving DecidableEq, Repr

/-- All commands. -/
def Name.all : List Name := [.expand, .introspect, .wrappers]

/-- The word for a command. -/
def Name.word : Name → String
  | .expand => "expand"
  | .introspect => "introspect"
  | .wrappers => "wrappers"

/-- The command with a word. -/
def Name.ofWord? (word : String) : Option Name := all.find? (·.word = word)

namespace Switch

/-- The long spelling of an option. -/
def long : Switch → String
  | .verbose => "--verbose"
  | .version => "--version"
  | .help => "--help"
  | .registry => "--registry"
  | .noBuiltins => "--no-builtins"
  | .output => "--output"
  | .inPlace => "--in-place"
  | .check => "--check"
  | .report => "--report"
  | .reportPath => "--report-path"
  | .noColour => "--no-color"

/-- The short spelling of an option, if it has one. -/
def short? : Switch → Option Char
  | .help => some 'h'
  | .output => some 'o'
  | _ => none

/-- Whether an option takes a value. -/
def takesValue : Switch → Bool
  | .registry | .output | .report | .reportPath => true
  | _ => false

end Switch

/-- The options in front of the command. -/
def generalSwitches : List Switch := [.verbose, .version, .help]

/-- The options of a command. -/
def Name.switches : Name → List Switch
  | .expand =>
    [.registry, .noBuiltins, .output, .inPlace, .check, .report, .reportPath, .noColour, .help]
  | .introspect => [.noColour, .help]
  | .wrappers => [.registry, .noBuiltins, .help]

/-! ## Usage errors -/

/-- What is wrong with the arguments of a command. -/
inductive UsageError where
  | noSuchOption (spelling : String) (similar : List String)
  | missingValue (spelling : String)
  | unwantedValue (spelling : String)
  | missingCommand
  | noSuchCommand (word : String) (similar : List String)
  | missingArgument (argument : String)
  | extraArguments (arguments : List String)
  | missingFile (parameter path : String)
  | directory (parameter path : String)
  | badChoice (parameter value : String) (choices : List String)
  | outputInPlace
  | outputOfSeveral
deriving DecidableEq, Repr

namespace UsageError

/-- The explanation of an error. -/
def message : UsageError → String
  | .noSuchOption spelling similar =>
    "No such option " ++ quoted spelling ++ "." ++ suggestion similar
  | .missingValue spelling => "Option " ++ quoted spelling ++ " requires an argument."
  | .unwantedValue spelling => "Option " ++ quoted spelling ++ " does not take a value."
  | .missingCommand => "Missing command."
  | .noSuchCommand word similar => "No such command " ++ quoted word ++ "." ++ suggestion similar
  | .missingArgument argument => "Missing argument '" ++ argument ++ "'."
  | .extraArguments arguments =>
    "Got unexpected extra argument" ++ (if arguments.length = 1 then "" else "s") ++ " ("
      ++ String.intercalate " " arguments ++ ")"
  | .missingFile parameter path =>
    "Invalid value for " ++ parameter ++ ": File " ++ quoted path ++ " does not exist."
  | .directory parameter path =>
    "Invalid value for " ++ parameter ++ ": File " ++ quoted path ++ " is a directory."
  | .badChoice parameter value choices =>
    "Invalid value for " ++ parameter ++ ": " ++ quoted value ++ " is not one of "
      ++ String.intercalate ", " (choices.map quoted) ++ "."
  | .outputInPlace => "--output and --in-place are mutually exclusive"
  | .outputOfSeveral => "--output accepts a single source"

/-- Whether an error is shown together with the form of the command. -/
def showsUsage : UsageError → Bool
  | .missingValue _ | .unwantedValue _ => false
  | _ => true

end UsageError

/-! ## Reading arguments -/

/-- The options and arguments of a command, each in order. -/
structure Invocation where
  switches : List (Switch × String) := []
  arguments : List String := []
deriving DecidableEq, Repr

/-- Options with their values, and the option that takes the next argument as its value, if there is
one, in the spelling that was used. -/
abbrev Spelled := List (Switch × String) × Option (Switch × String)

/-- The options in the characters behind a dash. The first that takes a value takes all characters
behind it. -/
def readShort (switches : List Switch) : List Char → Except UsageError Spelled
  | [] => .ok ([], none)
  | c :: rest =>
    let spelling := String.ofList ['-', c]
    match switches.find? (·.short? = some c) with
    | none => .error (.noSuchOption spelling [])
    | some switch =>
      if switch.takesValue then
        if rest.isEmpty then .ok ([], some (switch, spelling))
        else .ok ([(switch, String.ofList rest)], none)
      else do
        let (given, pending) ← readShort switches rest
        return ((switch, "") :: given, pending)

/-- The option in a long spelling, which may carry a value behind an equals sign. -/
def readLong (switches : List Switch) (argument : List Char) : Except UsageError Spelled :=
  let spelling := String.ofList (argument.takeWhile (· ≠ '='))
  let value? :=
    if argument.contains '=' then some (String.ofList ((argument.dropWhile (· ≠ '=')).drop 1))
    else none
  match switches.find? (·.long = spelling) with
  | none => .error (.noSuchOption spelling (similarWords spelling (switches.map Switch.long)))
  | some switch =>
    match switch.takesValue, value? with
    | true, some value => .ok ([(switch, value)], none)
    | true, none => .ok ([], some (switch, spelling))
    | false, some _ => .error (.unwantedValue spelling)
    | false, none => .ok ([(switch, "")], none)

/-- Whether an argument is an option: a dash alone is none. -/
def isOption (argument : List Char) : Bool :=
  argument.head? = some '-' && 1 < argument.length

/-- The options in an argument. -/
def readOption (switches : List Switch) (argument : List Char) : Except UsageError Spelled :=
  if argument.take 2 = ['-', '-'] then readLong switches argument
  else readShort switches (argument.drop 1)

/-- An invocation with some options in front. -/
def Invocation.withSwitches (given : List (Switch × String)) (invocation : Invocation) :
    Invocation :=
  { invocation with switches := given ++ invocation.switches }

/-- The options and arguments in a list. Options may stand behind arguments only if this is
allowed. -/
def readArguments (switches : List Switch) (allowsMixing : Bool) :
    List String → Except UsageError Invocation
  | [] => .ok {}
  | argument :: rest =>
    if argument = "--" then .ok { arguments := rest }
    else if isOption argument.toList then
      match readOption switches argument.toList with
      | .error error => .error error
      | .ok (given, none) =>
        (readArguments switches allowsMixing rest).map (Invocation.withSwitches given)
      | .ok (given, some (switch, spelling)) =>
        match rest with
        | [] => .error (.missingValue spelling)
        | value :: rest =>
          (readArguments switches allowsMixing rest).map
            (Invocation.withSwitches (given ++ [(switch, value)]))
    else if allowsMixing then do
      let others ← readArguments switches allowsMixing rest
      return { others with arguments := argument :: others.arguments }
    else .ok { arguments := argument :: rest }

namespace Invocation

/-- Whether an option was given. -/
def has (invocation : Invocation) (switch : Switch) : Bool :=
  invocation.switches.any (·.1 = switch)

/-- The last value of an option. -/
def value? (invocation : Invocation) (switch : Switch) : Option String :=
  ((invocation.switches.filter (·.1 = switch)).getLast?).map (·.2)

/-- The first option that answers at once. -/
def early? (invocation : Invocation) : Option Switch :=
  (invocation.switches.map (·.1)).find? fun switch => switch = .help || switch = .version

/-- The options that were given, in the order of their first occurrences. -/
def given (invocation : Invocation) : List Switch := (invocation.switches.map (·.1)).eraseDups

end Invocation

end PropertyWrapper.Command
