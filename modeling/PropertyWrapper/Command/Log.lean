import PropertyWrapper.Expansion.Trace

/-!
# Log lines

What a command tells about its progress on the error stream. Warnings are always told, the rest only
on request, and then every line names its level and where it comes from.
-/

namespace PropertyWrapper.Command

/-- How important a log line is. -/
inductive Level where
  | debug | warning
deriving DecidableEq, Repr

/-- The word for a level. -/
def Level.word : Level → String
  | .debug => "DEBUG"
  | .warning => "WARNING"

/-- A log line. -/
structure LogLine where
  level : Level
  origin : String
  text : String
deriving DecidableEq, Repr

/-- What is shown of a log line. -/
def LogLine.shown? (isVerbose : Bool) (line : LogLine) : Option String :=
  if isVerbose then some (line.level.word ++ " " ++ line.origin ++ ": " ++ line.text)
  else if line.level = .warning then some line.text
  else none

/-- The origin of lines about the expansion of modules. -/
def expansionOrigin : String := "macrofy.python.expander"

/-- The line about an event of an expansion. Diagnostics are reported, not logged. -/
def LogLine.ofEvent? (event : Event) : Option LogLine :=
  match event with
  | .introspected name kind config =>
    some ⟨.debug, "macrofy.core.introspect",
      "Introspected " ++ name ++ " (" ++ kind.word ++ "): " ++ config.summary⟩
  | .generated declaration =>
    some ⟨.debug, expansionOrigin,
      "Registered " ++ declaration.name ++ " for wrapper " ++ declaration.wrapper⟩
  | .synthesized identifier attributeName binding =>
    some ⟨.debug, "macrofy.core.synthesize",
      "Synthesized " ++ identifier ++ " via " ++ attributeName ++ " (" ++ binding.word ++ " storage)"⟩
  | .ignored _ _ => event.warning?.map fun text => ⟨.warning, expansionOrigin, text⟩
  | .diagnosed _ => none

/-- The line about a registry file that was read. -/
def LogLine.ofRegistryFile (path : String) (count : Nat) : LogLine :=
  ⟨.debug, "macrofy.registry.loader",
    "Loaded " ++ toString count ++ " wrapper(s) from " ++ path⟩

end PropertyWrapper.Command
