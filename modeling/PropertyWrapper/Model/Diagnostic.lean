import PropertyWrapper.Model.Attribute

/-!
# Diagnostics

A diagnostic is an error about one attribute. Diagnostics do not stop an expansion; a context collects
them for one source.
-/

namespace PropertyWrapper

/-- The problems that an expansion can report. -/
inductive Problem where
  /-- The wrapper mark stands on something that cannot be a wrapper type. -/
  | unsupportedDeclaration
  /-- A wrapper type lacks the member that holds the wrapped value. -/
  | missingWrappedValue
  /-- A wrapper stands on something other than a property with one plain name. -/
  | unexpectedTarget
deriving DecidableEq, Repr

namespace Problem

/-- The stable word for a problem. -/
def word : Problem → String
  | .unsupportedDeclaration => "unsupported_declaration"
  | .missingWrappedValue => "missing_wrapped_value"
  | .unexpectedTarget => "unexpected_type_declaration"

/-- The explanation of a problem. -/
def message : Problem → String
  | .unsupportedDeclaration =>
    "The @macrofy macro can only be used on a dataclass, class, actor, or enum."
  | .missingWrappedValue => "A property wrapper must have a wrapped_value member."
  | .unexpectedTarget => "Macro can only be used on a single-name property declaration."

end Problem

/-- A problem with the attribute that led to it. -/
structure Diagnostic where
  problem : Problem
  message : String := problem.message
  attributeName : Option String := none
  line : Int := 0
  column : Int := 0
  filename : Option String := none
deriving DecidableEq, Repr

namespace Diagnostic

/-- The word for how serious a diagnostic is: every diagnostic is an error. -/
def severity : String := "error"

/-- The diagnostic of a problem at an attribute, if there is one. -/
def at? (problem : Problem) : Option Attribute → Diagnostic
  | none => { problem }
  | some attr =>
    { problem, attributeName := attr.name, line := attr.line, column := attr.column }

/-- A diagnostic that names a file: its own if it has one, else the given one. -/
def inFile (filename : Option String) (diagnostic : Diagnostic) : Diagnostic :=
  { diagnostic with filename := diagnostic.filename <|> filename }

/-- The word for the problem in the name space of all tools. -/
def qualifiedWord (diagnostic : Diagnostic) : String := "macrofy." ++ diagnostic.problem.word

/-- The file, line and column of a diagnostic; a missing or empty file name is unknown. -/
def location (diagnostic : Diagnostic) : String :=
  let filename := diagnostic.filename.getD ""
  (if filename = "" then "<unknown>" else filename)
    ++ ":" ++ toString diagnostic.line ++ ":" ++ toString diagnostic.column

end Diagnostic

/-- The diagnostics reported so far for one source. -/
structure Context where
  filename : Option String
  diagnostics : List Diagnostic := []
deriving DecidableEq, Repr

/-- The context after one more diagnostic. -/
def Context.diagnose (context : Context) (diagnostic : Diagnostic) : Context :=
  { context with
    diagnostics := context.diagnostics ++ [diagnostic.inFile context.filename] }

/-- Whether anything was reported. -/
def Context.hasErrors (context : Context) : Bool := !context.diagnostics.isEmpty

end PropertyWrapper
