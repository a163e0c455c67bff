import PropertyWrapper.Command.Help
import PropertyWrapper.Command.Log
import PropertyWrapper.Registry.File
import PropertyWrapper.Report.Reporter

/-!
# Consoles

A command writes to two streams and changes files, until it exits or fails. Neither stream is a
terminal.
-/

namespace PropertyWrapper.Command

open Document Files Report Source Text

/-- How the system refuses to write a file that is there to be written: the error, and what the file is
left with if that differs from what it had. -/
structure Refusal where
  error : PathError
  left : Option Bytes := none

/-- The folder after a write at a path was refused. -/
def Refusal.after (refusal : Refusal) (folder : Folder) (path : String) : Folder :=
  match refusal.left with
  | none => folder
  | some content => (folder.write path content).toOption.getD folder

/-- What a run finds around it. -/
structure Setting where
  /-- The path of the working directory. -/
  directory : String
  /-- The time that reports name. -/
  time : String
  /-- The registrations that all runs share. -/
  shared : Registry := .empty
  isVerbose : Bool := false
  /-- The writes that the system refuses, by the folder, the path and the content. -/
  refusal? : Folder → String → Bytes → Option Refusal := fun _ _ _ => none

/-- Why a command fails without an exit status. -/
inductive Failure where
  | file (error : PathError)
  | report (error : ReportError)
  | document (error : DocumentError)
  /-- Keys that have no order were to be sorted. -/
  | unordered
  | source (error : SourceError)
  | print (error : PrintError)
  | accessor (kind : AccessorKind)

/-- The explanation of a failure, if there is one. -/
def Failure.message? : Failure → Option String
  | .file error => some error.message
  | .report error => some error.message
  | .document error => error.message?
  | .unordered => none
  | .source error => some error.message
  | .print error => some error.message
  | .accessor kind => some (RenderError.unsupportedAccessor kind).message

/-- How a command ends before its last step. -/
inductive Stop where
  | exit (status : Nat)
  | failure (failure : Failure)

/-- What a command has written so far. -/
structure Console where
  folder : Folder
  /-- The paths of files that sources were written to, with the texts, in order. -/
  written : List (String × String) := []
  output : String := ""
  errors : String := ""

/-- A step of a command. -/
abbrev Run := ExceptT Stop (StateM Console)

namespace Run

/-- Ends the command with a status. -/
def exit {α : Type} (status : Nat) : Run α := throw (.exit status)

/-- Ends the command with a failure. -/
def fail {α : Type} (failure : Failure) : Run α := throw (.failure failure)

/-- Writes a text to the output. -/
def write (text : String) : Run Unit :=
  modify fun console => { console with output := console.output ++ shown false text }

/-- Writes a line to the output. -/
def writeLine (text : String) : Run Unit := write (text ++ "\n")

/-- Writes a line to the error stream. -/
def writeError (text : String) : Run Unit :=
  modify fun console => { console with errors := console.errors ++ shown false (text ++ "\n") }

/-- Writes lines to the error stream. -/
def writeErrors (lines : List String) : Run Unit := lines.forM writeError

/-- Writes log lines to the error stream, as far as they are shown. -/
def log (setting : Setting) (lines : List LogLine) : Run Unit :=
  (lines.filterMap (LogLine.shown? setting.isVerbose)).forM fun line =>
    modify fun console => { console with errors := console.errors ++ line ++ "\n" }

/-- Ends the command with an error in its input. -/
def refuse {α : Type} (message : String) : Run α := do
  writeError ("Error: " ++ message)
  exit 1

/-- Ends the command with a usage error. -/
def reject {α : Type} (scope : Scope) (error : UsageError) : Run α := do
  writeError (error.report scope)
  exit 2

/-- The value of a result, whose error is a usage error. -/
def accepted {α : Type} (scope : Scope) (result : Except UsageError α) : Run α :=
  match result with
  | .ok value => return value
  | .error error => reject scope error

/-- The text of a file, or why it cannot be read. -/
def readText (folder : Folder) (path : String) : Except String String := do
  let bytes ← (folder.read (normalPath path)).mapError PathError.message
  let chars ← (decodeUtf8 bytes).mapError Utf8Error.message
  return String.ofList (unifyNewlines chars)

/-- Writes a text to a file, unless the system refuses it. -/
def writeFile (setting : Setting) (path text : String) : Run Unit := do
  let folder := (← get).folder
  let content := encodeUtf8 text
  match folder.write (normalPath path) content with
  | .error error => fail (.file error)
  | .ok changed =>
    match setting.refusal? folder (normalPath path) content with
    | some refusal =>
      modify fun console => { console with folder := refusal.after folder (normalPath path) }
      fail (.file refusal.error)
    | none =>
      modify fun console =>
        { console with folder := changed, written := console.written ++ [(path, text)] }

end Run

end PropertyWrapper.Command
