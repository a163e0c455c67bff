import PropertyWrapper.Command.Program
import PropertyWrapper.Registry.Plugin
import PropertyWrapper.Report.Time
import Std.Time.DateTime.Timestamp

/-!
# Command line

The program as it runs in a terminal: the files that the arguments mention are read into a folder, the
program is run on it, and what it changed and wrote is passed on.
-/

namespace PropertyWrapper.Terminal

open Command Files Report

/-- The paths that an argument can mention: itself, what follows an equals sign, and what follows a
dash and a letter. -/
def mentionedPaths (argument : String) : List String :=
  let chars := argument.toList
  [argument, String.ofList ((chars.dropWhile (· ≠ '=')).drop 1), String.ofList (chars.drop 2)]

/-- A path and the paths of the directories around it, the outermost first. -/
def enclosingPaths (path : String) : List String :=
  let names := steps path
  (List.range (names.length + 1)).map fun count => joined (pathStart path) (names.take count)

/-- The value of an action, unless it fails. -/
def attempt {α : Type} (action : IO α) : IO (Option α) := do
  match ← action.toBaseIO with
  | .ok value => return some value
  | .error _ => return none

/-- What really lies at a path: a directory can be opened but not read. -/
def inspect (path : String) : IO Found := do
  match ← attempt (IO.FS.Handle.mk path .read) with
  | none => return .nothing
  | some handle => return (← attempt handle.readBinToEnd).elim .directory fun b => .file b.toList

/-- A folder with what really lies at a path. -/
def addPath (folder : Folder) (path : String) : IO Folder := do
  match folder.locate path with
  | .error _ => return folder
  | .ok location =>
    if folder.find location ≠ .nothing then return folder
    match ← inspect path with
    | .file content => return { folder with files := (location, content) :: folder.files }
    | .directory => return { folder with made := location :: folder.made }
    | .nothing => return folder

/-- The path of a location. -/
def pathOf : Location → String
  | "/" :: names => joined "/" names
  | names => joined "" names

/-- Writes the files and directories that a run added or changed. -/
def saveChanges (before after : Folder) : IO Unit := do
  for location in after.made do
    unless before.made.contains location do IO.FS.createDirAll (pathOf location)
  for (location, content) in after.files do
    unless before.files.lookup location = some content do
      IO.FS.writeBinFile (pathOf location) content.toByteArray

/-- The registrations of the listed plugins. None can be imported here, so that a list with a name is
refused. -/
def sharedRegistrations : IO Registry := do
  let listed := (← IO.getEnv "MACROFY_PLUGINS").getD ""
  let loading := loadPlugins [] .empty (pluginNames listed)
  match loading.result with
  | .ok () => return loading.registry
  | .error error => throw (IO.userError error.message)

/-- Runs the program and returns its exit status; a failure counts as status one. -/
def run (arguments : List String) : IO UInt32 := do
  let paths := arguments.flatMap fun argument => (mentionedPaths argument).flatMap enclosingPaths
  let folder ← paths.foldlM addPath {}
  let seconds := (← Std.Time.Timestamp.now).toSecondsSinceUnixEpoch.val
  let setting : Setting := {
    directory := (← IO.currentDir).toString
    time := timeText seconds.toNat
    shared := ← sharedRegistrations }
  let result := execute setting folder arguments
  saveChanges folder result.folder
  (← IO.getStdout).putStr result.output
  (← IO.getStderr).putStr result.errors
  match result.status with
  | .ok status => return status.toUInt32
  | .error failure =>
    IO.eprintln (failure.message?.getD "The run failed.")
    return 1

end PropertyWrapper.Terminal

/-- Runs the program with the arguments of the command line. -/
def main (arguments : List String) : IO UInt32 := PropertyWrapper.Terminal.run arguments
