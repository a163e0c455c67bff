import PropertyWrapper.Files.Path
import PropertyWrapper.Text.Newline
import PropertyWrapper.Text.Utf8

/-!
# Folders

The files that a command can reach, by their locations as seen from the working directory. A directory
exists if it was made or if a file lies in it. Names that leave the working directory lead to
directories about which nothing else is known.
-/

namespace PropertyWrapper.Files

open Text

/-! ## Errors -/

/-- Why a path cannot be used. -/
inductive PathFault where
  | missing
  | exists
  | notDirectory
  | isDirectory
  /-- The path or one of its names is too long. -/
  | tooLong
  /-- No path contains the character zero. -/
  | zeroCharacter
deriving DecidableEq, Repr

/-- A fault with the path. -/
structure PathError where
  fault : PathFault
  path : String
deriving DecidableEq, Repr

/-- The number of a fault that is found on the way along a path. -/
def PathFault.number? : PathFault → Option Nat
  | .missing => some 2
  | .exists => some 17
  | .notDirectory => some 20
  | .isDirectory => some 21
  | .tooLong => some 36
  | .zeroCharacter => none

/-- The words for a fault. -/
def PathFault.words : PathFault → String
  | .missing => "No such file or directory"
  | .exists => "File exists"
  | .notDirectory => "Not a directory"
  | .isDirectory => "Is a directory"
  | .tooLong => "File name too long"
  | .zeroCharacter => "embedded null byte"

/-- The explanation of an error. -/
def PathError.message (error : PathError) : String :=
  match error.fault.number? with
  | some number =>
    "[Errno " ++ toString number ++ "] " ++ error.fault.words ++ ": " ++ quoted error.path
  | none => error.fault.words

/-! ## Folders -/

/-- Where a file lies: the names that lead to it, from the working directory or behind a slash. -/
abbrev Location := List String

/-- Files and directories. -/
structure Folder where
  files : List (Location × Bytes) := []
  /-- The directories that were made. -/
  made : List Location := []
deriving DecidableEq, Repr

/-- What lies at a location. -/
inductive Found where
  | file (content : Bytes)
  | directory
  | nothing
deriving DecidableEq, Repr

namespace Folder

/-- Whether a location is a directory in every folder: the working directory, those around it, and the
root. -/
def isFixed (location : Location) : Bool := location.all (· = "..") || location = ["/"]

/-- Whether a directory lies at a location. -/
def isDirectory (folder : Folder) (location : Location) : Bool :=
  isFixed location || folder.made.contains location
    || folder.files.any fun file => location.isPrefixOf file.1 && location ≠ file.1

/-- What lies at a location. -/
def find (folder : Folder) (location : Location) : Found :=
  match folder.files.lookup location with
  | some content => .file content
  | none => if folder.isDirectory location then .directory else .nothing

/-- The location of a name in a directory. -/
def enter (location : Location) (name : String) : Location :=
  if name = "" || name = "." then location
  else if name = ".." then
    if location = ["/"] then location
    else if location.all (· = "..") then location ++ [".."]
    else location.dropLast
  else location ++ [name]

/-- The number of bytes that a name can have. -/
def nameLimit : Nat := 255

/-- The number of bytes that a path can have. -/
def pathLimit : Nat := 4095

/-- The location that names lead to; every name but the last must lead to a directory. -/
def walk (folder : Folder) (location : Location) : List String → Except PathFault Location
  | [] => .ok location
  | name :: rest =>
    match folder.find location with
    | .directory =>
      if nameLimit < name.utf8ByteSize then .error .tooLong
      else folder.walk (enter location name) rest
    | .file _ => .error .notDirectory
    | .nothing => .error .missing

/-- The location of a path. -/
def locate (folder : Folder) (path : String) : Except PathFault Location :=
  if isImpossible path then .error .zeroCharacter
  else if path = "" then .error .missing
  else if pathLimit < path.utf8ByteSize then .error .tooLong
  else folder.walk (if isAbsolute path then ["/"] else []) (pathNames path)

/-- What a path leads to; a path that cannot be followed leads to nothing. -/
def at? (folder : Folder) (path : String) : Found :=
  match folder.locate path with
  | .ok location => folder.find location
  | .error _ => .nothing

/-- The bytes of the file at a path. -/
def read (folder : Folder) (path : String) : Except PathError Bytes :=
  match folder.locate path with
  | .error fault => .error ⟨fault, path⟩
  | .ok location =>
    match folder.find location with
    | .file content => .ok content
    | .directory => .error ⟨.isDirectory, path⟩
    | .nothing => .error ⟨.missing, path⟩

/-- Files after one of them was written. -/
def writeFile (location : Location) (content : Bytes) :
    List (Location × Bytes) → List (Location × Bytes)
  | [] => [(location, content)]
  | file :: rest =>
    if file.1 = location then (location, content) :: rest
    else file :: writeFile location content rest

/-- The folder after a file was written. Its directory must exist. -/
def write (folder : Folder) (path : String) (content : Bytes) : Except PathError Folder :=
  match folder.locate path with
  | .error fault => .error ⟨fault, path⟩
  | .ok location =>
    match folder.find location with
    | .directory => .error ⟨.isDirectory, path⟩
    | _ => .ok { folder with files := writeFile location content folder.files }

/-- The folder after a directory was made. The directory around it must exist. -/
def makeDirectory (folder : Folder) (path : String) : Except PathError Folder :=
  match folder.locate path with
  | .error fault => .error ⟨fault, path⟩
  | .ok location =>
    match folder.find location with
    | .nothing => .ok { folder with made := location :: folder.made }
    | .directory => .ok folder
    | .file _ => .error ⟨.exists, path⟩

/-- The folder after a directory was made whose names are given from the innermost on. If the directory
around it is missing, that one is made first. -/
def makeEnclosing (folder : Folder) (start : String) : List String → Except PathError Folder
  | [] => folder.makeDirectory (joined start [])
  | name :: outer =>
    let path := joined start (name :: outer).reverse
    match folder.makeDirectory path with
    | .ok folder => .ok folder
    | .error error =>
      if error.fault = .missing then do (← folder.makeEnclosing start outer).makeDirectory path
      else .error error

/-- The folder after a directory and those around it were made, where they do not exist. -/
def makeDirectories (folder : Folder) (path : String) : Except PathError Folder :=
  folder.makeEnclosing (pathStart path) (steps path).reverse

end Folder

end PropertyWrapper.Files
