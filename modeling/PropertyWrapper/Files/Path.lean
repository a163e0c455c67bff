import PropertyWrapper.Text.Blank

/-!
# Paths

A path is a text with names between slashes. Its normal form has no empty names and no points that
stand for the same directory; a name for the parent directory stays.
-/

namespace PropertyWrapper.Files

open Text

/-- The names between the slashes of a path, empty ones included. -/
def pathNames (path : String) : List String :=
  (splitAt '/' path.toList).map String.ofList

/-- Whether a path starts at the root. -/
def isAbsolute (path : String) : Bool := path.toList.head? = some '/'

/-- Whether a text can be no path, because it contains the character zero. -/
def isImpossible (path : String) : Bool := path.toList.contains '\x00'

/-- The names of a path that lead somewhere. -/
def steps (path : String) : List String :=
  (pathNames path).filter fun name => name ≠ "" && name ≠ "."

/-- What a path starts with: nothing, one slash, or exactly two, which are kept. -/
def pathStart (path : String) : String :=
  match (path.toList.takeWhile (· = '/')).length with
  | 0 => ""
  | 2 => "//"
  | _ => "/"

/-- A path from its start and its names. -/
def joined (start : String) (names : List String) : String :=
  let path := start ++ String.intercalate "/" names
  if path = "" then "." else path

/-- The normal form of a path. -/
def normalPath (path : String) : String := joined (pathStart path) (steps path)

/-- The path of the directory that holds a path's last name. -/
def parentPath (path : String) : String := joined (pathStart path) (steps path).dropLast

end PropertyWrapper.Files
