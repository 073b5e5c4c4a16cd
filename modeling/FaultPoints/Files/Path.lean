/-!
# Paths

A path is a text with slashes between its pieces. Empty pieces do not count, a piece of one
full stop stays where it is, and one of two full stops leads back to the directory above.

## Main Definitions

* `Files.pieces` — the pieces of a path
* `Files.parent` — the pieces that lead to the directory that holds what a path names
* `Files.join` — a path seen from a directory
* `Files.extension`, `Files.withExtension` — what follows the last full stop of a name
-/

namespace FaultPoints.Files

/-- The parts of a list between occurrences of a character. -/
def splitAt (c : Char) : List Char → List (List Char)
  | [] => [[]]
  | x :: rest =>
    if x = c then [] :: splitAt c rest
    else
      match splitAt c rest with
      | [] => [[x]]
      | part :: parts => (x :: part) :: parts

/-- The pieces of a path that are not empty. -/
def pieces (path : String) : List String :=
  ((splitAt '/' path.toList).filter fun part => !part.isEmpty).map String.ofList

/-- Whether a path starts at the root. -/
def isAbsolute (path : String) : Bool := path.toList.head? == some '/'

/-- Whether a path ends with a slash, so that it can only name a directory. -/
def endsWithSlash (path : String) : Bool := path.toList.getLast? == some '/'

/-- The pieces without those that stay where they are. -/
def properPieces (path : String) : List String := (pieces path).filter (· ≠ ".")

/-- The path of a list of pieces. -/
def ofPieces (absolute : Bool) (ps : List String) : String :=
  (if absolute then "/" else "") ++ "/".intercalate ps

/-- The directory that holds what a path names. There is none for a path without pieces. -/
def parent (path : String) : Option String :=
  let ps := properPieces path
  if ps.isEmpty then if (pieces path).isEmpty then none else some ""
  else some (ofPieces (isAbsolute path) ps.dropLast)

/-- A path seen from a directory: one that starts at the root stays as it is. -/
def join (directory path : String) : String :=
  if isAbsolute path then path
  else if directory.isEmpty || endsWithSlash directory then directory ++ path
  else directory ++ "/" ++ path

/-- What follows the last full stop of a name, unless the name starts with that full stop. -/
def extensionOf (name : String) : Option String :=
  let back := name.toList.reverse
  let ext := back.takeWhile (· ≠ '.')
  match back.dropWhile (· ≠ '.') with
  | '.' :: stem => if stem.isEmpty then none else some (String.ofList ext.reverse)
  | _ => none

/-- The name of the file that a path names, if its last piece is one. -/
def fileName (path : String) : Option String := (properPieces path).getLast?.filter (· ≠ "..")

/-- What follows the last full stop of the name of a file. -/
def extension (path : String) : Option String := (fileName path).bind extensionOf

/-- A path with something added to the name of the file, if it names one. -/
def withSuffix (path suffix : String) : Option String :=
  (fileName path).map fun name =>
    ofPieces (isAbsolute path) ((properPieces path).dropLast ++ [name ++ suffix])

end FaultPoints.Files
