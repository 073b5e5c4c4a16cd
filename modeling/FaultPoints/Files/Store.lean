import FaultPoints.Catalog
import FaultPoints.Files.Path
import FaultPoints.Text.Digits

/-!
# A tree of files

A store holds files and directories under their places, which are lists of names from the
root. Paths that do not start at the root start at the working directory.

A path is followed piece by piece: each piece but the last must lead to a directory.
Directories are made with all that is missing above them, and a file is opened at its end,
so that what is written is added to what is there.

## Main Definitions

* `Files.Fault` — why an operation on files fails
* `Files.Store` — files and directories
* `Files.Store.status`, `read?` — what a path names
* `Files.Store.makeAll` — making a directory with those above it
* `Files.Store.prepare` — making the directory that holds a file
* `Files.Store.append` — adding to a file
-/

namespace FaultPoints.Files

/-- Why an operation on files fails. -/
inductive Fault where
  /-- There is nothing under the path. -/
  | missing
  /-- There is something under the path already. -/
  | alreadyExists
  /-- A piece that leads on names a file. -/
  | notDirectory
  /-- The path names a directory. -/
  | isDirectory
  /-- A piece is too long. -/
  | nameTooLong
  /-- The path holds a character that no path may hold. -/
  | unexpectedNul
  deriving DecidableEq, Repr

/-- The number of a fault, where the system gives one. -/
def Fault.code : Fault → Option Nat
  | .missing => some 2
  | .alreadyExists => some 17
  | .notDirectory => some 20
  | .isDirectory => some 21
  | .nameTooLong => some 36
  | .unexpectedNul => none

/-- The sort of a fault. -/
def Fault.kind : Fault → String
  | .missing => "NotFound"
  | .alreadyExists => "AlreadyExists"
  | .notDirectory => "NotADirectory"
  | .isDirectory => "IsADirectory"
  | .nameTooLong => "InvalidFilename"
  | .unexpectedNul => "InvalidInput"

/-- A fault in words. -/
def Fault.reason : Fault → String
  | .missing => "No such file or directory"
  | .alreadyExists => "File exists"
  | .notDirectory => "Not a directory"
  | .isDirectory => "Is a directory"
  | .nameTooLong => "File name too long"
  | .unexpectedNul => "file name contained an unexpected NUL byte"

/-- The message of a fault. -/
def Fault.message (f : Fault) : String :=
  "IO error: " ++ f.reason ++
    match f.code with
    | some n => " (os error " ++ Text.natural n ++ ")"
    | none => ""

/-- What stands at a place. -/
inductive Entry where
  /-- A directory. -/
  | directory
  /-- A file with its content. -/
  | file (content : String)
  deriving DecidableEq, Repr

/-- Files and directories. -/
structure Store where
  /-- What stands at the places other than the root. -/
  entries : Catalog (List String) Entry
  /-- The place of the working directory. -/
  home : List String
  deriving DecidableEq

/-- The greatest length of a piece in bytes. -/
def pieceLimit : Nat := 255

namespace Store

/-- What stands at a place. The root is a directory. -/
def entry? (s : Store) (place : List String) : Option Entry :=
  if place = [] then some .directory else s.entries.find? place

/-- The place that a piece leads to from a directory. -/
def enter (s : Store) (here : List String) (piece : String) : Except Fault (List String) :=
  match s.entry? here with
  | none => .error .missing
  | some (.file _) => .error .notDirectory
  | some .directory =>
    if piece = "." then .ok here
    else if piece = ".." then .ok here.dropLast
    else if pieceLimit < piece.utf8ByteSize then .error .nameTooLong
    else .ok (here ++ [piece])

/-- The place that pieces lead to. -/
def follow (s : Store) : List String → List String → Except Fault (List String)
  | here, [] => .ok here
  | here, p :: rest => do
    let next ← s.enter here p
    s.follow next rest

/-- The place at which a path starts. -/
def origin (s : Store) (path : String) : List String := if isAbsolute path then [] else s.home

/-- A path must not be empty and not hold a character that none may hold. -/
def checkPath (path : String) : Except Fault Unit :=
  if path.toList.contains '\x00' then .error .unexpectedNul
  else if path.isEmpty then .error .missing
  else .ok ()

/-- What a path names. -/
def status (s : Store) (path : String) : Except Fault Entry := do
  checkPath path
  let place ← s.follow (s.origin path) (pieces path)
  match s.entry? place with
  | none => .error .missing
  | some (.file content) =>
    if endsWithSlash path then .error .notDirectory else pure (.file content)
  | some .directory => pure .directory

/-- Whether a path names something. -/
def contains (s : Store) (path : String) : Bool := (s.status path).toOption.isSome

/-- Whether a path names a directory. -/
def isDirectory (s : Store) (path : String) : Bool :=
  (s.status path).toOption == some .directory

/-- The content of the file that a path names. -/
def read? (s : Store) (path : String) : Option String :=
  match s.status path with
  | .ok (.file content) => some content
  | _ => none

/-- The place that a path names, whether or not something is there: the directory that holds
it must be there. -/
def target (s : Store) (path : String) : Except Fault (List String × Option String) := do
  checkPath path
  let ps := pieces path
  let directory ← s.follow (s.origin path) ps.dropLast
  match ps.getLast? with
  | none => pure (directory, none)
  | some p => do
    let place ← s.enter directory p
    pure (place, if p = "." ∨ p = ".." then none else some p)

/-- Makes one directory. -/
def make (s : Store) (path : String) : Except Fault Store := do
  let (place, name) ← s.target path
  if name.isNone || (s.entry? place).isSome then .error .alreadyExists
  else pure { s with entries := s.entries.insert place .directory }

/-- Makes a directory that may be there already. -/
def ensure (s : Store) (path : String) : Except Fault Unit × Store :=
  match s.make path with
  | .ok t => (.ok (), t)
  | .error e => (if s.isDirectory path then .ok () else .error e, s)

/-- Makes a directory with those above it. The first argument bounds their number. -/
def makeChain : Nat → Store → String → Except Fault Unit × Store
  | 0, s, _ => (.ok (), s)
  | fuel + 1, s, path =>
    if path.isEmpty then (.ok (), s)
    else
      -- Only where something above is missing is there more to make.
      match s.make path, parent path with
      | .error .missing, some above =>
        match makeChain fuel s above with
        | (.ok _, t) => t.ensure path
        | failed => failed
      | _, _ => s.ensure path

/-- Makes a directory with those above it. -/
def makeAll (s : Store) (path : String) : Except Fault Unit × Store :=
  makeChain (path.length + 1) s path

/-- Makes the directory that holds what a path names, unless it is there. What has been made
before a fault stays. -/
def prepare (s : Store) (path : String) : Except Fault Unit × Store :=
  match parent path with
  | none => (.ok (), s)
  | some above => if s.contains above then (.ok (), s) else s.makeAll above

/-- Opens a file at its end, making it where it is missing. -/
def openAtEnd (s : Store) (path : String) : Except Fault (List String × String) := do
  checkPath path
  let ps := pieces path
  let directory ← s.follow (s.origin path) ps.dropLast
  match ps.getLast? with
  | none => .error .isDirectory
  | some p =>
    -- A slash at the end asks for a directory, which cannot be opened for writing.
    if endsWithSlash path && p ≠ "." && p ≠ ".." then
      match s.entry? directory with
      | some .directory => .error .isDirectory
      | some (.file _) => .error .notDirectory
      | none => .error .missing
    else do
      let place ← s.enter directory p
      if p = "." ∨ p = ".." then .error .isDirectory
      else
        match s.entry? place with
        | some .directory => .error .isDirectory
        | some (.file content) => pure (place, content)
        | none => pure (place, "")

/-- Adds a text to the file that a path names and gives its whole content; the directory that
holds it is made where it is missing, and stays even where the file cannot be opened. -/
def append (s : Store) (path text : String) : Except Fault String × Store :=
  match s.prepare path with
  | (.error e, t) => (.error e, t)
  | (.ok _, t) =>
    match t.openAtEnd path with
    | .error e => (.error e, t)
    | .ok (place, content) =>
      (.ok (content ++ text),
        { t with entries := t.entries.insert place (.file (content ++ text)) })

/-- A store with nothing but its working directory. -/
def vacant : Store := ⟨Catalog.empty.insert ["work"] .directory, ["work"]⟩

end Store

end FaultPoints.Files
