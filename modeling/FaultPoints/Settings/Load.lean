import FaultPoints.Files.Store
import FaultPoints.Settings.Environment
import FaultPoints.Toml.Document

/-!
# Loading settings

Settings are loaded in layers, of which a later one counts more: what they are before, a
settings file, and the environment. At the start the first layer is made of the defaults and
the file is the one that a variable names.

A settings file is found under its path if that ends in the extension of settings files. A
path under which there is no file is tried once more with the extension added.

## Main Definitions

* `Settings.fileSource` — the keys that a file sets
* `Settings.layered` — three layers
* `Settings.load` — the settings at the start
* `Settings.overridden` — settings under a further file
-/

namespace FaultPoints.Settings

mutual

/-- A value of a settings file in a tree. Dates and times are texts. -/
def Tree.ofValue : Toml.Value → Tree
  | .scalar (.boolean b) => .boolean b
  | .scalar (.whole i) => .whole i
  | .scalar (.real x) => .real x
  | .scalar (.text s) => .text s
  | .scalar (.moment s) => .text s
  | .list items => .list (treesOfItems items)
  | .table entries => .table (treesOfEntries entries)

/-- The items of a list as trees. -/
def treesOfItems : List Toml.Value → List Tree
  | [] => []
  | v :: rest => Tree.ofValue v :: treesOfItems rest

/-- The entries of a table as trees. -/
def treesOfEntries : List (String × Toml.Value) → List (String × Tree)
  | [] => []
  | (k, v) :: rest => (k, Tree.ofValue v) :: treesOfEntries rest

end

/-- The extension of settings files. -/
def fileExtension : String := "toml"

/-- The text of a settings file. -/
def fileText (files : Files.Store) (path : String) : Except SourceError String :=
  match files.read? path with
  | some text =>
    if Files.extension path = some fileExtension then .ok text else .error .unavailable
  | none =>
    match (Files.withSuffix path ("." ++ fileExtension)).bind files.read? with
    | some text => .ok text
    | none => .error .unavailable

/-- The keys that a settings file sets. -/
def fileSource (files : Files.Store) (path : String) :
    Except SourceError (List (String × Tree)) := do
  let text ← fileText files path
  match Toml.readDocument text with
  | some entries => pure (treesOfEntries entries)
  | none => .error .grammar

/-- Three layers: settings, the keys of a file and those of the environment. -/
def layered (base : Settings) (file : List (String × Tree)) (e : Environment) :
    Except SourceError Settings := do
  let tree ← base.toTree
  let laid := (Tree.table []).overlaid tree.entries
  ofTree ((laid.overlaid file).overlaid e.source)

/-- The variable that names the settings file. -/
def pathVariable : String := "CONFIG_PATH"

/-- The settings at the start. -/
def load (files : Files.Store) (e : Environment) : Except SourceError Settings := do
  let file ← match e.get? pathVariable with
    | some path => fileSource files path
    | none => pure []
  layered .default file e

/-- Settings under a further file and the environment. -/
def overridden (s : Settings) (files : Files.Store) (e : Environment) (path : String) :
    Except SourceError Settings := do
  let _ ← s.toTree
  let file ← fileSource files path
  layered s file e

end FaultPoints.Settings
