import FaultPoints.Json.Value

/-!
# Documents of the wrong shape

A document that is well formed may still not be the value that is wanted. Each way in
which that happens is one constructor, and one function gives the wording.

## Main Definitions

* `Json.Found` — what stands where something else is wanted
* `Json.Mismatch` — why a value is not the wanted one
* `Json.Mismatch.message` — the wording
-/

namespace FaultPoints.Json

/-- What stands at a place of a document, without the parts of a container. -/
inductive Found where
  /-- The null value. -/
  | null
  /-- A truth value. -/
  | boolean (value : Bool)
  /-- A number. -/
  | number (value : Number)
  /-- A text. -/
  | text (value : String)
  /-- A sequence. -/
  | sequence
  /-- An object. -/
  | map
  deriving DecidableEq, Repr

/-- What stands where a value does. -/
def Value.found : Value → Found
  | .null => .null
  | .boolean b => .boolean b
  | .number n => .number n
  | .text s => .text s
  | .array _ => .sequence
  | .object _ => .map

/-- How a message names what it found. -/
def Found.describe : Found → String
  | .null => "null"
  | .boolean b => "boolean `" ++ (if b then "true" else "false") ++ "`"
  | .number (.whole i) => "integer `" ++ Text.integer i ++ "`"
  | .number (.real x) => "floating point `" ++ Layout.json.render x ++ "`"
  | .text s => "string " ++ Text.quoted s
  | .sequence => "sequence"
  | .map => "map"

/-- Why a value is not the wanted one. -/
inductive Mismatch where
  /-- It is of another kind. -/
  | kind (found : Found) (wanted : String)
  /-- It is an integer outside the wanted range. -/
  | range (value : Int) (wanted : String)
  /-- It is a sequence of another length. -/
  | length (count : Nat) (wanted : String)
  /-- A required member is absent. -/
  | missing (member : String)
  /-- A member is there twice. -/
  | repeated (member : String)
  /-- It names none of the known variants. -/
  | variant (name : String) (known : List String)
  /-- Its text is refused for a reason of its own. -/
  | refused (reason : String)
  deriving DecidableEq, Repr

/-- A count with its noun. -/
def counted (n : Nat) (noun : String) : String :=
  Text.natural n ++ " " ++ noun ++ (if n = 1 then "" else "s")

/-- The alternatives that a message offers. -/
def alternatives (names : List String) : String :=
  match names.map fun n => "`" ++ n ++ "`" with
  | [] => "there are no variants"
  | [a] => "expected " ++ a
  | [a, b] => "expected " ++ a ++ " or " ++ b
  | many => "expected one of " ++ ", ".intercalate many

/-- The wording of a mismatch. -/
def Mismatch.message : Mismatch → String
  | .kind found wanted => "invalid type: " ++ found.describe ++ ", expected " ++ wanted
  | .range i wanted => "invalid value: integer `" ++ Text.integer i ++ "`, expected " ++ wanted
  | .length n wanted => "invalid length " ++ Text.natural n ++ ", expected " ++ wanted
  | .missing m => "missing field `" ++ m ++ "`"
  | .repeated m => "duplicate field `" ++ m ++ "`"
  | .variant name known => "unknown variant `" ++ name ++ "`, " ++ alternatives known
  | .refused reason => reason

/-- The shape of a record as a message names it. -/
def recordOf (label : String) (count : Nat) : String :=
  label ++ " with " ++ counted count "element"

/-- The shape of a sequence that ends too late, as a message names it. -/
def sequenceOf (count : Nat) : String := counted count "element" ++ " in sequence"

end FaultPoints.Json
