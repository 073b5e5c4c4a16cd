import FaultPoints.Decimal.Layout
import FaultPoints.Text.Quoted

/-!
# Values of documents and their written form

A document is written compactly, members in the order they are given, characters verbatim
except for quotes, backslashes and controls.

## Main Definitions

* `Json.Number` — an integer of sixty-four bits or a binary64 number
* `Json.Value` — a value of a document
* `Json.Value.chars`, `Json.Value.render` — its written form
* `Json.optional` — a member that is written only where it is present
-/

namespace FaultPoints.Json

/-- A number of a document. Integers that fit sixty-four bits, signed or unsigned, are kept
whole; all other numbers are binary64 numbers. -/
inductive Number where
  /-- An integer between `-2^63` and `2^64 - 1`. -/
  | whole (value : Int)
  /-- Any other number. -/
  | real (value : Binary64)
  deriving DecidableEq, Repr

/-- A value of a document. -/
inductive Value where
  /-- The null value. -/
  | null
  /-- A truth value. -/
  | boolean (value : Bool)
  /-- A number. -/
  | number (value : Number)
  /-- A text. -/
  | text (value : String)
  /-- A sequence of values. -/
  | array (items : List Value)
  /-- Members in the order they are written. -/
  | object (members : List (String × Value))
  deriving Repr

/-- The written form of a number. -/
def Number.chars : Number → List Char
  | .whole i => (Text.integer i).toList
  | .real x => Layout.json.chars x

/-- A control character by its code point, in four digits. -/
def controlEscape (c : Char) : List Char :=
  let ds := Text.hexDigits c.toNat
  ['\\', 'u'] ++ List.replicate (4 - ds.length) '0' ++ ds

/-- One character of a written text. -/
def escaped (c : Char) : List Char :=
  if c = '"' || c = '\\' then ['\\', c]
  else if c = '\x08' then ['\\', 'b']
  else if c = '\x0c' then ['\\', 'f']
  else if c = '\n' then ['\\', 'n']
  else if c = '\r' then ['\\', 'r']
  else if c = '\t' then ['\\', 't']
  else if c.toNat < 0x20 then controlEscape c
  else [c]

/-- A written text with its quotes. -/
def textChars (s : String) : List Char := '"' :: s.toList.flatMap escaped ++ ['"']

mutual

/-- The characters of a written value. -/
def Value.chars : Value → List Char
  | .null => ['n', 'u', 'l', 'l']
  | .boolean true => ['t', 'r', 'u', 'e']
  | .boolean false => ['f', 'a', 'l', 's', 'e']
  | .number n => n.chars
  | .text s => textChars s
  | .array items => '[' :: itemChars items ++ [']']
  | .object members => '\x7b' :: memberChars members ++ ['\x7d']

/-- The items of a written sequence with commas between them. -/
def itemChars : List Value → List Char
  | [] => []
  | [v] => v.chars
  | v :: rest => v.chars ++ ',' :: itemChars rest

/-- The members of a written object with commas between them. -/
def memberChars : List (String × Value) → List Char
  | [] => []
  | [(k, v)] => textChars k ++ ':' :: v.chars
  | (k, v) :: rest => textChars k ++ ':' :: v.chars ++ ',' :: memberChars rest

end

/-- The written form of a value. -/
def Value.render (v : Value) : String := String.ofList v.chars

/-- A member that is written only where it is present. -/
def optional (name : String) : Option Value → List (String × Value)
  | none => []
  | some v => [(name, v)]

/-- A value that is null where it is absent. -/
def nullable : Option Value → Value
  | none => .null
  | some v => v

/-- An unsigned count as a value. -/
def Value.count (n : UInt64) : Value := .number (.whole n.toNat)

/-- A binary64 number as a value. -/
def Value.real (x : Binary64) : Value := .number (.real x)

end FaultPoints.Json
