import FaultPoints.Json.Doc
import FaultPoints.Json.Mismatch

/-!
# Reading typed values

A *form* says how a value of some type is read, both from the outline of a text, where the
first error of the text wins, and from a value that has been kept whole. The two agree on
every document without a break; what differs is only how an error of the text is ordered
against a mismatch.

A record is read member by member into a draft. A member that is given twice, a member of
the wrong kind and a break of the grammar are reported where they stand; a required member
that is absent is noticed only at the end. A record may also be written as a sequence of
its members in order.

## Main Definitions

* `Json.Flaw` — why no value could be read from a text
* `Json.Form` — how values of a type are read
* `Json.Form.scalar`, `Json.Form.optional`, `Json.Form.listOf` — the simple forms
* `Json.Member`, `Json.Record`, `Json.Form.record` — records
* `Json.Form.parse` — a whole text
-/

namespace FaultPoints.Json

/-- Why no value could be read from a text. -/
inductive Flaw where
  /-- The grammar breaks. -/
  | broken (how : Break)
  /-- The value is not the wanted one. -/
  | mismatch (why : Mismatch)
  deriving DecidableEq, Repr

/-- A break as a flaw. -/
def orBroken {α : Type} (r : Except Break α) : Except Flaw α := r.mapError .broken

/-- A mismatch as a flaw. -/
def orMismatch {α : Type} (r : Except Mismatch α) : Except Flaw α := r.mapError .mismatch

/-- How values of a type are read. -/
structure Form (α : Type) where
  /-- From an outline. -/
  ofDoc : Doc → Except Flaw α
  /-- From a value. -/
  ofValue : Value → Except Mismatch α

/-- What stands at a place of an outline, provided that its text does not break and denotes
something. -/
def Doc.found : Doc → Except Break Found
  | .null => .ok .null
  | .boolean b => .ok (.boolean b)
  | .number n => (wantedPart n).map .number
  | .text s => (wantedPart s).map .text
  | .array _ _ => .ok .sequence
  | .object _ _ => .ok .map
  | .cut h => .error h.wanted

namespace Form

variable {α : Type}

/-- A value without parts. -/
def scalar (read : Found → Except Mismatch α) : Form α where
  ofDoc d := do
    let f ← orBroken d.found
    orMismatch (read f)
  ofValue v := read v.found

/-- A value that may be null. -/
def optional (f : Form α) : Form (Option α) where
  ofDoc
    | .null => .ok none
    | d => (f.ofDoc d).map some
  ofValue
    | .null => .ok none
    | v => (f.ofValue v).map some

/-- A sequence of values. -/
def listOf (f : Form α) : Form (List α) where
  ofDoc
    | .array items ending => do
      let xs ← items.mapM f.ofDoc
      orBroken (closing Halt.wanted ending)
      pure xs
    | d => do
      let found ← orBroken d.found
      .error (.mismatch (.kind found "a sequence"))
  ofValue
    | .array items => items.mapM f.ofValue
    | v => .error (.kind v.found "a sequence")

end Form

/-- A text, described by what is wanted of it, that may be refused. -/
def readTextAs {α : Type} (wanted : String) (accept : String → Except Mismatch α) :
    Found → Except Mismatch α
  | .text s => accept s
  | f => .error (.kind f wanted)

/-- Any text. -/
def textForm (wanted : String) : Form String := .scalar (readTextAs wanted .ok)

/-- A truth value. -/
def booleanForm : Form Bool :=
  .scalar fun
    | .boolean b => .ok b
    | f => .error (.kind f "a boolean")

/-- An unsigned integer below a limit. -/
def readUnsigned (limit : Nat) (wanted : String) : Found → Except Mismatch Nat
  | .number (.whole i) =>
    if 0 ≤ i ∧ i < limit then .ok i.toNat else .error (.range i wanted)
  | f => .error (.kind f wanted)

/-- An unsigned integer of sixty-four bits. -/
def countForm : Form UInt64 :=
  .scalar fun f => (readUnsigned Text.wordLimit "u64" f).map fun n => UInt64.ofNat n

/-- An unsigned integer of sixteen bits. -/
def portForm : Form UInt16 :=
  .scalar fun f => (readUnsigned 65536 "u16" f).map fun n => UInt16.ofNat n

/-- A binary64 number; an integer is converted. -/
def realForm : Form Binary64 :=
  .scalar fun
    | .number (.whole i) => .ok (Binary64.ofInteger i)
    | .number (.real x) => .ok x
    | f => .error (.kind f "f64")

/-- A member of a record whose draft has the given type. -/
structure Member (δ : Type) where
  /-- The key. -/
  name : String
  /-- Whether the draft has the member already. -/
  filled : δ → Bool
  /-- Reading the member from an outline. -/
  ofDoc : δ → Doc → Except Flaw δ
  /-- Reading the member from a value. -/
  ofValue : δ → Value → Except Mismatch δ
  /-- Whether a sequence may end before the member. -/
  mayEnd : Bool

/-- A member with the form of its value and its place in the draft. -/
def Member.of {α δ : Type} (name : String) (form : Form α) (get : δ → Option α)
    (set : δ → α → δ) (mayEnd : Bool) : Member δ where
  name
  filled draft := (get draft).isSome
  ofDoc draft d := (form.ofDoc d).map (set draft)
  ofValue draft v := (form.ofValue v).map (set draft)
  mayEnd

/-- A record: its label in messages, its members in order, and how a draft is completed. -/
structure Record (δ α : Type) where
  /-- What messages call the record. -/
  label : String
  /-- The members in order. -/
  members : List (Member δ)
  /-- The draft without any member. -/
  empty : δ
  /-- The record of a draft, unless a required member is absent. -/
  complete : δ → Except Mismatch α

namespace Record

variable {δ α : Type}

/-- The members of an outline, each where it stands. Members of other names are passed over. -/
def draftDoc (r : Record δ α) : δ → List (Option String × Doc) → Except Flaw δ
  | draft, [] => .ok draft
  | draft, (k, d) :: rest => do
    let key ← orBroken (wantedPart k)
    match r.members.find? (·.name == key) with
    | none =>
      orBroken d.skip
      r.draftDoc draft rest
    | some m =>
      if m.filled draft then .error (.mismatch (.repeated key))
      else
        let draft ← m.ofDoc draft d
        r.draftDoc draft rest

/-- The members of an object kept whole. -/
def draftValue (r : Record δ α) : δ → List (String × Value) → Except Mismatch δ
  | draft, [] => .ok draft
  | draft, (key, v) :: rest =>
    match r.members.find? (·.name == key) with
    | none => r.draftValue draft rest
    | some m =>
      if m.filled draft then .error (.repeated key)
      else do
        let draft ← m.ofValue draft v
        r.draftValue draft rest

/-- The sequence ended before a member. -/
def endedBefore (r : Record δ α) (m : Member δ) (index : Nat) : Except Mismatch Unit :=
  if m.mayEnd then .ok () else .error (.length index (recordOf r.label r.members.length))

/-- The members of an outline in the form of a sequence. Items beyond the last member break
the grammar. -/
def sequenceDoc (r : Record δ α) (ending : Option Halt) :
    Nat → δ → List (Member δ) → List Doc → Except Flaw δ
  | _, draft, [], [] => do
    orBroken (closing Halt.wanted ending)
    pure draft
  | _, _, [], _ :: _ => .error (.broken .malformed)
  | index, draft, m :: ms, [] => do
    orBroken (closing Halt.wanted ending)
    orMismatch (r.endedBefore m index)
    r.sequenceDoc ending (index + 1) draft ms []
  | index, draft, m :: ms, d :: rest => do
    let draft ← m.ofDoc draft d
    r.sequenceDoc ending (index + 1) draft ms rest

/-- The members of a sequence kept whole. Items beyond the last member are one too many. -/
def sequenceValue (r : Record δ α) : Nat → δ → List (Member δ) → List Value → Except Mismatch δ
  | _, draft, [], [] => .ok draft
  | index, _, [], rest@(_ :: _) => .error (.length (index + rest.length) (sequenceOf index))
  | index, draft, m :: ms, [] => do
    r.endedBefore m index
    r.sequenceValue (index + 1) draft ms []
  | index, draft, m :: ms, v :: rest => do
    let draft ← m.ofValue draft v
    r.sequenceValue (index + 1) draft ms rest

end Record

/-- The form of a record: an object, or a sequence of its members in order. -/
def Form.record {δ α : Type} (r : Record δ α) : Form α where
  ofDoc
    | .object members ending => do
      let draft ← r.draftDoc r.empty members
      orBroken (closing Halt.wanted ending)
      orMismatch (r.complete draft)
    | .array items ending => do
      let draft ← r.sequenceDoc ending 0 r.empty r.members items
      orMismatch (r.complete draft)
    | d => do
      let found ← orBroken d.found
      .error (.mismatch (.kind found r.label))
  ofValue
    | .object members => do
      let draft ← r.draftValue r.empty members
      r.complete draft
    | .array items => do
      let draft ← r.sequenceValue 0 r.empty r.members items
      r.complete draft
    | v => .error (.kind v.found r.label)

/-- A required member of a draft. -/
def required {α : Type} (name : String) : Option α → Except Mismatch α
  | some a => .ok a
  | none => .error (.missing name)

/-- A whole text: a value with nothing but white space behind it. -/
def parseWith {α : Type} (ofDoc : Doc → Except Flaw α) (gs : List Glyph) : Except Flaw α := do
  let (d, after) := Doc.read gs
  let a ← ofDoc d
  match after with
  | some rest => if (skipSpace rest).isEmpty then pure a else .error (.broken .malformed)
  | none => .error (.broken .malformed)

/-- A value of a form from a whole text. -/
def Form.parse {α : Type} (f : Form α) (gs : List Glyph) : Except Flaw α := parseWith f.ofDoc gs

end FaultPoints.Json
