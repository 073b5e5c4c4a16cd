import FaultPoints.Json.Form

/-!
# Values tagged from within

A choice between several records is written as one object, in which a member of its own
names the variant and the other members belong to it; or as a sequence whose first item is
the name. The name is checked where it stands. All other members are kept whole until the
end, since the name may be the last of them, and this bounds how deeply they may be nested.

## Main Definitions

* `Json.Variant` — a variant with its name and the reading of its members
* `Json.Tagged` — a choice between variants
* `Json.Tagged.parse` — reading a choice from a text
-/

namespace FaultPoints.Json

/-- A variant of a choice. -/
structure Variant (α : Type) where
  /-- The name. -/
  name : String
  /-- Reading the variant from the members without the name. -/
  ofBody : Value → Except Mismatch α

/-- A choice between variants. -/
structure Tagged (α : Type) where
  /-- What messages call the choice. -/
  label : String
  /-- The key of the member that names the variant. -/
  tag : String
  /-- The variants. -/
  variants : List (Variant α)

/-- A variant without members; members that are there nevertheless are passed over. -/
def Variant.unit {α : Type} (name : String) (a : α) : Variant α where
  name
  ofBody
    | .array items@(_ :: _) => .error (.length items.length (sequenceOf 0))
    | _ => .ok a

/-- A variant whose members are those of a form. -/
def Variant.of {α β : Type} (name : String) (form : Form β) (make : β → α) : Variant α where
  name
  ofBody v := (form.ofValue v).map make

/-- How many levels of brackets and braces a text may have. -/
def nestingLimit : Nat := 127

namespace Tagged

variable {α : Type}

/-- The variant that a name stands for. -/
def variantOf (t : Tagged α) : Found → Except Mismatch (Variant α)
  | .text s =>
    match t.variants.find? (·.name == s) with
    | some v => .ok v
    | none => .error (.variant s (t.variants.map (·.name)))
  | f => .error (.kind f "variant identifier")

/-- The variant that an outline names. -/
def variantDoc (t : Tagged α) (d : Doc) : Except Flaw (Variant α) := do
  let f ← orBroken d.found
  orMismatch (t.variantOf f)

/-- The variant and the other members, each where it stands. -/
def membersDoc (t : Tagged α) : Option (Variant α) → List (Option String × Doc) →
    Except Flaw (Option (Variant α) × List (String × Value))
  | chosen, [] => .ok (chosen, [])
  | chosen, (k, d) :: rest => do
    let key ← orBroken (wantedPart k)
    if key = t.tag then
      if chosen.isSome then .error (.mismatch (.repeated t.tag))
      else
        let v ← t.variantDoc d
        t.membersDoc (some v) rest
    else
      let v ← orBroken (d.buffer (nestingLimit - 1))
      let (chosen, others) ← t.membersDoc chosen rest
      pure (chosen, (key, v) :: others)

/-- Reading a choice from an outline. -/
def ofDoc (t : Tagged α) : Doc → Except Flaw α
  | .object members ending => do
    let (chosen, others) ← t.membersDoc none members
    orBroken (closing Halt.wanted ending)
    let v ← orMismatch (required t.tag chosen)
    orMismatch (v.ofBody (.object others))
  | .array [] ending => do
    orBroken (closing Halt.wanted ending)
    .error (.mismatch (.missing t.tag))
  | .array (d :: rest) ending => do
    -- The name comes first here, so that a wrong one is reported before what follows it.
    let v ← t.variantDoc d
    let items ← orBroken (bufferItems (nestingLimit - 1) rest)
    orBroken (closing Halt.wanted ending)
    orMismatch (v.ofBody (.array items))
  | d => do
    let f ← orBroken d.found
    .error (.mismatch (.kind f t.label))

/-- Reading a choice from a whole text. -/
def parse (t : Tagged α) (gs : List Glyph) : Except Flaw α := parseWith t.ofDoc gs

end Tagged

end FaultPoints.Json
