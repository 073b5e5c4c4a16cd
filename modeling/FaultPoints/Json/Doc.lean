import FaultPoints.Json.Value
import FaultPoints.Decimal.Reading
import FaultPoints.Text.Glyph

/-!
# Documents as far as they can be read

A text is read once, from left to right, into an outline that keeps everything up to the
first place where the grammar is broken. A reader of the outline walks it in the order of
the text and meets either a value it cannot use or the break, whichever comes first; so
the first error of a text is the one reported, no matter of which sort it is.

What a text, a number or a key *means* is settled only where it is wanted. A value that is
passed over may hold an unpaired surrogate, a stray byte or a number beyond every bound,
and a break inside a number that is passed over is never the end of the input.

## Main Definitions

* `Json.Break` — the grammar is violated, or the text ends early
* `Json.Halt` — a break as seen by a reader that wants the value and by one that does not
* `Json.Doc` — an outline
* `Json.Doc.read` — the outline of a text and what follows it
* `Json.Doc.skip` — passing over a value
* `Json.Doc.buffer` — a value kept whole, with a bound on its nesting
-/

namespace FaultPoints.Json

/-- How the grammar can fail. -/
inductive Break where
  /-- A character that no document has here. -/
  | malformed
  /-- The text ends before the document does. -/
  | ended
  deriving DecidableEq, Repr

/-- A break as two readers see it. -/
structure Halt where
  /-- For a reader that wants the value. -/
  wanted : Break
  /-- For a reader that passes over the value. -/
  skipped : Break
  deriving DecidableEq, Repr

/-- A break that every reader sees alike. -/
def Halt.always (b : Break) : Halt := ⟨b, b⟩

/-- The outline of a document. -/
inductive Doc where
  /-- The null value. -/
  | null
  /-- A truth value. -/
  | boolean (value : Bool)
  /-- A number; none where it exceeds the range of finite numbers. -/
  | number (value : Option Number)
  /-- A closed text; none where it is no sequence of characters. -/
  | text (value : Option String)
  /-- Items, and the break that ends them if no bracket does. -/
  | array (items : List Doc) (ending : Option Halt)
  /-- Members, and the break that ends them if no brace does. -/
  | object (members : List (Option String × Doc)) (ending : Option Halt)
  /-- A value whose text breaks. -/
  | cut (halt : Halt)

/-- Whether a glyph is white space between the tokens of a document. -/
def isSpace (g : Glyph) : Bool :=
  g == some ' ' || g == some '\n' || g == some '\t' || g == some '\r'

/-- A list of glyphs without the white space in front. -/
def skipSpace (gs : List Glyph) : List Glyph := gs.dropWhile isSpace

/-- The leading digits of a list of glyphs with what follows them. -/
def leadingDigits : List Glyph → List Char × List Glyph
  | some c :: rest =>
    if Text.isDigit c then
      let (ds, after) := leadingDigits rest
      (c :: ds, after)
    else ([], some c :: rest)
  | gs => ([], gs)

/-- A digit is missing: where the text ends, only a reader that wants the number waits for
more. -/
def missingDigit (after : List Glyph) : Halt :=
  if after.isEmpty then ⟨.ended, .malformed⟩ else .always .malformed

/-- The parts of a written number. -/
structure Numeral where
  /-- Whether a minus sign stands in front. -/
  negative : Bool
  /-- The digits before the point. -/
  whole : List Char
  /-- The digits behind the point. -/
  part : List Char
  /-- The exponent, where one is written. -/
  exponent : Option Int

/-- The number that a numeral denotes. Without a point and an exponent it is an integer as
long as sixty-four bits hold it; a negative zero is not. None beyond the finite range.
Reading is taken to be exact: any other number is the binary64 number nearest to the decimal.
A reader that scales the digits in binary64 arithmetic may miss it by one unit in the last
place where the digits are sixteen or more. -/
def Numeral.value (n : Numeral) : Option Number :=
  let real : Option Number :=
    let x := Digits.toBinary64
      ⟨Text.ofDigits (n.whole ++ n.part), n.exponent.getD 0 - (n.part.length : Int)⟩ n.negative
    if x.isFinite then some (.real x) else none
  let m := Text.ofDigits n.whole
  if !n.part.isEmpty || n.exponent.isSome then real
  else if n.negative then
    if m = 0 || Text.signedLimit < m then real else some (.whole (-(m : Int)))
  else if m < Text.wordLimit then some (.whole m) else real

/-- The digits of a number before the point. -/
def readWhole (gs : List Glyph) : Except Halt (List Char × List Glyph) :=
  match leadingDigits gs with
  | ([], after) => .error (missingDigit after)
  | ('0' :: _ :: _, _) => .error (.always .malformed)
  | (ds, after) => .ok (ds, after)

/-- The digits of a number behind the point, if there is one. -/
def readPart (gs : List Glyph) : Except Halt (List Char × List Glyph) :=
  match gs with
  | some '.' :: rest =>
    match leadingDigits rest with
    | ([], after) => .error (missingDigit after)
    | (ds, after) => .ok (ds, after)
  | _ => .ok ([], gs)

/-- The sign of an exponent with what follows it. -/
def exponentSign : List Glyph → Bool × List Glyph
  | some '-' :: rest => (true, rest)
  | some '+' :: rest => (false, rest)
  | gs => (false, gs)

/-- The exponent of a number, if there is one. -/
def readExponent (gs : List Glyph) : Except Halt (Option Int × List Glyph) :=
  match gs with
  | some c :: rest =>
    if c = 'e' || c = 'E' then
      let (negative, body) := exponentSign rest
      match leadingDigits body with
      | ([], after) => .error (missingDigit after)
      | (ds, after) =>
        let n : Int := Text.ofDigits ds
        .ok (some (if negative then -n else n), after)
    else .ok (none, gs)
  | _ => .ok (none, gs)

/-- A number from its first digit on. -/
def readNumber (negative : Bool) (gs : List Glyph) :
    Except Halt (Option Number × List Glyph) := do
  let (whole, gs) ← readWhole gs
  let (part, gs) ← readPart gs
  let (exponent, gs) ← readExponent gs
  pure (Numeral.value { negative, whole, part, exponent }, gs)

/-- The rest of a word whose first letter has been seen. -/
def readWord : List Char → List Glyph → Except Break (List Glyph)
  | [], gs => .ok gs
  | _ :: _, [] => .error .ended
  | c :: cs, g :: gs => if g = some c then readWord cs gs else .error .malformed

/-- What has been read of a text. -/
structure TextState where
  /-- The characters so far, the last one first. -/
  reversed : List Char
  /-- A leading surrogate that waits for its partner. -/
  high : Option Nat
  /-- Whether a stray byte has been seen. -/
  stray : Bool
  /-- Whether an escape has been seen that denotes no character. -/
  broken : Bool

namespace TextState

/-- Nothing has been read. -/
def start : TextState := ⟨[], none, false, false⟩

/-- A plain character: a surrogate that waits is left without a partner. -/
def push (s : TextState) (c : Char) : TextState :=
  { s with reversed := c :: s.reversed, high := none, broken := s.broken || s.high.isSome }

/-- A stray byte. -/
def pushStray (s : TextState) : TextState :=
  { s with stray := true, high := none, broken := s.broken || s.high.isSome }

/-- An escape by code unit: a trailing surrogate joins the leading one that waits, a leading
one waits itself, and every other unit is a character. -/
def pushUnit (s : TextState) (n : Nat) : TextState :=
  match s.high with
  | some h =>
    if 0xDC00 ≤ n && n ≤ 0xDFFF then
      { s with
        reversed := Char.ofNat (0x10000 + (h - 0xD800) * 0x400 + (n - 0xDC00)) :: s.reversed
        high := none }
    else { s with high := none, broken := true }
  | none =>
    if 0xD800 ≤ n && n ≤ 0xDBFF then { s with high := some n }
    else if 0xDC00 ≤ n && n ≤ 0xDFFF then { s with broken := true }
    else { s with reversed := Char.ofNat n :: s.reversed }

/-- What a reader that wants the text sees where its text breaks. -/
def halt (s : TextState) (b : Break) : Halt :=
  ⟨if s.broken then .malformed else b, b⟩

/-- The text, provided that every escape and byte denotes a character. -/
def finish (s : TextState) : Option String :=
  if s.broken || s.stray || s.high.isSome then none
  else some (String.ofList s.reversed.reverse)

end TextState

/-- What an escape of one letter denotes. -/
def shortEscape : Char → Option Char
  | '"' => some '"'
  | '\\' => some '\\'
  | '/' => some '/'
  | 'b' => some '\x08'
  | 'f' => some '\x0c'
  | 'n' => some '\n'
  | 'r' => some '\r'
  | 't' => some '\t'
  | _ => none

/-- The value of a digit in base sixteen. -/
def hexValue (c : Char) : Option Nat :=
  if Text.isDigit c then some (Text.digitValue c)
  else if 'a' ≤ c && c ≤ 'f' then some (c.toNat - 87)
  else if 'A' ≤ c && c ≤ 'F' then some (c.toNat - 55)
  else none

/-- The code unit of four digits in base sixteen. -/
def codeUnit (a b c d : Glyph) : Option Nat := do
  let w ← hexValue (← a)
  let x ← hexValue (← b)
  let y ← hexValue (← c)
  let z ← hexValue (← d)
  pure (((w * 16 + x) * 16 + y) * 16 + z)

/-- Fewer than four glyphs follow an escape: if four bytes do then they are no digits. -/
def shortOfUnit (rest : List Glyph) : Break :=
  if 4 ≤ rest.foldl (fun n g => n + Text.glyphSize g) 0 then .malformed else .ended

/-- The rest of a text whose opening quote has been seen. -/
def readText (s : TextState) : List Glyph → Except Halt (Option String × List Glyph)
  | [] => .error (s.halt .ended)
  | none :: rest => readText s.pushStray rest
  | some '"' :: rest => .ok (s.finish, rest)
  | some '\\' :: some 'u' :: a :: b :: c :: d :: rest =>
    match codeUnit a b c d with
    | some n => readText (s.pushUnit n) rest
    | none => .error (s.halt .malformed)
  | some '\\' :: some 'u' :: rest => .error (s.halt (shortOfUnit rest))
  | some '\\' :: some e :: rest =>
    match shortEscape e with
    | some c => readText (s.push c) rest
    | none => .error (s.halt .malformed)
  | some '\\' :: none :: _ => .error (s.halt .malformed)
  | [some '\\'] => .error (s.halt .ended)
  | some c :: rest =>
    if c.toNat < 0x20 then .error (s.halt .malformed) else readText (s.push c) rest

/-- An outline with what follows it; nothing follows a break. -/
abbrev Reading := Doc × Option (List Glyph)

/-- A value that breaks. -/
def broken (h : Halt) : Reading := (.cut h, none)

/-- A word read to its end, or the break in it. -/
def wordReading (d : Doc) (r : Except Break (List Glyph)) : Reading :=
  match r with
  | .ok rest => (d, some rest)
  | .error b => broken (.always b)

mutual

/-- The outline of the next value. -/
def readValue : Nat → List Glyph → Reading
  | 0, _ => broken (.always .malformed)
  | fuel + 1, gs =>
    match skipSpace gs with
    | [] => broken (.always .ended)
    | some 'n' :: rest => wordReading .null (readWord ['u', 'l', 'l'] rest)
    | some 't' :: rest => wordReading (.boolean true) (readWord ['r', 'u', 'e'] rest)
    | some 'f' :: rest => wordReading (.boolean false) (readWord ['a', 'l', 's', 'e'] rest)
    | some '"' :: rest =>
      match readText .start rest with
      | .ok (s, after) => (.text s, some after)
      | .error h => broken h
    | some '[' :: rest =>
      let (items, ending, after) := readItems fuel rest
      (.array items ending, after)
    | some '\x7b' :: rest =>
      let (members, ending, after) := readMembers fuel rest
      (.object members ending, after)
    | some '-' :: rest =>
      match readNumber true rest with
      | .ok (n, after) => (.number n, some after)
      | .error h => broken h
    | some c :: rest =>
      if Text.isDigit c then
        match readNumber false (some c :: rest) with
        | .ok (n, after) => (.number n, some after)
        | .error h => broken h
      else broken (.always .malformed)
    | none :: _ => broken (.always .malformed)

/-- The items behind an opening bracket. -/
def readItems : Nat → List Glyph → List Doc × Option Halt × Option (List Glyph)
  | 0, _ => ([], some (.always .malformed), none)
  | fuel + 1, gs =>
    match skipSpace gs with
    | [] => ([], some (.always .ended), none)
    | some ']' :: rest => ([], none, some rest)
    | gs => readElements fuel gs

/-- One item and those behind it. -/
def readElements : Nat → List Glyph → List Doc × Option Halt × Option (List Glyph)
  | 0, _ => ([], some (.always .malformed), none)
  | fuel + 1, gs =>
    match readValue fuel gs with
    | (d, none) => ([d], none, none)
    | (d, some after) =>
      match skipSpace after with
      | [] => ([d], some (.always .ended), none)
      | some ']' :: rest => ([d], none, some rest)
      | some ',' :: rest =>
        let (items, ending, after) := readElements fuel rest
        (d :: items, ending, after)
      | _ => ([d], some (.always .malformed), none)

/-- The members behind an opening brace. -/
def readMembers :
    Nat → List Glyph → List (Option String × Doc) × Option Halt × Option (List Glyph)
  | 0, _ => ([], some (.always .malformed), none)
  | fuel + 1, gs =>
    match skipSpace gs with
    | [] => ([], some (.always .ended), none)
    | some '\x7d' :: rest => ([], none, some rest)
    | some '"' :: rest => readEntries fuel rest
    | _ => ([], some (.always .malformed), none)

/-- One member from the quote that opens its key, and those behind it. -/
def readEntries :
    Nat → List Glyph → List (Option String × Doc) × Option Halt × Option (List Glyph)
  | 0, _ => ([], some (.always .malformed), none)
  | fuel + 1, gs =>
    match readText .start gs with
    | .error h => ([], some h, none)
    | .ok (key, after) =>
      -- A colon that is missing breaks where the value would be: the key was read already.
      let value : Reading := match skipSpace after with
        | [] => broken (.always .ended)
        | some ':' :: rest => readValue fuel rest
        | _ => broken (.always .malformed)
      match value with
      | (d, none) => ([(key, d)], none, none)
      | (d, some after) =>
        match skipSpace after with
        | [] => ([(key, d)], some (.always .ended), none)
        | some '\x7d' :: rest => ([(key, d)], none, some rest)
        | some ',' :: rest =>
          match skipSpace rest with
          | [] => ([(key, d)], some (.always .ended), none)
          | some '"' :: rest =>
            let (members, ending, after) := readEntries fuel rest
            ((key, d) :: members, ending, after)
          | _ => ([(key, d)], some (.always .malformed), none)
        | _ => ([(key, d)], some (.always .malformed), none)

end

/-- The outline of a text and what follows it. Every level of nesting takes a character and
three steps, every comma a character and one, so that three times the length of the text
bounds the depth of the recursion. -/
def Doc.read (gs : List Glyph) : Reading := readValue (3 * gs.length + 3) gs

/-- The break that ends a list of parts, if one does. -/
def closing (side : Halt → Break) : Option Halt → Except Break Unit
  | none => .ok ()
  | some h => .error (side h)

mutual

/-- Passing over a value: only a break of the grammar can be in the way. -/
def Doc.skip : Doc → Except Break Unit
  | .null | .boolean _ | .number _ | .text _ => .ok ()
  | .array items ending => do
    skipItems items
    closing Halt.skipped ending
  | .object members ending => do
    skipMembers members
    closing Halt.skipped ending
  | .cut h => .error h.skipped

/-- Passing over items. -/
def skipItems : List Doc → Except Break Unit
  | [] => .ok ()
  | d :: rest => do
    d.skip
    skipItems rest

/-- Passing over members. -/
def skipMembers : List (Option String × Doc) → Except Break Unit
  | [] => .ok ()
  | (_, d) :: rest => do
    d.skip
    skipMembers rest

end

/-- Something that a reader wants and that may denote nothing. -/
def wantedPart {α : Type} : Option α → Except Break α
  | some a => .ok a
  | none => .error .malformed

mutual

/-- A value kept whole. The bound says how many levels of brackets and braces it may have. -/
def Doc.buffer : Nat → Doc → Except Break Value
  | _, .null => .ok .null
  | _, .boolean b => .ok (.boolean b)
  | _, .number n => (wantedPart n).map .number
  | _, .text s => (wantedPart s).map .text
  | 0, .array _ _ => .error .malformed
  | 0, .object _ _ => .error .malformed
  | depth + 1, .array items ending => do
    let vs ← bufferItems depth items
    closing Halt.wanted ending
    pure (.array vs)
  | depth + 1, .object members ending => do
    let ms ← bufferMembers depth members
    closing Halt.wanted ending
    pure (.object ms)
  | _, .cut h => .error h.wanted

/-- Items kept whole. -/
def bufferItems : Nat → List Doc → Except Break (List Value)
  | _, [] => .ok []
  | depth, d :: rest => do
    let v ← d.buffer depth
    let vs ← bufferItems depth rest
    pure (v :: vs)

/-- Members kept whole. -/
def bufferMembers : Nat → List (Option String × Doc) → Except Break (List (String × Value))
  | _, [] => .ok []
  | depth, (k, d) :: rest => do
    let key ← wantedPart k
    let v ← d.buffer depth
    let vs ← bufferMembers depth rest
    pure ((key, v) :: vs)

end

end FaultPoints.Json
