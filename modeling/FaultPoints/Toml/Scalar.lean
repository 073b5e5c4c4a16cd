import FaultPoints.Decimal.Reading

/-!
# Scalars of settings files

Settings files are written in TOML. This module reads what a value without parts can be: a
text in one of four styles of quotes, a number, a truth value, or a date with or without a
time.

A reader takes a list of characters and gives what it read with what is left, or nothing
where the list does not start as it should.

## Main Definitions

* `Toml.Reader` — a reader
* `Toml.readText` — texts
* `Toml.readNumber` — integers and binary64 numbers
* `Toml.readMoment` — dates and times, in their normal form
* `Toml.readScalar` — any scalar
-/

namespace FaultPoints.Toml

/-- What a value without parts can be. -/
inductive Scalar where
  /-- A truth value. -/
  | boolean (value : Bool)
  /-- An integer of sixty-four bits with sign. -/
  | whole (value : Int)
  /-- A binary64 number. -/
  | real (value : Binary64)
  /-- A text. -/
  | text (value : String)
  /-- A date or a time in its normal form. -/
  | moment (written : String)
  deriving DecidableEq

/-- Takes what it wants from the front of a list. -/
abbrev Reader (α : Type) := List Char → Option (α × List Char)

/-- What is left behind given characters at the front. -/
def dropFront : List Char → List Char → Option (List Char)
  | [], cs => some cs
  | w :: ws, c :: cs => if w = c then dropFront ws cs else none
  | _ :: _, [] => none

/-- Whether a text or a comment may hold the character as it stands. -/
def isPlain (c : Char) : Bool :=
  c = '\t' || (0x20 ≤ c.toNat && c.toNat ≤ 0x7E) || 0x80 ≤ c.toNat

/-- What follows the end of a line, if a line ends here. -/
def dropNewline : List Char → Option (List Char)
  | '\n' :: rest => some rest
  | '\r' :: '\n' :: rest => some rest
  | _ => none

/-- Whether a character is blank inside a line. -/
def isSpace (c : Char) : Bool := c = ' ' || c = '\t'

/-- A list without the blanks in front. -/
def dropSpace (cs : List Char) : List Char := cs.dropWhile isSpace

/-- What a digit in a base up to sixteen stands for. -/
def digitIn (base : Nat) (c : Char) : Option Nat :=
  let d :=
    if Text.isDigit c then c.toNat - 48
    else if 'a' ≤ c && c ≤ 'f' then c.toNat - 87
    else if 'A' ≤ c && c ≤ 'F' then c.toNat - 55
    else 16
  if d < base then some d else none

/-- The character of a code point that a number of hexadecimal digits writes. -/
def codePoint (count : Nat) (cs : List Char) : Option (Char × List Char) :=
  let ds := cs.take count
  if ds.length ≠ count then none
  else do
    let n ← ds.foldlM (fun n c => (digitIn 16 c).map (16 * n + ·)) 0
    if h : n.isValidChar then some (Char.ofNatAux n h, cs.drop count) else none

/-- The character that stands behind a backslash. -/
def readEscape : Reader Char
  | 'b' :: rest => some ('\x08', rest)
  | 't' :: rest => some ('\t', rest)
  | 'n' :: rest => some ('\n', rest)
  | 'f' :: rest => some ('\x0c', rest)
  | 'r' :: rest => some ('\r', rest)
  | '"' :: rest => some ('"', rest)
  | '\\' :: rest => some ('\\', rest)
  | 'u' :: rest => codePoint 4 rest
  | 'U' :: rest => codePoint 8 rest
  | _ => none

/-- The rest of a text between double quotes on one line. The first argument bounds the
number of characters. -/
def basicRest : Nat → Reader (List Char)
  | 0, _ => none
  | _, '"' :: rest => some ([], rest)
  | fuel + 1, '\\' :: rest => do
    let (c, rest) ← readEscape rest
    let (cs, rest) ← basicRest fuel rest
    pure (c :: cs, rest)
  | fuel + 1, c :: rest =>
    if isPlain c then (basicRest fuel rest).map fun r => (c :: r.1, r.2) else none
  | _, [] => none

/-- The rest of a text between single quotes on one line. -/
def literalRest (cs : List Char) : Option (List Char × List Char) :=
  let body := cs.takeWhile fun c => isPlain c && c ≠ '\''
  match cs.dropWhile fun c => isPlain c && c ≠ '\'' with
  | '\'' :: rest => some (body, rest)
  | _ => none

/-- Blanks and ends of lines in front of a list, all of them. -/
def dropBlankLines : Nat → List Char → List Char
  | 0, cs => cs
  | fuel + 1, cs =>
    match cs with
    | ' ' :: rest => dropBlankLines fuel rest
    | '\t' :: rest => dropBlankLines fuel rest
    | '\n' :: rest => dropBlankLines fuel rest
    | '\r' :: '\n' :: rest => dropBlankLines fuel rest
    | _ => cs

/-- The end of a text over several lines: three quotes, with up to two more before them that
belong to the text. -/
def closingQuotes (q : Char) (cs : List Char) : Option (List Char × List Char) :=
  let run := (cs.takeWhile (· = q)).length
  if run < 3 then none
  else
    let own := min (run - 3) 2
    some (List.replicate own q, cs.drop (own + 3))

/-- The rest of a text over several lines. Between double quotes there are escapes, and a
backslash at the end of a line drops everything blank that follows. -/
def longRest (q : Char) : Nat → Reader (List Char)
  | 0, _ => none
  | fuel + 1, cs =>
    match closingQuotes q cs with
    | some r => some r
    | none =>
      match cs with
      | [] => none
      | '\n' :: rest => (longRest q fuel rest).map fun r => ('\n' :: r.1, r.2)
      | '\r' :: '\n' :: rest => (longRest q fuel rest).map fun r => ('\n' :: r.1, r.2)
      | c :: rest =>
        if c = '\\' && q = '"' then
          match readEscape rest with
          | some (e, rest) => (longRest q fuel rest).map fun r => (e :: r.1, r.2)
          | none =>
            match dropNewline (dropSpace rest) with
            | some rest => longRest q fuel (dropBlankLines rest.length rest)
            | none => none
        else if isPlain c then (longRest q fuel rest).map fun r => (c :: r.1, r.2)
        else none

/-- A list without the end of a line in front, if there is one. -/
def withoutNewline (cs : List Char) : List Char := (dropNewline cs).getD cs

/-- A text in any style of quotes; only the two styles of one line where it is a key. -/
def readText (isKey : Bool) (cs : List Char) : Option (String × List Char) :=
  let fuel := cs.length + 1
  let r := match cs with
    | '"' :: rest =>
      match isKey, rest with
      | false, '"' :: '"' :: body => longRest '"' fuel (withoutNewline body)
      | _, _ => basicRest fuel rest
    | '\'' :: rest =>
      match isKey, rest with
      | false, '\'' :: '\'' :: body => longRest '\'' fuel (withoutNewline body)
      | _, _ => literalRest rest
    | _ => none
  r.map fun x => (String.ofList x.1, x.2)

/-- The rest of a group of digits, which single underscores may part. -/
def digitsRest (base : Nat) : List Char → List Char × List Char
  | '_' :: c :: rest =>
    if (digitIn base c).isSome then
      let (ds, after) := digitsRest base rest
      (c :: ds, after)
    else ([], '_' :: c :: rest)
  | c :: rest =>
    if (digitIn base c).isSome then
      let (ds, after) := digitsRest base rest
      (c :: ds, after)
    else ([], c :: rest)
  | [] => ([], [])

/-- A group of digits. -/
def readDigits (base : Nat) : Reader (List Char)
  | c :: rest =>
    if (digitIn base c).isSome then
      let (ds, after) := digitsRest base rest
      some (c :: ds, after)
    else none
  | [] => none

/-- The number that digits of a base denote. -/
def ofDigits (base : Nat) (ds : List Char) : Nat :=
  ds.foldl (fun n c => base * n + (digitIn base c).getD 0) 0

/-- The sign in front of a number. -/
def readSign : List Char → Option Bool × List Char
  | '+' :: rest => (some false, rest)
  | '-' :: rest => (some true, rest)
  | cs => (none, cs)

/-- An integer in a base that its first two characters name. -/
def readBased (base : Nat) (cs : List Char) : Option (Scalar × List Char) := do
  let (ds, rest) ← readDigits base cs
  let n := ofDigits base ds
  if n < Text.signedLimit then some (.whole n, rest) else none

/-- The part of a number behind its point: nothing, or digits. -/
def readFraction : List Char → Option (List Char) × List Char
  | '.' :: rest =>
    match readDigits 10 rest with
    | some (ds, after) => (some ds, after)
    | none => (none, '.' :: rest)
  | cs => (none, cs)

/-- The exponent of a number. -/
def readExponent : List Char → Option Int × List Char
  | c :: rest =>
    if c = 'e' || c = 'E' then
      let (sign, body) := readSign rest
      match readDigits 10 body with
      | some (ds, after) =>
        let n : Int := Text.ofDigits ds
        (some (if sign = some true then -n else n), after)
      | none => (none, c :: rest)
    else (none, c :: rest)
  | [] => (none, [])

/-- A number in base ten, without leading zeros. A binary64 number must not be beyond every
bound, unless it is negative. -/
def readDecimal (cs : List Char) : Option (Scalar × List Char) := do
  let (sign, body) := readSign cs
  let negative := sign = some true
  let (ds, afterWhole) ← readDigits 10 body
  if ds.head? = some '0' && 1 < ds.length then none
  else
    let (fraction, afterFraction) := readFraction afterWhole
    let (exponent, rest) := readExponent afterFraction
    if fraction.isNone && exponent.isNone then
      let n := Text.ofDigits ds
      if negative then
        if n ≤ Text.signedLimit then some (.whole (-(n : Int)), rest) else none
      else if n < Text.signedLimit then some (.whole n, rest) else none
    else
      let part := fraction.getD []
      let d : Digits := ⟨Text.ofDigits (ds ++ part), exponent.getD 0 - (part.length : Int)⟩
      let x := d.toBinary64 negative
      if x.isInfinite && !negative then none else some (.real x, rest)

/-- A number that is not finite, by its name. -/
def readNamed (cs : List Char) : Option (Scalar × List Char) :=
  let (sign, body) := readSign cs
  match dropFront ['i', 'n', 'f'] body with
  | some rest => some (.real (Binary64.infinity (sign = some true)), rest)
  | none => (dropFront ['n', 'a', 'n'] body).map fun rest => (.real Binary64.nan, rest)

/-- A number. -/
def readNumber (cs : List Char) : Option (Scalar × List Char) :=
  match cs with
  | '0' :: 'x' :: rest => readBased 16 rest
  | '0' :: 'o' :: rest => readBased 8 rest
  | '0' :: 'b' :: rest => readBased 2 rest
  | _ =>
    match readNamed cs with
    | some r => some r
    | none => readDecimal cs

/-- A number of exactly so many digits between two bounds. -/
def readField (width low high : Nat) (cs : List Char) : Option (Nat × List Char) :=
  let ds := cs.take width
  if ds.length = width && ds.all Text.isDigit then
    let n := Text.ofDigits ds
    if low ≤ n && n ≤ high then some (n, cs.drop width) else none
  else none

/-- How many days a month has. -/
def daysOf (year month : Nat) : Nat :=
  if month = 2 then
    if year % 4 = 0 && (year % 100 ≠ 0 || year % 400 = 0) then 29 else 28
  else if month = 4 || month = 6 || month = 9 || month = 11 then 30
  else 31

/-- A date in its normal form. -/
def readDate (cs : List Char) : Option (String × List Char) := do
  let (year, rest) ← readField 4 0 9999 cs
  let rest ← dropFront ['-'] rest
  let (month, rest) ← readField 2 1 12 rest
  let rest ← dropFront ['-'] rest
  let (day, rest) ← readField 2 1 (daysOf year month) rest
  pure (Text.padded 4 year ++ "-" ++ Text.padded 2 month ++ "-" ++ Text.padded 2 day, rest)

/-- Digits without zeros at their end. -/
def withoutTrailingZeros (ds : List Char) : List Char :=
  (ds.reverse.dropWhile (· = '0')).reverse

/-- A time in its normal form: at most nine places of a second, without zeros at their end. -/
def readTime (cs : List Char) : Option (String × List Char) := do
  let (hour, rest) ← readField 2 0 23 cs
  let rest ← dropFront [':'] rest
  let (minute, rest) ← readField 2 0 59 rest
  let rest ← dropFront [':'] rest
  let (second, rest) ← readField 2 0 60 rest
  let base := Text.padded 2 hour ++ ":" ++ Text.padded 2 minute ++ ":" ++ Text.padded 2 second
  match rest with
  | '.' :: after =>
    let ds := after.takeWhile Text.isDigit
    if ds.isEmpty then some (base, rest)
    else
      let shown := withoutTrailingZeros (ds.take 9)
      let part := if shown.isEmpty then "" else "." ++ String.ofList shown
      some (base ++ part, after.dropWhile Text.isDigit)
  | _ => some (base, rest)

/-- The offset of a time in its normal form. -/
def readOffset (cs : List Char) : Option (String × List Char) :=
  match cs with
  | 'Z' :: rest => some ("Z", rest)
  | 'z' :: rest => some ("Z", rest)
  | _ => do
    let (sign, body) := readSign cs
    let negative ← sign
    let (hours, rest) ← readField 2 0 23 body
    let rest ← dropFront [':'] rest
    let (minutes, rest) ← readField 2 0 59 rest
    let shown := if negative && (hours ≠ 0 || minutes ≠ 0) then "-" else "+"
    pure (shown ++ Text.padded 2 hours ++ ":" ++ Text.padded 2 minutes, rest)

/-- A date, a time, or both with or without an offset. -/
def readMoment (cs : List Char) : Option (String × List Char) :=
  match readDate cs with
  | none => readTime cs
  | some (date, rest) =>
    match rest with
    | d :: after =>
      if d = 'T' || d = 't' || d = ' ' then
        match readTime after with
        | some (time, rest) =>
          match readOffset rest with
          | some (offset, rest) => some (date ++ "T" ++ time ++ offset, rest)
          | none => some (date ++ "T" ++ time, rest)
        | none => some (date, rest)
      else some (date, rest)
    | [] => some (date, rest)

/-- Any scalar. -/
def readScalar (cs : List Char) : Option (Scalar × List Char) :=
  match cs with
  | '"' :: _ => (readText false cs).map fun r => (.text r.1, r.2)
  | '\'' :: _ => (readText false cs).map fun r => (.text r.1, r.2)
  | 't' :: rest => (dropFront ['r', 'u', 'e'] rest).map fun rest => (.boolean true, rest)
  | 'f' :: rest => (dropFront ['a', 'l', 's', 'e'] rest).map fun rest => (.boolean false, rest)
  | _ =>
    match readMoment cs with
    | some (m, rest) => some (.moment m, rest)
    | none => readNumber cs

end FaultPoints.Toml
