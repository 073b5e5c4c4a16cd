import FaultPoints.Text.Digits
import FaultPoints.Text.Quoted

/-!
# Addresses of the network

Addresses of both families are read and written in their usual forms. The numbers of a
dotted address have no leading zeros; a run of zero groups may be left out of a grouped
address once, and the longest such run, the first of several, is left out when it is
written.

## Main Definitions

* `Net.Ip`, `Net.Ip.read`, `Net.Ip.render` — addresses of hosts
* `Net.Endpoint`, `Net.Endpoint.read`, `Net.Endpoint.render` — a host with a port
-/

namespace FaultPoints.Net

/-- The address of a host. -/
inductive Ip where
  /-- Four octets. -/
  | dotted (a b c d : UInt8)
  /-- Eight groups of sixteen bits. -/
  | grouped (groups : List UInt16) (eight : groups.length = 8)
  deriving DecidableEq

/-- A host with a port. The scope is zero unless the address names one. The flow label that a
grouped address may carry in memory has no written form and is zero in every address that was
read; it is left out. -/
structure Endpoint where
  /-- The address of the host. -/
  ip : Ip
  /-- The scope of a grouped address. -/
  scope : UInt32
  /-- The port. -/
  port : UInt16
  deriving DecidableEq

/-- A reader takes a part from the front of a list. -/
abbrev Reader (α : Type) := List Char → Option (α × List Char)

/-- The value of a digit in a base of at most sixteen. -/
def digitIn (base : Nat) (c : Char) : Option Nat :=
  let v := if Text.isDigit c then some (Text.digitValue c)
    else if 'a' ≤ c && c ≤ 'f' then some (c.toNat - 87)
    else if 'A' ≤ c && c ≤ 'F' then some (c.toNat - 55)
    else none
  v.filter (· < base)

/-- A number below a limit from all digits at the front, at most so many of them. -/
def number (base limit : Nat) (most : Option Nat) (leadingZeros : Bool) : Reader Nat := fun cs =>
  let ds := cs.takeWhile fun c => (digitIn base c).isSome
  let n := ds.foldl (fun n c => base * n + (digitIn base c).getD 0) 0
  let tooMany := match most with
    | some m => m < ds.length
    | none => false
  if ds.isEmpty || tooMany || limit ≤ n then none
  else if !leadingZeros && ds.head? == some '0' && 1 < ds.length then none
  else some (n, cs.dropWhile fun c => (digitIn base c).isSome)

/-- One given character. -/
def character (c : Char) : Reader Unit
  | d :: rest => if c = d then some ((), rest) else none
  | [] => none

/-- A number of a dotted address. -/
def octet : Reader UInt8 := fun cs =>
  (number 10 256 (some 3) false cs).map fun r => (UInt8.ofNat r.1, r.2)

/-- A dotted address. -/
def dottedReader : Reader (UInt8 × UInt8 × UInt8 × UInt8) := fun cs => do
  let (a, cs) ← octet cs
  let (_, cs) ← character '.' cs
  let (b, cs) ← octet cs
  let (_, cs) ← character '.' cs
  let (c, cs) ← octet cs
  let (_, cs) ← character '.' cs
  let (d, cs) ← octet cs
  pure ((a, b, c, d), cs)

/-- A part with a colon in front of it, unless it is the first. -/
def separated {α : Type} (first : Bool) (part : Reader α) : Reader α := fun cs =>
  if first then part cs
  else do
    let (_, cs) ← character ':' cs
    part cs

/-- Two octets as a group. -/
def pairGroup (a b : UInt8) : UInt16 := UInt16.ofNat (a.toNat * 256 + b.toNat)

/-- Up to so many groups, the last two of which may be written as a dotted address; whether
they were is told. -/
def groups : Nat → Bool → List Char → List UInt16 × Bool × List Char
  | 0, _, cs => ([], false, cs)
  | room + 1, first, cs =>
    -- A dotted address takes the room of two groups.
    let embedded := if 0 < room then separated first dottedReader cs else none
    match embedded with
    | some ((a, b, c, d), rest) => ([pairGroup a b, pairGroup c d], true, rest)
    | none =>
      match separated first (number 16 65536 (some 4) true) cs with
      | none => ([], false, cs)
      | some (n, rest) =>
        let (gs, isDotted, rest) := groups room false rest
        (UInt16.ofNat n :: gs, isDotted, rest)

/-- A grouped address: eight groups, or fewer with two colons for the zero groups between. -/
def groupedReader : Reader (List UInt16) := fun cs =>
  let (head, headDotted, cs) := groups 8 true cs
  if head.length = 8 then some (head, cs)
  else if headDotted then none
  else do
    let (_, cs) ← character ':' cs
    let (_, cs) ← character ':' cs
    let (tail, _, cs) := groups (7 - head.length) true cs
    pure (head ++ List.replicate (8 - head.length - tail.length) 0 ++ tail, cs)

/-- A list of groups as an address, provided that there are eight. -/
def ofGroups (gs : List UInt16) : Option Ip :=
  if h : gs.length = 8 then some (.grouped gs h) else none

/-- A part that must be the whole of a text. -/
def whole {α : Type} (r : Reader α) (s : String) : Option α :=
  match r s.toList with
  | some (a, []) => some a
  | _ => none

/-- The address of a host. -/
def Ip.read (s : String) : Option Ip :=
  match whole dottedReader s with
  | some (a, b, c, d) => some (.dotted a b c d)
  | none => (whole groupedReader s).bind ofGroups

/-- A port. -/
def port : Reader UInt16 := fun cs =>
  (number 10 65536 none true cs).map fun r => (UInt16.ofNat r.1, r.2)

/-- A dotted address with a port. -/
def dottedEndpoint : Reader Endpoint := fun cs => do
  let ((a, b, c, d), cs) ← dottedReader cs
  let (_, cs) ← character ':' cs
  let (p, cs) ← port cs
  pure (⟨.dotted a b c d, 0, p⟩, cs)

/-- The scope of a grouped address, if it names one. -/
def scope : Reader UInt32
  | '%' :: cs => (number 10 4294967296 none true cs).map fun r => (UInt32.ofNat r.1, r.2)
  | cs => some (0, cs)

/-- A grouped address in brackets with a port. -/
def groupedEndpoint : Reader Endpoint := fun cs => do
  let (_, cs) ← character '[' cs
  let (gs, cs) ← groupedReader cs
  let ip ← ofGroups gs
  let (s, cs) ← scope cs
  let (_, cs) ← character ']' cs
  let (_, cs) ← character ':' cs
  let (p, cs) ← port cs
  pure (⟨ip, s, p⟩, cs)

/-- A host with a port. -/
def Endpoint.read (s : String) : Option Endpoint :=
  match whole dottedEndpoint s with
  | some e => some e
  | none => whole groupedEndpoint s

/-- How many zero groups stand at the front. -/
def zerosAtFront (gs : List UInt16) : Nat := (gs.takeWhile (· = 0)).length

/-- Where the longest run of zero groups starts, the first of several, and its length. -/
def longestZeros (gs : List UInt16) : Nat × Nat :=
  (List.range gs.length).foldl (fun best i =>
    let n := zerosAtFront (gs.drop i)
    if best.2 < n then (i, n) else best) (0, 0)

/-- Groups with colons between them. -/
def groupText (gs : List UInt16) : String :=
  ":".intercalate (gs.map fun g => String.ofList (Text.hexDigits g.toNat))

/-- Four octets with full stops between them. -/
def dottedText (a b c d : Nat) : String :=
  ".".intercalate ([a, b, c, d].map Text.natural)

/-- The written form of a grouped address. One that carries a dotted address behind the group
`ffff` shows it as such. -/
def groupedText (gs : List UInt16) : String :=
  match gs with
  | [0, 0, 0, 0, 0, 0xffff, x, y] =>
    "::ffff:" ++ dottedText (x.toNat / 256) (x.toNat % 256) (y.toNat / 256) (y.toNat % 256)
  | _ =>
    let (start, length) := longestZeros gs
    if 1 < length then groupText (gs.take start) ++ "::" ++ groupText (gs.drop (start + length))
    else groupText gs

/-- The written form of the address of a host. -/
def Ip.render : Ip → String
  | .dotted a b c d => dottedText a.toNat b.toNat c.toNat d.toNat
  | .grouped gs _ => groupedText gs

/-- The written form of a host with a port. -/
def Endpoint.render (e : Endpoint) : String :=
  match e.ip with
  | .dotted .. => e.ip.render ++ ":" ++ Text.natural e.port.toNat
  | .grouped gs _ =>
    let scope := if e.scope = 0 then "" else "%" ++ Text.natural e.scope.toNat
    "[" ++ groupedText gs ++ scope ++ "]:" ++ Text.natural e.port.toNat

/-- Whether the address stands for this host only or for all of its addresses. -/
def Ip.isLocal : Ip → Bool
  | .dotted a b c d => a == 127 || (a == 0 && b == 0 && c == 0 && d == 0)
  | .grouped gs _ => gs.take 7 == List.replicate 7 0 && (gs.drop 7).all (· ≤ 1)

end FaultPoints.Net
