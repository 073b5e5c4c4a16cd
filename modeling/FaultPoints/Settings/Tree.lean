import FaultPoints.Settings.Section
import FaultPoints.Decimal.Reading
import FaultPoints.Json.Mismatch

/-!
# Layers of settings

Settings come from several sources. Each source is a tree of values under keys; laying one
over another merges tables key by key and replaces everything else, lists included. Keys
of tables are the same in letters of either case.

Typed settings are read from the merged tree. Scalars convert into one another freely:
texts into numbers and truth values where they spell one, numbers into texts, and a number
that is not whole into the nearest integer.

## Main Definitions

* `Settings.Tree` — a tree of values
* `Settings.Path` — a place in a tree, as the keys of sources write it
* `Settings.Tree.setAt` — storing a value at a place
* `Settings.Tree.overlaid` — laying a source over a tree
* `Settings.ofTree`, `Settings.toTree` — typed settings from and to a tree
* `Settings.SourceError` — why settings cannot be loaded
-/

namespace FaultPoints.Settings

/-- A tree of values. -/
inductive Tree where
  /-- No value. -/
  | absent
  /-- A truth value. -/
  | boolean (value : Bool)
  /-- An integer of sixty-four bits with sign. -/
  | whole (value : Int)
  /-- A binary64 number. -/
  | real (value : Binary64)
  /-- A text. -/
  | text (value : String)
  /-- Values in order. -/
  | list (items : List Tree)
  /-- Values under keys. -/
  | table (entries : List (String × Tree))

/-- Why settings cannot be loaded. -/
inductive SourceError where
  /-- The value at a key cannot be converted. -/
  | unfit (key : Option String)
  /-- The values do not have the shape of the settings. -/
  | shape (message : String)
  /-- The text of a file does not follow the grammar. -/
  | grammar
  /-- A file cannot be found or is of an unknown format. -/
  | unavailable
  deriving DecidableEq, Repr

/-- The blame moved out by one key. -/
def SourceError.underKey (k : String) : SourceError → SourceError
  | .unfit none => .unfit (some k)
  | .unfit (some inner) =>
    .unfit (some (if inner.startsWith "[" then k ++ inner else k ++ "." ++ inner))
  | e => e

/-- The blame moved out by one place of a list. -/
def SourceError.underIndex (i : Nat) : SourceError → SourceError
  | .unfit inner => .unfit (some ("[" ++ Text.natural i ++ "]" ++ inner.getD ""))
  | e => e

/-- A key in small letters. -/
def foldKey (k : String) : String := String.ofList (k.toList.map Char.toLower)

/-- The entries with one replaced or added at the end. -/
def put (k : String) (t : Tree) : List (String × Tree) → List (String × Tree)
  | [] => [(k, t)]
  | (k', t') :: rest => if k = k' then (k, t) :: rest else (k', t') :: put k t rest

namespace Tree

/-- The entries of a table; everything else has none. -/
def entries : Tree → List (String × Tree)
  | table es => es
  | _ => []

/-- The items of a list; everything else has none. -/
def items : Tree → List Tree
  | list ts => ts
  | _ => []

mutual

/-- Stores a value under a key of a table. A table is merged into what is there; any other
value replaces it. -/
def setKey (root : Tree) (k : String) : Tree → Tree
  | table incoming =>
    -- What stands there may be no table; merging the first key then replaces it.
    let es := root.entries
    let target := (es.lookup (foldKey k)).getD (table [])
    table (put (foldKey k) (mergeKeys target incoming) es)
  | v => table (put (foldKey k) v root.entries)

/-- Stores values under keys of a table, one after the other. The order matters only where two
keys differ in nothing but the case of their letters: the later one counts here, while a table
that is kept without an order may let either of them win. -/
def mergeKeys (target : Tree) : List (String × Tree) → Tree
  | [] => target
  | (k, v) :: rest => mergeKeys (setKey target k v) rest

end

end Tree

/-- One step to a place in a tree. -/
inductive Step where
  /-- To the value under a key. -/
  | key (name : String)
  /-- To the value at an index, from the end where it is negative. -/
  | index (i : Int)
  deriving DecidableEq, Repr

/-- A place in a tree: a key of the root and the steps from there. -/
structure Path where
  /-- The key of the root. -/
  root : String
  /-- The steps from there. -/
  steps : List Step
  deriving DecidableEq, Repr

/-- Whether a key of a path may have the character. -/
def isKeyCharacter (c : Char) : Bool := c.isAlphanum || c = '_' || c = '-' || c = ' '

/-- An index between brackets with what follows it. -/
def readIndex (cs : List Char) : Option (Int × List Char) :=
  let body := cs.dropWhile (· = ' ')
  let (negative, body) := match body with
    | '-' :: rest => (true, rest)
    | _ => (false, body)
  let ds := body.takeWhile Text.isDigit
  match (body.dropWhile Text.isDigit).dropWhile (· = ' ') with
  | ']' :: rest =>
    (Text.readNatural ds).map fun n => (if negative then -(n : Int) else n, rest)
  | _ => none

/-- The steps that a list of characters writes. -/
def readSteps : Nat → List Char → Option (List Step)
  | 0, _ => none
  | _, [] => some []
  | fuel + 1, '.' :: rest =>
    let name := rest.takeWhile isKeyCharacter
    if name.isEmpty then none
    else (readSteps fuel (rest.dropWhile isKeyCharacter)).map (.key (String.ofList name) :: ·)
  | fuel + 1, '[' :: rest =>
    match readIndex rest with
    | some (i, after) => (readSteps fuel after).map (.index i :: ·)
    | none => none
  | _, _ => none

/-- The place that the key of a source writes. A key that writes none is a key of the root as
it stands. -/
def Path.read (k : String) : Path :=
  let cs := k.toList
  let root := cs.takeWhile isKeyCharacter
  let rest := cs.dropWhile isKeyCharacter
  match (if root.isEmpty then none else readSteps (rest.length + 1) rest) with
  | some steps => ⟨String.ofList root, steps⟩
  | none => ⟨k, []⟩

namespace Tree

/-- The position of an index in a list of a given length. -/
def position (i : Int) (length : Nat) : Nat :=
  match i with
  | .ofNat n => n
  | .negSucc n => length - (n + 1)

/-- A list that is long enough for a position. -/
def extended (ts : List Tree) (n : Nat) (filler : Tree) : List Tree :=
  ts ++ List.replicate (n + 1 - ts.length) filler

/-- Stores a value at the end of the steps from a tree. What is in the way of a step is
replaced by a table or a list. -/
def setSteps (v : Tree) : List Step → Tree → Tree
  | [], _ => v
  | [.key k], t => setKey (table t.entries) k v
  | .key k :: rest, t =>
    let es := t.entries
    table (put k (setSteps v rest ((es.lookup k).getD absent)) es)
  | .index i :: rest, t =>
    let n := position i t.items.length
    let ts := extended t.items n (table [])
    list (ts.set n (setSteps v rest ((ts[n]?).getD absent)))

/-- Stores a value at a place of a tree. -/
def setAt (root : Tree) (p : Path) (v : Tree) : Tree :=
  setSteps v (.key p.root :: p.steps) root

/-- Lays the entries of a source over a tree. -/
def overlaid (root : Tree) (source : List (String × Tree)) : Tree :=
  source.foldl (fun t e => t.setAt (Path.read e.1) e.2) root

/-- A value as a message names it. -/
def describe : Tree → String
  | absent => "unit value"
  | boolean b => (Json.Found.boolean b).describe
  | whole i => (Json.Found.number (.whole i)).describe
  | real x => "floating point `" ++ Layout.cited.render x ++ "`"
  | text s => (Json.Found.text s).describe
  | list _ => "sequence"
  | table _ => "map"

/-- The value has another shape than the wanted one. -/
def misshapen {α : Type} (t : Tree) (wanted : String) : Except SourceError α :=
  .error (.shape ("invalid type: " ++ t.describe ++ ", expected " ++ wanted))

/-- The value cannot be converted. -/
def unfit {α : Type} : Except SourceError α := .error (.unfit none)

/-- The truth value that a text spells. -/
def spelledBoolean (s : String) : Option Bool :=
  let k := foldKey s
  if ["1", "true", "on", "yes"].contains k then some true
  else if ["0", "false", "off", "no"].contains k then some false
  else none

/-- The number that a text spells as a word. -/
def spelledNumber (s : String) : Option Nat :=
  let k := foldKey s
  if ["true", "on", "yes"].contains k then some 1
  else if ["false", "off", "no"].contains k then some 0
  else none

/-- As a truth value. A number is true unless it is zero. -/
def toBoolean : Tree → Except SourceError Bool
  | boolean b => .ok b
  | whole i => .ok (i != 0)
  | real x => .ok (!x.isZero)
  | text s => match spelledBoolean s with
    | some b => .ok b
    | none => unfit
  | _ => unfit

/-- The unsigned integer of sixty-four bits that is nearest to a number. -/
def clamp (x : Binary64) : Nat :=
  if x.isNan || x.negative then 0
  else if x.isInfinite then Text.wordLimit - 1
  else min x.roundedAway (Text.wordLimit - 1)

/-- As an unsigned integer of sixty-four bits. -/
def toUnsigned : Tree → Except SourceError Nat
  | boolean b => .ok b.toNat
  | whole i => if 0 ≤ i then .ok i.toNat else unfit
  | real x => .ok (clamp x)
  | text s => match spelledNumber s with
    | some n => .ok n
    | none => match Text.readUnsigned Text.wordLimit s.toList with
      | some n => .ok n
      | none => unfit
  | _ => unfit

/-- As a binary64 number. -/
def toReal : Tree → Except SourceError Binary64
  | boolean b => .ok (Binary64.ofNatural b.toNat)
  | whole i => .ok (Binary64.ofInteger i)
  | real x => .ok x
  | text s => match spelledNumber s with
    | some n => .ok (Binary64.ofNatural n)
    | none => match Decimal.read s with
      | some x => .ok x
      | none => unfit
  | _ => unfit

/-- As a text. -/
def toText : Tree → Except SourceError String
  | boolean b => .ok (if b then "true" else "false")
  | whole i => .ok (Text.integer i)
  | real x => .ok (Layout.message.render x)
  | text s => .ok s
  | _ => unfit

/-- As a value that may be absent. -/
def toOption {α : Type} (convert : Tree → Except SourceError α) :
    Tree → Except SourceError (Option α)
  | absent => .ok none
  | t => (convert t).map some

/-- Converts the items of a list, each under the blame of its index. -/
def convertItems {α : Type} (convert : Tree → Except SourceError α) :
    Nat → List Tree → Except SourceError (List α)
  | _, [] => .ok []
  | i, t :: rest => do
    let a ← (convert t).mapError (.underIndex i)
    let as ← convertItems convert (i + 1) rest
    pure (a :: as)

/-- As a list of values. -/
def toList {α : Type} (convert : Tree → Except SourceError α) : Tree → Except SourceError (List α)
  | list ts => convertItems convert 0 ts
  | t => t.misshapen "a sequence"

/-- The parts of a record: under keys, or in the order of its members. -/
inductive Parts where
  /-- Under keys. -/
  | keyed (entries : List (String × Tree))
  /-- In order. -/
  | listed (items : List Tree)

/-- The parts of a record. -/
def parts (wanted : String) : Tree → Except SourceError Parts
  | table es => .ok (.keyed es)
  | list ts => .ok (.listed ts)
  | t => t.misshapen wanted

/-- A part of a record by its name and its number. -/
def Parts.part {α : Type} (p : Parts) (number : Nat) (name : String)
    (convert : Tree → Except SourceError α) : Except SourceError (Option α) :=
  match p with
  | .keyed es => match es.lookup name with
    | some t => ((convert t).map some).mapError (.underKey name)
    | none => .ok none
  | .listed ts => match ts[number]? with
    | some t => ((convert t).map some).mapError (.underIndex number)
    | none => .ok none

/-- A part of a record with a default. -/
def Parts.partOr {α : Type} (p : Parts) (number : Nat) (name : String) (default : α)
    (convert : Tree → Except SourceError α) : Except SourceError α :=
  (p.part number name convert).map (·.getD default)

/-- As the address of a host with a port. -/
def toEndpoint (t : Tree) : Except SourceError Net.Endpoint := do
  let s ← t.toText
  match Net.Endpoint.read s with
  | some e => pure e
  | none => .error (.shape endpointRefusal)

/-- As the address of a host. -/
def toIp (t : Tree) : Except SourceError Net.Ip := do
  let s ← t.toText
  match Net.Ip.read s with
  | some i => pure i
  | none => .error (.shape ipRefusal)

/-- As a port: the lowest sixteen bits of an unsigned integer. -/
def toPort (t : Tree) : Except SourceError UInt16 := t.toUnsigned.map UInt16.ofNat

/-- As a count. -/
def toCount (t : Tree) : Except SourceError UInt64 := t.toUnsigned.map UInt64.ofNat

/-- As a tag. -/
def toTag (t : Tree) : Except SourceError Fault.Tag := do
  let s ← t.toText
  (Fault.Tag.read s).mapError fun r => .shape r.message

/-- What messages call the record of a request. -/
def requestLabel : String := "struct FaultRequest"

/-- As a request to arm a point. -/
def toRequest (t : Tree) : Except SourceError Fault.Request := do
  let p ← t.parts requestLabel
  let name ← match ← p.part 0 "fault_name" toText, p with
    | some n, _ => pure n
    | none, .keyed _ => .error (.shape (Json.Mismatch.missing "fault_name").message)
    | none, .listed _ =>
      .error (.shape (Json.Mismatch.length 0 (Json.recordOf requestLabel 5)).message)
  let tag ← p.partOr 1 "fault_type" .exception toTag
  let start ← p.partOr 2 "start_from" none (toOption toCount)
  let stop ← p.partOr 3 "end_after" none (toOption toCount)
  let seconds ← p.partOr 4 "sleep_time" none (toOption toReal)
  pure { name, tag, start, stop, seconds }

/-- As the section of the node. -/
def toNode (t : Tree) : Except SourceError NodeSection := do
  let p ← t.parts "struct NodeConfig"
  let name ← p.partOr 0 "name" NodeSection.default.name toText
  let logDir ← p.partOr 1 "log_dir" NodeSection.default.logDir toText
  pure { name, logDir }

/-- As the section of the control channel. -/
def toControl (t : Tree) : Except SourceError ControlSection := do
  let p ← t.parts "struct ControlConfig"
  let enabled ← p.partOr 0 "enabled" ControlSection.default.enabled toBoolean
  let address ← p.partOr 1 "listen_address" ControlSection.default.address toEndpoint
  pure { enabled, address }

/-- As the section of the metrics. -/
def toMonitoring (t : Tree) : Except SourceError MonitoringSection := do
  let p ← t.parts "struct MonitoringConfig"
  let enabled ← p.partOr 0 "prometheus_enabled" MonitoringSection.default.enabled toBoolean
  let port ← p.partOr 1 "prometheus_port" MonitoringSection.default.port toPort
  let ip ← p.partOr 2 "prometheus_bind_ip" MonitoringSection.default.ip toIp
  pure { enabled, port, ip }

/-- As the section of the heartbeat. -/
def toHeartbeat (t : Tree) : Except SourceError HeartbeatSection := do
  let p ← t.parts "struct HeartbeatConfig"
  let enabled ← p.partOr 0 "enabled" HeartbeatSection.default.enabled toBoolean
  let interval ← p.partOr 1 "interval_ms" HeartbeatSection.default.interval toCount
  let point ← p.partOr 2 "fault_point" HeartbeatSection.default.point toText
  pure { enabled, interval, point }

end Tree

/-- The settings that a tree describes. What it leaves out has its default. -/
def ofTree (t : Tree) : Except SourceError Settings := do
  let p ← t.parts "struct FaultInjectorConfig"
  let node ← p.partOr 0 "node" .default Tree.toNode
  let control ← p.partOr 1 "control" .default Tree.toControl
  let monitoring ← p.partOr 2 "monitoring" .default Tree.toMonitoring
  let heartbeat ← p.partOr 3 "heartbeat" .default Tree.toHeartbeat
  let faults ← p.partOr 4 "faults" [] (Tree.toList Tree.toRequest)
  pure { node, control, monitoring, heartbeat, faults }

/-- An unsigned count in a tree, whose integers have a sign: one too large is refused. -/
def countTree (n : UInt64) : Except SourceError Tree :=
  if n.toNat < Text.signedLimit then .ok (.whole n.toNat)
  else .error (.shape ("value " ++ Text.natural n.toNat ++ " is greater than the max " ++
    Text.natural (Text.signedLimit - 1)))

/-- An optional count under a key. -/
def countEntry (k : String) : Option UInt64 → Except SourceError (List (String × Tree))
  | none => .ok []
  | some n => (countTree n).map fun t => [(k, t)]

/-- A request as a tree. -/
def requestTree (r : Fault.Request) : Except SourceError Tree := do
  let start ← countEntry "start_from" r.start
  let stop ← countEntry "end_after" r.stop
  let seconds := match r.seconds with
    | none => []
    | some x => [("sleep_time", Tree.real x)]
  pure (.table ([("fault_name", .text r.name), ("fault_type", .text r.tag.name)] ++
    start ++ stop ++ seconds))

/-- Settings as a tree. An empty list of faults leaves no trace. -/
def toTree (s : Settings) : Except SourceError Tree := do
  let interval ← countTree s.heartbeat.interval
  let faults ← s.faults.mapM requestTree
  let listed := if faults.isEmpty then [] else [("faults", Tree.list faults)]
  pure (.table
    ([("node", Tree.table [("name", .text s.node.name), ("log_dir", .text s.node.logDir)]),
      ("control", .table
        [("enabled", .boolean s.control.enabled),
         ("listen_address", .text s.control.address.render)]),
      ("monitoring", .table
        [("prometheus_enabled", .boolean s.monitoring.enabled),
         ("prometheus_port", .whole s.monitoring.port.toNat),
         ("prometheus_bind_ip", .text s.monitoring.ip.render)]),
      ("heartbeat", .table
        [("enabled", .boolean s.heartbeat.enabled),
         ("interval_ms", interval),
         ("fault_point", .text s.heartbeat.point)])] ++ listed))

end FaultPoints.Settings
