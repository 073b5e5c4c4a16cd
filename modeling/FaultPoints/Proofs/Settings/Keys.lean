import FaultPoints.Proofs.Fallible
import FaultPoints.Proofs.Net.Address
import FaultPoints.Proofs.Settings.Overlay

/-!
# The keys of the settings

The root of a tree of settings has five branches: four sections, whose keys hold one value each,
and the faults, which are one value as a whole.  Typed settings are read from a tree branch by
branch and key by key; a key that is missing stands for its default.  Here this is stated once for
all keys: `ofTree_table_iff` and `convert_table_iff` say when a tree describes given settings, and
`convert_written` that the tree in which settings are written describes them again.

## Main Definitions

* `Branch`, `Key` — the branches of the root and the keys
* `Branch.sight`, `Key.sight` — what is read for a branch or a key
* `Key.written` — the value of a key in a tree
* `HoldsLargeCount` — a count that no tree holds

## Main Statements

* `ofTree_table_iff`, `convert_table_iff` — when a tree describes given settings
* `toTree_eq_ok_iff` — when settings are written, and how
* `convert_written` — a written value is read back
-/

namespace FaultPoints.Settings

open FaultPoints.Fault (Request)

/-! ## Branches and keys -/

/-- What stands under a key of the root. -/
inductive Branch where
  /-- The section of the node. -/
  | node
  /-- The section of the control channel. -/
  | control
  /-- The section of the metrics. -/
  | monitoring
  /-- The section of the heartbeat. -/
  | heartbeat
  /-- The faults to arm at the start. -/
  | faults
  deriving DecidableEq

namespace Branch

instance : Fintype Branch :=
  ⟨{.node, .control, .monitoring, .heartbeat, .faults}, fun b => by cases b <;> decide⟩

/-- The key of the root. -/
def name : Branch → String
  | node => "node"
  | control => "control"
  | monitoring => "monitoring"
  | heartbeat => "heartbeat"
  | faults => "faults"

/-- What a branch is read as. -/
def Value : Branch → Type
  | node => NodeSection
  | control => ControlSection
  | monitoring => MonitoringSection
  | heartbeat => HeartbeatSection
  | faults => List Request

/-- The part of settings that a branch holds. -/
def get (s : Settings) : (b : Branch) → b.Value
  | node => s.node
  | control => s.control
  | monitoring => s.monitoring
  | heartbeat => s.heartbeat
  | faults => s.faults

/-- How a branch is read. -/
def convert : (b : Branch) → Tree → Except SourceError b.Value
  | node => Tree.toNode
  | control => Tree.toControl
  | monitoring => Tree.toMonitoring
  | heartbeat => Tree.toHeartbeat
  | faults => Tree.toList Tree.toRequest

end Branch

/-- The keys of the settings: those of the four sections, and the faults. -/
inductive Key where
  /-- The name of the member. -/
  | nodeName
  /-- The directory of the logs. -/
  | logDir
  /-- Whether the process listens for commands. -/
  | listens
  /-- Where it listens. -/
  | listenAddress
  /-- Whether metrics are exposed. -/
  | exposes
  /-- The port of the metrics. -/
  | metricsPort
  /-- The address of the metrics. -/
  | metricsIp
  /-- Whether the heart beats. -/
  | beats
  /-- The time between beats. -/
  | interval
  /-- The point that is reached at each beat. -/
  | beatPoint
  /-- The faults to arm at the start. -/
  | faults
  deriving DecidableEq

namespace Key

instance : Fintype Key :=
  ⟨{.nodeName, .logDir, .listens, .listenAddress, .exposes, .metricsPort, .metricsIp, .beats,
    .interval, .beatPoint, .faults}, fun k => by cases k <;> decide⟩

/-- The branch that a key belongs to. -/
def branch : Key → Branch
  | nodeName | logDir => .node
  | listens | listenAddress => .control
  | exposes | metricsPort | metricsIp => .monitoring
  | beats | interval | beatPoint => .heartbeat
  | faults => .faults

/-- The key within its section; the faults are a branch of their own. -/
def leaf : Key → Option String
  | nodeName => some "name"
  | logDir => some "log_dir"
  | listens => some "enabled"
  | listenAddress => some "listen_address"
  | exposes => some "prometheus_enabled"
  | metricsPort => some "prometheus_port"
  | metricsIp => some "prometheus_bind_ip"
  | beats => some "enabled"
  | interval => some "interval_ms"
  | beatPoint => some "fault_point"
  | faults => none

/-- The keys that lead from the root to the value of a key. -/
def path (k : Key) : List String := k.branch.name :: k.leaf.toList

/-- What the value of a key is read as. -/
def Value : Key → Type
  | nodeName | logDir | beatPoint => String
  | listens | exposes | beats => Bool
  | listenAddress => Net.Endpoint
  | metricsPort => UInt16
  | metricsIp => Net.Ip
  | interval => UInt64
  | faults => List Request

/-- The value of a key in settings. -/
def get (s : Settings) : (k : Key) → k.Value
  | nodeName => s.node.name
  | logDir => s.node.logDir
  | listens => s.control.enabled
  | listenAddress => s.control.address
  | exposes => s.monitoring.enabled
  | metricsPort => s.monitoring.port
  | metricsIp => s.monitoring.ip
  | beats => s.heartbeat.enabled
  | interval => s.heartbeat.interval
  | beatPoint => s.heartbeat.point
  | faults => s.faults

/-- How the value of a key is read. -/
def convert : (k : Key) → Tree → Except SourceError k.Value
  | nodeName | logDir | beatPoint => Tree.toText
  | listens | exposes | beats => Tree.toBoolean
  | listenAddress => Tree.toEndpoint
  | metricsPort => Tree.toPort
  | metricsIp => Tree.toIp
  | interval => Tree.toCount
  | faults => Tree.toList Tree.toRequest

end Key

/-- The settings that have a given value at each key. -/
def ofKeys (value : (k : Key) → k.Value) : Settings where
  node := ⟨value .nodeName, value .logDir⟩
  control := ⟨value .listens, value .listenAddress⟩
  monitoring := ⟨value .exposes, value .metricsPort, value .metricsIp⟩
  heartbeat := ⟨value .beats, value .interval, value .beatPoint⟩
  faults := value .faults

theorem get_ofKeys (value : (k : Key) → k.Value) (k : Key) : k.get (ofKeys value) = value k := by
  cases k <;> rfl

/-! ## Reading -/

/-- What is read where something stands or nothing does. -/
def seen {α : Type} (convert : Tree → Except SourceError α) (default : α) :
    Option Tree → Except SourceError α
  | some t => convert t
  | none => .ok default

/-- What is read for a branch. -/
def Branch.sight (b : Branch) (v : Option Tree) : Except SourceError b.Value :=
  seen b.convert (b.get .default) v

/-- What is read for a key. -/
def Key.sight (k : Key) (v : Option Tree) : Except SourceError k.Value :=
  seen k.convert (k.get .default) v

theorem partOr_keyed_eq_ok_iff {α : Type} (es : List (String × Tree)) (number : Nat)
    (name : String) (default : α) (convert : Tree → Except SourceError α) (a : α) :
    (Tree.Parts.keyed es).partOr number name default convert = .ok a ↔
      seen convert default (es.lookup name) = .ok a := by
  simp only [Tree.Parts.partOr, Tree.Parts.part]
  cases es.lookup name with
  | none => simp [seen, Except.map]
  | some t =>
      simp only [seen, map_eq_ok_iff, mapError_eq_ok_iff]
      constructor
      · rintro ⟨_, ⟨b, hb, rfl⟩, rfl⟩
        exact hb
      · intro h
        exact ⟨some a, ⟨a, h, rfl⟩, rfl⟩

/-- **A tree describes settings iff each of its branches does.** -/
theorem ofTree_table_iff (es : List (String × Tree)) (s : Settings) :
    ofTree (.table es) = .ok s ↔ ∀ b : Branch, b.sight (es.lookup b.name) = .ok (b.get s) := by
  simp only [ofTree, Tree.parts, bind_eq_ok_iff, partOr_keyed_eq_ok_iff, pure_eq_ok_iff,
    Except.ok.injEq, exists_eq_left']
  constructor
  · rintro ⟨node, hnode, control, hcontrol, monitoring, hmonitoring, heartbeat, hheartbeat, faults,
      hfaults, rfl⟩ b
    cases b <;> assumption
  · intro h
    exact ⟨_, h .node, _, h .control, _, h .monitoring, _, h .heartbeat, _, h .faults, rfl⟩

theorem toNode_table_iff (es : List (String × Tree)) (n : NodeSection) :
    Tree.toNode (.table es) = .ok n ↔
      Key.nodeName.sight (es.lookup "name") = .ok n.name ∧
        Key.logDir.sight (es.lookup "log_dir") = .ok n.logDir := by
  simp only [Tree.toNode, Tree.parts, bind_eq_ok_iff, partOr_keyed_eq_ok_iff, pure_eq_ok_iff,
    Except.ok.injEq, exists_eq_left']
  constructor
  · rintro ⟨_, hname, _, hlogDir, rfl⟩
    exact ⟨hname, hlogDir⟩
  · rintro ⟨hname, hlogDir⟩
    exact ⟨_, hname, _, hlogDir, rfl⟩

theorem toControl_table_iff (es : List (String × Tree)) (c : ControlSection) :
    Tree.toControl (.table es) = .ok c ↔
      Key.listens.sight (es.lookup "enabled") = .ok c.enabled ∧
        Key.listenAddress.sight (es.lookup "listen_address") = .ok c.address := by
  simp only [Tree.toControl, Tree.parts, bind_eq_ok_iff, partOr_keyed_eq_ok_iff, pure_eq_ok_iff,
    Except.ok.injEq, exists_eq_left']
  constructor
  · rintro ⟨_, hlistens, _, haddress, rfl⟩
    exact ⟨hlistens, haddress⟩
  · rintro ⟨hlistens, haddress⟩
    exact ⟨_, hlistens, _, haddress, rfl⟩

theorem toMonitoring_table_iff (es : List (String × Tree)) (m : MonitoringSection) :
    Tree.toMonitoring (.table es) = .ok m ↔
      Key.exposes.sight (es.lookup "prometheus_enabled") = .ok m.enabled ∧
        Key.metricsPort.sight (es.lookup "prometheus_port") = .ok m.port ∧
          Key.metricsIp.sight (es.lookup "prometheus_bind_ip") = .ok m.ip := by
  simp only [Tree.toMonitoring, Tree.parts, bind_eq_ok_iff, partOr_keyed_eq_ok_iff, pure_eq_ok_iff,
    Except.ok.injEq, exists_eq_left']
  constructor
  · rintro ⟨_, hexposes, _, hport, _, hip, rfl⟩
    exact ⟨hexposes, hport, hip⟩
  · rintro ⟨hexposes, hport, hip⟩
    exact ⟨_, hexposes, _, hport, _, hip, rfl⟩

theorem toHeartbeat_table_iff (es : List (String × Tree)) (h : HeartbeatSection) :
    Tree.toHeartbeat (.table es) = .ok h ↔
      Key.beats.sight (es.lookup "enabled") = .ok h.enabled ∧
        Key.interval.sight (es.lookup "interval_ms") = .ok h.interval ∧
          Key.beatPoint.sight (es.lookup "fault_point") = .ok h.point := by
  simp only [Tree.toHeartbeat, Tree.parts, bind_eq_ok_iff, partOr_keyed_eq_ok_iff, pure_eq_ok_iff,
    Except.ok.injEq, exists_eq_left']
  constructor
  · rintro ⟨_, hbeats, _, hinterval, _, hpoint, rfl⟩
    exact ⟨hbeats, hinterval, hpoint⟩
  · rintro ⟨hbeats, hinterval, hpoint⟩
    exact ⟨_, hbeats, _, hinterval, _, hpoint, rfl⟩

/-- **A section describes its part of settings iff each of its keys does.** -/
theorem convert_table_iff {b : Branch} (hb : b ≠ .faults) (es : List (String × Tree))
    (s : Settings) :
    b.convert (.table es) = .ok (b.get s) ↔
      ∀ k : Key, k.branch = b → ∀ name ∈ k.leaf, k.sight (es.lookup name) = .ok (k.get s) := by
  cases b with
  | node =>
      refine (toNode_table_iff es s.node).trans
        ⟨fun ⟨hname, hlogDir⟩ k hk name hleaf => ?_, fun h => ⟨?_, ?_⟩⟩
      · cases k <;> cases hk <;> cases hleaf <;> assumption
      · exact h .nodeName rfl _ rfl
      · exact h .logDir rfl _ rfl
  | control =>
      refine (toControl_table_iff es s.control).trans
        ⟨fun ⟨hlistens, haddress⟩ k hk name hleaf => ?_, fun h => ⟨?_, ?_⟩⟩
      · cases k <;> cases hk <;> cases hleaf <;> assumption
      · exact h .listens rfl _ rfl
      · exact h .listenAddress rfl _ rfl
  | monitoring =>
      refine (toMonitoring_table_iff es s.monitoring).trans
        ⟨fun ⟨hexposes, hport, hip⟩ k hk name hleaf => ?_, fun h => ⟨?_, ?_, ?_⟩⟩
      · cases k <;> cases hk <;> cases hleaf <;> assumption
      · exact h .exposes rfl _ rfl
      · exact h .metricsPort rfl _ rfl
      · exact h .metricsIp rfl _ rfl
  | heartbeat =>
      refine (toHeartbeat_table_iff es s.heartbeat).trans
        ⟨fun ⟨hbeats, hinterval, hpoint⟩ k hk name hleaf => ?_, fun h => ⟨?_, ?_, ?_⟩⟩
      · cases k <;> cases hk <;> cases hleaf <;> assumption
      · exact h .beats rfl _ rfl
      · exact h .interval rfl _ rfl
      · exact h .beatPoint rfl _ rfl
  | faults => exact absurd rfl hb

/-! ## Writing -/

/-- A parameter under its key, if it is there. -/
def optionalEntry (name : String) (v : Option Tree) : List (String × Tree) :=
  v.toList.map fun t => (name, t)

/-- A count in a tree that can hold it. -/
def writtenCount (n : UInt64) : Tree := .whole n.toNat

/-- A request in a tree that can hold its counts. -/
def writtenRequest (r : Request) : Tree :=
  .table ([("fault_name", .text r.name), ("fault_type", .text r.tag.name)] ++
    optionalEntry "start_from" (r.start.map writtenCount) ++
    optionalEntry "end_after" (r.stop.map writtenCount) ++
    optionalEntry "sleep_time" (r.seconds.map .real))

/-- The value of a key in a tree that can hold its counts. -/
def Key.written (s : Settings) : Key → Tree
  | nodeName => .text s.node.name
  | logDir => .text s.node.logDir
  | listens => .boolean s.control.enabled
  | listenAddress => .text s.control.address.render
  | exposes => .boolean s.monitoring.enabled
  | metricsPort => .whole s.monitoring.port.toNat
  | metricsIp => .text s.monitoring.ip.render
  | beats => .boolean s.heartbeat.enabled
  | interval => writtenCount s.heartbeat.interval
  | beatPoint => .text s.heartbeat.point
  | faults => .list (s.faults.map writtenRequest)

theorem isLeaf_written (s : Settings) (k : Key) : (k.written s).IsLeaf := by
  cases k <;> trivial

/-- Settings in a tree that can hold their counts. -/
def written (s : Settings) : Tree :=
  .table
    ([("node", Tree.table [("name", Key.nodeName.written s), ("log_dir", Key.logDir.written s)]),
      ("control", .table
        [("enabled", Key.listens.written s), ("listen_address", Key.listenAddress.written s)]),
      ("monitoring", .table
        [("prometheus_enabled", Key.exposes.written s),
         ("prometheus_port", Key.metricsPort.written s),
         ("prometheus_bind_ip", Key.metricsIp.written s)]),
      ("heartbeat", .table
        [("enabled", Key.beats.written s), ("interval_ms", Key.interval.written s),
         ("fault_point", Key.beatPoint.written s)])] ++
      if s.faults.isEmpty then [] else [("faults", Key.faults.written s)])

/-- A count that needs all of its sixty-four bits. -/
def IsLarge (n : UInt64) : Prop := Text.signedLimit ≤ n.toNat

instance : DecidablePred IsLarge := fun n => inferInstanceAs (Decidable (_ ≤ n.toNat))

/-- The counts in settings. -/
def counts (s : Settings) : List UInt64 :=
  s.heartbeat.interval :: s.faults.flatMap fun r => r.start.toList ++ r.stop.toList

/-- Settings with a count that no tree holds. -/
def HoldsLargeCount (s : Settings) : Prop := ∃ n ∈ s.counts, IsLarge n

instance : DecidablePred HoldsLargeCount := fun s =>
  inferInstanceAs (Decidable (∃ n ∈ s.counts, IsLarge n))

theorem countTree_eq_ok_iff (n : UInt64) (t : Tree) :
    countTree n = .ok t ↔ ¬ IsLarge n ∧ t = writtenCount n := by
  unfold countTree IsLarge writtenCount
  by_cases h : n.toNat < Text.signedLimit
  · simp [h, eq_comm]
  · simp [h, Nat.not_lt.mp h]

theorem countEntry_eq_ok_iff (name : String) (v : Option UInt64) (es : List (String × Tree)) :
    countEntry name v = .ok es ↔
      (∀ n, v = some n → ¬ IsLarge n) ∧ es = optionalEntry name (v.map writtenCount) := by
  cases v with
  | none => simp [countEntry, optionalEntry, eq_comm]
  | some n =>
      simp only [countEntry, map_eq_ok_iff, countTree_eq_ok_iff, Option.some.injEq, forall_eq']
      constructor
      · rintro ⟨_, ⟨hn, rfl⟩, rfl⟩
        exact ⟨hn, rfl⟩
      · rintro ⟨hn, rfl⟩
        exact ⟨_, ⟨hn, rfl⟩, rfl⟩

theorem requestTree_eq_ok_iff (r : Request) (t : Tree) :
    requestTree r = .ok t ↔
      (∀ n, r.start = some n ∨ r.stop = some n → ¬ IsLarge n) ∧ t = writtenRequest r := by
  obtain ⟨name, tag, start, stop, seconds⟩ := r
  simp only [requestTree, bind_eq_ok_iff, countEntry_eq_ok_iff, pure_eq_ok_iff]
  constructor
  · rintro ⟨_, ⟨hstart, rfl⟩, _, ⟨hstop, rfl⟩, rfl⟩
    refine ⟨fun n hn => hn.elim (hstart n) (hstop n), ?_⟩
    cases seconds <;> rfl
  · rintro ⟨h, rfl⟩
    refine ⟨_, ⟨fun n hn => h n (Or.inl hn), rfl⟩, _, ⟨fun n hn => h n (Or.inr hn), rfl⟩, ?_⟩
    cases seconds <;> rfl

theorem mapM_requestTree_eq_ok_iff (rs : List Request) (ts : List Tree) :
    rs.mapM requestTree = .ok ts ↔
      (∀ r ∈ rs, ∀ n, r.start = some n ∨ r.stop = some n → ¬ IsLarge n) ∧
        ts = rs.map writtenRequest := by
  induction rs generalizing ts with
  | nil => simpa [eq_comm] using (pure_eq_ok_iff (a := []) (b := ts))
  | cons r rs ih =>
      simp only [mapM_cons_eq_ok_iff, requestTree_eq_ok_iff, ih, List.forall_mem_cons]
      constructor
      · rintro ⟨_, _, ⟨hr, rfl⟩, ⟨hrs, rfl⟩, rfl⟩
        exact ⟨⟨hr, hrs⟩, rfl⟩
      · rintro ⟨⟨hr, hrs⟩, rfl⟩
        exact ⟨_, _, ⟨hr, rfl⟩, ⟨hrs, rfl⟩, rfl⟩

/-- **Settings are written in a tree iff it can hold their counts.** -/
theorem toTree_eq_ok_iff (s : Settings) (t : Tree) :
    s.toTree = .ok t ↔ ¬ s.HoldsLargeCount ∧ t = s.written := by
  have hlarge : ¬ s.HoldsLargeCount ↔ ¬ IsLarge s.heartbeat.interval ∧
      ∀ r ∈ s.faults, ∀ n, r.start = some n ∨ r.stop = some n → ¬ IsLarge n := by
    simp only [HoldsLargeCount, counts, List.exists_mem_cons_iff, List.mem_flatMap,
      List.mem_append, Option.mem_toList, not_or, not_exists, not_and]
    exact and_congr_right fun _ => ⟨fun h r hr n hn => h n ⟨r, hr, hn⟩,
      fun h n ⟨r, hr, hn⟩ => h r hr n hn⟩
  simp only [toTree, bind_eq_ok_iff, countTree_eq_ok_iff, mapM_requestTree_eq_ok_iff,
    pure_eq_ok_iff, hlarge]
  constructor
  · rintro ⟨_, ⟨hinterval, rfl⟩, _, ⟨hfaults, rfl⟩, rfl⟩
    refine ⟨⟨hinterval, hfaults⟩, ?_⟩
    simp only [written, List.isEmpty_map]
    rfl
  · rintro ⟨⟨hinterval, hfaults⟩, rfl⟩
    refine ⟨_, ⟨hinterval, rfl⟩, _, ⟨hfaults, rfl⟩, ?_⟩
    simp only [written, List.isEmpty_map]
    rfl

theorem exists_error_of_holdsLargeCount {s : Settings} (h : s.HoldsLargeCount) :
    ∃ why, s.toTree = .error why := by
  cases htree : s.toTree with
  | ok t => exact absurd h ((toTree_eq_ok_iff s t).mp htree).1
  | error why => exact ⟨why, rfl⟩

/-! ## Written values are read back -/

theorem toCount_writtenCount (n : UInt64) : (writtenCount n).toCount = .ok n := by
  simp [writtenCount, Tree.toCount, Tree.toUnsigned, Except.map]

theorem toTag_text (t : Fault.Tag) : (Tree.text t.name).toTag = .ok t := by
  simp [Tree.toTag, Tree.toText, Fault.Tag.read_name, bind, Except.bind, Except.mapError]

theorem lookup_optionalEntry_append (name name' : String) (v : Option Tree)
    (es : List (String × Tree)) :
    (optionalEntry name v ++ es).lookup name' =
      if name' = name then v.or (es.lookup name') else es.lookup name' := by
  cases v with
  | none => simp [optionalEntry]
  | some t => simp [optionalEntry, lookup_entry]

theorem lookup_optionalEntry (name name' : String) (v : Option Tree) :
    (optionalEntry name v).lookup name' = if name' = name then v else none := by
  simpa using lookup_optionalEntry_append name name' v []

/-- A parameter that is written as it is read back is read back. -/
theorem seen_toOption_map {α : Type} {convert : Tree → Except SourceError α} {write : α → Tree}
    (hwrite : ∀ a, convert (write a) = .ok a) (hthere : ∀ a, write a ≠ .absent)
    (v : Option α) : seen (Tree.toOption convert) none (v.map write) = .ok v := by
  cases v with
  | none => rfl
  | some a =>
      have hsome : (write a).toOption convert = (convert (write a)).map some := by
        cases h : write a with
        | absent => exact absurd h (hthere a)
        | _ => rfl
      simp [seen, hsome, hwrite, Except.map]

theorem toRequest_writtenRequest (r : Request) : (writtenRequest r).toRequest = .ok r := by
  obtain ⟨name, tag, start, stop, seconds⟩ := r
  have hstart := seen_toOption_map toCount_writtenCount (fun n => by simp [writtenCount]) start
  have hstop := seen_toOption_map toCount_writtenCount (fun n => by simp [writtenCount]) stop
  have hreal : ∀ x, Tree.toReal (.real x) = .ok x := fun _ => rfl
  have hseconds := seen_toOption_map hreal (fun x => by simp) seconds
  have hname : Tree.Parts.part (.keyed (("fault_name", .text name) :: ("fault_type",
      .text tag.name) :: (optionalEntry "start_from" (start.map writtenCount) ++
        (optionalEntry "end_after" (stop.map writtenCount) ++
          optionalEntry "sleep_time" (seconds.map .real))))) 0 "fault_name" Tree.toText =
      .ok (some name) := rfl
  simp only [Tree.toRequest, writtenRequest, Tree.parts, List.cons_append, List.nil_append,
    List.append_assoc, bind_eq_ok_iff, Except.ok.injEq, exists_eq_left', hname]
  simp only [partOr_keyed_eq_ok_iff, lookup_entry, lookup_optionalEntry_append,
    lookup_optionalEntry]
  refine ⟨name, rfl, tag, ?_, start, ?_, stop, ?_, seconds, ?_, rfl⟩
  · simpa [seen] using toTag_text tag
  · simpa using hstart
  · simpa using hstop
  · simpa using hseconds

theorem convertItems_map_writtenRequest (i : Nat) (rs : List Request) :
    Tree.convertItems Tree.toRequest i (rs.map writtenRequest) = .ok rs := by
  induction rs generalizing i with
  | nil => rfl
  | cons r rs ih =>
      simp [Tree.convertItems, toRequest_writtenRequest, ih, Except.mapError, bind, Except.bind,
        pure, Except.pure]

/-- **The value that is written for a key is read back.** -/
theorem convert_written {s : Settings} (h : s.control.address.Proper) (k : Key) :
    k.convert (k.written s) = .ok (k.get s) := by
  cases k with
  | listenAddress =>
      change (Tree.text s.control.address.render).toEndpoint = .ok s.control.address
      simp [Tree.toEndpoint, Tree.toText, Net.read_renderEndpoint h, bind, Except.bind, pure,
        Except.pure]
  | metricsPort =>
      change (Tree.whole s.monitoring.port.toNat).toPort = .ok s.monitoring.port
      simp [Tree.toPort, Tree.toUnsigned, Except.map]
  | metricsIp =>
      change (Tree.text s.monitoring.ip.render).toIp = .ok s.monitoring.ip
      simp [Tree.toIp, Tree.toText, Net.read_renderIp, bind, Except.bind, pure, Except.pure]
  | interval => exact toCount_writtenCount s.heartbeat.interval
  | faults => exact convertItems_map_writtenRequest 0 s.faults
  | _ => rfl

end FaultPoints.Settings
