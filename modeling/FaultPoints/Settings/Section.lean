import FaultPoints.Fault.Request
import FaultPoints.Net.Address

/-!
# Settings

The settings of a process have four sections and a list of faults to arm at its start.
Every setting has a default.

## Main Definitions

* `Settings.NodeSection`, `ControlSection`, `MonitoringSection`, `HeartbeatSection`
* `Settings` — all settings
* `Settings.toValue`, `Settings.form` — their document
-/

namespace FaultPoints

namespace Settings

/-- Who the process is and where it logs. -/
structure NodeSection where
  /-- The name of the member. -/
  name : String
  /-- The directory of the logs. -/
  logDir : String
  deriving DecidableEq

/-- The control channel. -/
structure ControlSection where
  /-- Whether the process listens for commands. -/
  enabled : Bool
  /-- Where it listens. -/
  address : Net.Endpoint
  deriving DecidableEq

/-- The exposition of metrics. -/
structure MonitoringSection where
  /-- Whether metrics are exposed. -/
  enabled : Bool
  /-- The port. -/
  port : UInt16
  /-- The address of the interface. -/
  ip : Net.Ip
  deriving DecidableEq

/-- The heartbeat. -/
structure HeartbeatSection where
  /-- Whether the heart beats. -/
  enabled : Bool
  /-- The time between beats in milliseconds. -/
  interval : UInt64
  /-- The point that is reached at each beat. -/
  point : String
  deriving DecidableEq

/-- The node by default. -/
def NodeSection.default : NodeSection := ⟨"postgres0", "./logs"⟩

/-- The control channel by default. -/
def ControlSection.default : ControlSection := ⟨true, ⟨.dotted 127 0 0 1, 0, 8010⟩⟩

/-- The port of the metrics by default. -/
def defaultMetricsPort : UInt16 := 9100

/-- The exposition by default. -/
def MonitoringSection.default : MonitoringSection :=
  ⟨false, defaultMetricsPort, .dotted 0 0 0 0⟩

/-- The heartbeat by default. -/
def HeartbeatSection.default : HeartbeatSection := ⟨true, 1000, "heartbeat"⟩

/-- Where metrics are exposed. -/
def MonitoringSection.address (m : MonitoringSection) : Net.Endpoint := ⟨m.ip, 0, m.port⟩

end Settings

/-- The settings of a process. -/
structure Settings where
  /-- Who the process is and where it logs. -/
  node : Settings.NodeSection
  /-- The control channel. -/
  control : Settings.ControlSection
  /-- The exposition of metrics. -/
  monitoring : Settings.MonitoringSection
  /-- The heartbeat. -/
  heartbeat : Settings.HeartbeatSection
  /-- The faults that are armed at the start. -/
  faults : List Fault.Request
  deriving DecidableEq

namespace Settings

/-- The settings when nothing is set. -/
def default : Settings := ⟨.default, .default, .default, .default, []⟩

/-- The document of the settings. -/
def toValue (s : Settings) : Json.Value :=
  .object
    [("node", .object
      [("name", .text s.node.name), ("log_dir", .text s.node.logDir)]),
     ("control", .object
      [("enabled", .boolean s.control.enabled),
       ("listen_address", .text s.control.address.render)]),
     ("monitoring", .object
      [("prometheus_enabled", .boolean s.monitoring.enabled),
       ("prometheus_port", .number (.whole s.monitoring.port.toNat)),
       ("prometheus_bind_ip", .text s.monitoring.ip.render)]),
     ("heartbeat", .object
      [("enabled", .boolean s.heartbeat.enabled),
       ("interval_ms", .count s.heartbeat.interval),
       ("fault_point", .text s.heartbeat.point)]),
     ("faults", .array (s.faults.map Fault.Request.toValue))]

/-- What a text that is no address of a host with a port is refused with. -/
def endpointRefusal : String := "invalid socket address syntax"

/-- What a text that is no address of a host is refused with. -/
def ipRefusal : String := "invalid IP address syntax"

/-- The address of a host with a port in a document. -/
def endpointForm : Json.Form Net.Endpoint :=
  .scalar (Json.readTextAs "socket address" fun s =>
    match Net.Endpoint.read s with
    | some e => .ok e
    | none => .error (.refused endpointRefusal))

/-- The address of a host in a document. -/
def ipForm : Json.Form Net.Ip :=
  .scalar (Json.readTextAs "IP address" fun s =>
    match Net.Ip.read s with
    | some i => .ok i
    | none => .error (.refused ipRefusal))

/-- Settings in the making: the keys that were given, and the settings so far. -/
abbrev Overlay (σ : Type) := List String × σ

/-- A member that replaces a default. -/
def overlay {α σ : Type} (name : String) (form : Json.Form α) (set : σ → α → σ) :
    Json.Member (Overlay σ) where
  name
  filled d := d.1.contains name
  ofDoc d v := (form.ofDoc v).map fun a => (name :: d.1, set d.2 a)
  ofValue d v := (form.ofValue v).map fun a => (name :: d.1, set d.2 a)
  mayEnd := true

/-- A record all of whose members have defaults. -/
def sectionForm {σ : Type} (label : String) (default : σ)
    (members : List (Json.Member (Overlay σ))) : Json.Form σ :=
  .record { label, members, empty := ([], default), complete := fun d => .ok d.2 }

/-- How the section of the node is read. -/
def NodeSection.form : Json.Form NodeSection :=
  sectionForm "struct NodeConfig" .default
    [overlay "name" (Json.textForm "a string") fun s x => { s with name := x },
     overlay "log_dir" (Json.textForm "path string") fun s x => { s with logDir := x }]

/-- How the section of the control channel is read. -/
def ControlSection.form : Json.Form ControlSection :=
  sectionForm "struct ControlConfig" .default
    [overlay "enabled" Json.booleanForm fun s x => { s with enabled := x },
     overlay "listen_address" endpointForm fun s x => { s with address := x }]

/-- How the section of the metrics is read. -/
def MonitoringSection.form : Json.Form MonitoringSection :=
  sectionForm "struct MonitoringConfig" .default
    [overlay "prometheus_enabled" Json.booleanForm fun s x => { s with enabled := x },
     overlay "prometheus_port" Json.portForm fun s x => { s with port := x },
     overlay "prometheus_bind_ip" ipForm fun s x => { s with ip := x }]

/-- How the section of the heartbeat is read. -/
def HeartbeatSection.form : Json.Form HeartbeatSection :=
  sectionForm "struct HeartbeatConfig" .default
    [overlay "enabled" Json.booleanForm fun s x => { s with enabled := x },
     overlay "interval_ms" Json.countForm fun s x => { s with interval := x },
     overlay "fault_point" (Json.textForm "a string") fun s x => { s with point := x }]

/-- How all settings are read. -/
def form : Json.Form Settings :=
  sectionForm "struct FaultInjectorConfig" .default
    [overlay "node" NodeSection.form fun s x => { s with node := x },
     overlay "control" ControlSection.form fun s x => { s with control := x },
     overlay "monitoring" MonitoringSection.form fun s x => { s with monitoring := x },
     overlay "heartbeat" HeartbeatSection.form fun s x => { s with heartbeat := x },
     overlay "faults" Fault.Request.form.listOf fun s x => { s with faults := x }]

end Settings

end FaultPoints
