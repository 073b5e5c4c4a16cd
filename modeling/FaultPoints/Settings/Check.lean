import FaultPoints.Settings.Section

/-!
# Checking settings

Settings that could be read may still not describe a process. They are checked section by
section, then fault by fault; the first fault that is found is reported.

## Main Definitions

* `Settings.Invalid` — what is wrong with settings
* `Settings.check` — checking all settings

## Main Statements

* `check_ok_iff` — settings are sound iff every part of them is
-/

namespace FaultPoints.Settings

/-- What is wrong with settings. -/
inductive Invalid where
  /-- The name of the member is blank. -/
  | nodeName
  /-- The directory of the logs is empty. -/
  | logDir
  /-- The control channel has no port to listen on. -/
  | controlPort
  /-- The metrics have no fixed port. -/
  | metricsPortZero
  /-- The port of the metrics is privileged. -/
  | metricsPortLow (port : UInt16)
  /-- The time between beats is zero. -/
  | interval
  /-- The point of the heartbeat is blank. -/
  | heartbeatPoint
  /-- A fault to arm at the start is refused. -/
  | faultEntry (name : String) (why : Fault.Refusal)
  /-- A variable of the environment holds a text that is not what it should be. -/
  | variable (name written : String)
  deriving DecidableEq, Repr

/-- What is wrong, in words. -/
def Invalid.reason : Invalid → String
  | .nodeName => "node.name cannot be empty"
  | .logDir => "node.log_dir cannot be empty"
  | .controlPort =>
    "control.listen_address must specify a port when the control surface is enabled"
  | .metricsPortZero =>
    "monitoring.prometheus_port must be fixed (not 0) when the metrics endpoint is enabled"
  | .metricsPortLow port =>
    "monitoring.prometheus_port " ++ Text.natural port.toNat ++
      " is below 1024; the injector runs unprivileged"
  | .interval => "heartbeat.interval_ms must be greater than 0"
  | .heartbeatPoint => "heartbeat.fault_point cannot be empty"
  | .faultEntry name why => "faults entry '" ++ name ++ "': " ++ why.message
  | .variable name written => name ++ " has invalid value '" ++ written ++ "'"

/-- The message. -/
def Invalid.message (i : Invalid) : String := "Invalid configuration: " ++ i.reason

/-- A member needs a name and a directory for its logs. -/
def NodeSection.check (s : NodeSection) : Except Invalid Unit :=
  if Text.isBlankText s.name then .error .nodeName
  else if s.logDir.isEmpty then .error .logDir
  else .ok ()

/-- A channel that is listened on needs a port. -/
def ControlSection.check (s : ControlSection) : Except Invalid Unit :=
  if s.enabled && s.address.port == 0 then .error .controlPort else .ok ()

/-- Metrics that are exposed need a fixed port that is not privileged. -/
def MonitoringSection.check (s : MonitoringSection) : Except Invalid Unit :=
  if !s.enabled then .ok ()
  else if s.port = 0 then .error .metricsPortZero
  else if s.port < 1024 then .error (.metricsPortLow s.port)
  else .ok ()

/-- A heartbeat needs time between beats and a point to reach. -/
def HeartbeatSection.check (s : HeartbeatSection) : Except Invalid Unit :=
  if s.interval = 0 then .error .interval
  else if Text.isBlankText s.point then .error .heartbeatPoint
  else .ok ()

/-- A fault to arm at the start needs a plan. -/
def checkFault (r : Fault.Request) : Except Invalid Unit :=
  match r.plan with
  | .ok _ => .ok ()
  | .error e => .error (.faultEntry r.name e)

/-- Faults to arm at the start, one after the other. -/
def checkFaults : List Fault.Request → Except Invalid Unit
  | [] => .ok ()
  | r :: rest => do
    checkFault r
    checkFaults rest

/-- Checks all settings. -/
def check (s : Settings) : Except Invalid Unit := do
  s.node.check
  s.control.check
  s.monitoring.check
  s.heartbeat.check
  checkFaults s.faults

/-- Settings are sound iff every part of them is. -/
theorem check_ok_iff (s : Settings) :
    s.check = .ok () ↔
      s.node.check = .ok () ∧ s.control.check = .ok () ∧ s.monitoring.check = .ok () ∧
        s.heartbeat.check = .ok () ∧ checkFaults s.faults = .ok () := by
  unfold check
  simp only [bind, Except.bind]
  cases s.node.check <;> cases s.control.check <;> cases s.monitoring.check <;>
    cases s.heartbeat.check <;> simp

end FaultPoints.Settings
