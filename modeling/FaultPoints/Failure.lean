import FaultPoints.Fault.Host
import FaultPoints.Settings.Load

/-!
# Failures

Everything that can end an operation of a process, with its message and with the form in
which a process that ends reports it.

## Main Definitions

* `BindFault` — why nothing listens on an address
* `Failure` — what can end an operation
* `Failure.message` — the message
* `Failure.report` — the form of a final report
-/

namespace FaultPoints

/-- Why nothing listens on an address. -/
inductive BindFault where
  /-- There is no node to listen for. -/
  | notBuilt
  /-- Something else listens on it. -/
  | addressInUse
  deriving DecidableEq, Repr

/-- Why nothing listens, in words. -/
def BindFault.reason : BindFault → String
  | .notBuilt => "node has not been built"
  | .addressInUse => "error creating server listener: Address already in use (os error 98)"

/-- What is listened for. -/
inductive Service where
  /-- Commands. -/
  | control
  /-- Queries of metrics. -/
  | metrics
  deriving DecidableEq, Repr

/-- The name of a service. -/
def Service.name : Service → String
  | .control => "control"
  | .metrics => "metrics"

/-- What can end an operation. -/
inductive Failure where
  /-- A fault is refused. -/
  | refused (why : Fault.Refusal)
  /-- A fault raised a failure on purpose. -/
  | injected (what : Fault.Injected)
  /-- Settings cannot be loaded. -/
  | source (why : Settings.SourceError)
  /-- Settings are not sound. -/
  | invalid (why : Settings.Invalid)
  /-- An operation on files failed. -/
  | files (why : Files.Fault)
  /-- Nothing listens on an address. -/
  | bind (service : Service) (address : Net.Endpoint) (why : BindFault)
  /-- There is no node. -/
  | notBuilt
  deriving DecidableEq

/-- A failure of the environment's own fault. -/
def Failure.ofBoot : Settings.BootError → Failure
  | .refused why => .refused why
  | .invalid why => .invalid why

/-- Why settings cannot be loaded, in words. -/
def Settings.SourceError.message : Settings.SourceError → String
  | .unfit (some key) => "value does not fit its type for key " ++ Text.quoted key
  | .unfit none => "value does not fit its type"
  | .shape message => message
  | .grammar => "settings file does not follow its grammar"
  | .unavailable => "settings file not found or of an unknown format"

/-- The message of a failure to listen on an address that is written in a given way. -/
def bindMessage (service : Service) (address : String) (why : BindFault) : String :=
  "Failed to bind " ++ service.name ++ " server on " ++ address ++ ": " ++ why.reason

/-- The message of a failure. -/
def Failure.message : Failure → String
  | .refused why => why.message
  | .injected what => what.message
  | .source why => why.message
  | .invalid why => why.message
  | .files why => why.message
  | .bind service address why => bindMessage service address.render why
  | .notBuilt => "Fatal error: " ++ BindFault.notBuilt.reason

/-- Fields of a report between braces. -/
def reportFields (name : String) (fields : List (String × String)) : String :=
  name ++ " \x7b " ++ ", ".intercalate (fields.map fun f => f.1 ++ ": " ++ f.2) ++ " \x7d"

/-- A fault of the files in a report. -/
def Files.Fault.report (f : Files.Fault) : String :=
  let fields := [("kind", f.kind), ("message", Text.quoted f.reason)]
  match f.code with
  | some n => reportFields "Os" (("code", Text.natural n) :: fields)
  | none => reportFields "Error" fields

/-- The form in which a process that ends reports a failure. What is wrong with the sources of
settings is not told. -/
def Failure.report : Failure → String
  | .refused why => "InvalidParameters(" ++ Text.quoted why.reason ++ ")"
  | .injected what => "InjectedFailure(" ++ Text.quoted what.point ++ ")"
  | .source _ => "Config(..)"
  | .invalid why => "InvalidConfig(" ++ Text.quoted why.reason ++ ")"
  | .files why => "System(Io(" ++ why.report ++ "))"
  | .bind service address why =>
    "System(" ++
      reportFields "ServerBind"
        [("service", Text.quoted service.name), ("addr", address.render),
         ("reason", Text.quoted why.reason)] ++ ")"
  | .notBuilt => "Fatal(" ++ Text.quoted BindFault.notBuilt.reason ++ ")"

end FaultPoints
