import FaultPoints.Failure

/-!
# Assembling a node

A node is assembled step by step: a registry may be supplied, the node is built, it may
listen for commands, and it is taken when it is ready. Building arms the faults of the
settings and of the environment one by one in the registry that was supplied last, or in a
new one; the registry that was supplied is used up by it. A fault that is refused ends the
assembly, and those before it stay armed.

## Main Definitions

* `Node` — a node
* `Node.Assembly` — a node in the making
* `Node.Assembly.supply`, `build`, `listen`, `ready` — the steps
* `Node.Notice` — what the steps have to tell
-/

namespace FaultPoints

open FaultPoints.Fault

/-- A node. It has a registry, a controller that carries out commands, and a heartbeat, each with
the number of the registry that it holds. -/
structure Node where
  /-- The name of the member. -/
  name : String
  /-- The number of its registry. -/
  registry : Nat
  /-- The number of the registry on which its controller acts. -/
  controller : Nat
  /-- The number of the registry that its heartbeat reaches. -/
  heartbeat : Nat
  /-- Whether its heart beats. -/
  beats : Bool
  /-- The time between beats in milliseconds. -/
  interval : UInt64
  /-- The point that is reached at each beat. -/
  point : String
  deriving DecidableEq

namespace Node

/-- What the steps of an assembly have to tell. -/
inductive Notice where
  /-- A point was armed. -/
  | activated (name : String) (tag : Tag)
  /-- A point that was armed got another plan. -/
  | replaced (name : String) (tag : Tag)
  /-- A fault of the start was armed by a member. -/
  | armed (member name : String)
  /-- Something listens on an address. -/
  | listening (service : Service) (address : Net.Endpoint)
  deriving DecidableEq

/-- An address on which commands for a controller are listened for. -/
structure Channel where
  /-- The address. -/
  address : Net.Endpoint
  /-- The number of the registry on which the controller acts. -/
  registry : Nat
  deriving DecidableEq

/-- A node in the making. -/
structure Assembly where
  /-- The settings. -/
  settings : Settings
  /-- The registry for the next build, if one was supplied. -/
  supplied : Option Nat
  /-- The channels that are listened on, the latest first. -/
  channels : List Channel
  /-- The node, once it is built. -/
  node : Option Node
  deriving DecidableEq

namespace Assembly

/-- An assembly at its start. -/
def start (s : Settings) : Assembly := ⟨s, none, [], none⟩

/-- Supplies a registry. -/
def supply (a : Assembly) (id : Nat) : Assembly := { a with supplied := some id }

/-- Arms the point of a request in a registry for a member, and tells of it. -/
def arm (p : Host) (id : Nat) (member : String) (r : Request) :
    Except Refusal (Host × List Notice) := do
  let q ← p.apply id r
  let change :=
    if (p.registry id).isActive r.name then Notice.replaced r.name r.tag
    else Notice.activated r.name r.tag
  pure (q, [change, .armed member r.name])

/-- Arms the points of requests one by one, until one is refused. -/
def armAll (id : Nat) (member : String) :
    List Request → Host → Except Refusal Unit × Host × List Notice
  | [], p => (.ok (), p, [])
  | r :: rest, p =>
    match arm p id member r with
    | .error e => (.error e, p, [])
    | .ok (q, told) =>
      let (result, after, more) := armAll id member rest q
      (result, after, told ++ more)

/-- The node of settings on a registry, which is handed to each of its parts. -/
def nodeOf (s : Settings) (id : Nat) : Node where
  name := s.node.name
  registry := id
  controller := id
  heartbeat := id
  beats := s.heartbeat.enabled
  interval := s.heartbeat.interval
  point := s.heartbeat.point

/-- Builds the node: the assembly after it unless a fault is refused, the host, and what
there is to tell. -/
def build (a : Assembly) (e : Settings.Environment) (p : Host) :
    Except Failure Assembly × Host × List Notice :=
  let (id, p) := match a.supplied with
    | some id => (id, p)
    | none => p.found
  match Settings.startFaults a.settings e with
  | .error why => (.error (.ofBoot why), p, [])
  | .ok faults =>
    match armAll id a.settings.node.name faults p with
    | (.error why, q, told) => (.error (.refused why), q, told)
    | (.ok _, q, told) =>
      (.ok { a with supplied := none, node := some (nodeOf a.settings id) }, q, told)

/-- Whether a channel holds the address already. Port zero stands for any port that is free. -/
def holds (a : Assembly) (e : Net.Endpoint) : Bool :=
  e.port != 0 && a.channels.any (·.address == e)

/-- Listens for commands to the controller of the node that is there by then, if the settings say
so. An address may be taken, by others or by the assembly itself. -/
def listen (a : Assembly) (taken : Net.Endpoint → Bool) :
    Except Failure (Assembly × List Notice) :=
  let address := a.settings.control.address
  if !a.settings.control.enabled then .ok (a, [])
  else
    match a.node with
    | none => .error (.bind .control address .notBuilt)
    | some n =>
      if taken address || a.holds address then .error (.bind .control address .addressInUse)
      else
        .ok ({ a with channels := ⟨address, n.controller⟩ :: a.channels },
          [.listening .control address])

/-- Listens for queries of metrics, if the settings say so. -/
def expose (a : Assembly) : List Notice :=
  if a.settings.monitoring.enabled then [.listening .metrics a.settings.monitoring.address]
  else []

/-- The address on which commands are listened for. -/
def address (a : Assembly) : Option Net.Endpoint := a.channels.head?.map (·.address)

/-- The node, once it is built. -/
def ready (a : Assembly) : Except Failure Node :=
  match a.node with
  | some n => .ok n
  | none => .error .notBuilt

end Assembly

end Node

end FaultPoints
