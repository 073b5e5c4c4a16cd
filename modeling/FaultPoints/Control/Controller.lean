import FaultPoints.Control.Command
import FaultPoints.Control.Response
import FaultPoints.Fault.Host

/-!
# Handling commands

A controller acts on one registry of a host. Only a command that arms a point can be
refused, and then nothing changes.

## Main Definitions

* `Control.handle` — the answer to a command and the host after it
* `Control.CommandError`, `Control.execute` — a command that arrives as a text

## Main Statements

* `snd_handle_of_error` — a refused command changes nothing
-/

namespace FaultPoints.Control

open FaultPoints.Fault

/-- The answer to a command on a registry, and the host after it. -/
def handle (p : Host) (id : Nat) : Command → Except Refusal Response × Host
  | .inject request =>
    match p.apply id request with
    | .ok q => (.ok .done, q)
    | .error e => (.error e, p)
  | .deactivate name =>
    let (wasActive, q) := p.deactivate id name
    (.ok (.deactivated name wasActive), q)
  | .deactivateAll => (.ok .done, p.deactivateAll id)
  | .query name => (.ok (.status name ((p.registry id).isActive name)), p)
  | .queryAll => (.ok (.active (p.registry id).activeNames), p)
  | .describe => (.ok (.points (p.registry id).listing), p)

/-- Why a command that arrived as a text was not carried out. -/
inductive CommandError where
  /-- The text is no command. -/
  | unread (why : Json.Flaw)
  /-- The command is refused. -/
  | refused (why : Refusal)
  deriving DecidableEq, Repr

/-- The answer to a command that arrives as a text, and the host after it. -/
def execute (p : Host) (id : Nat) (text : List Glyph) :
    Except CommandError Response × Host :=
  match Command.parse text with
  | .error f => (.error (.unread f), p)
  | .ok c =>
    let (answer, q) := handle p id c
    (answer.mapError .refused, q)

/-- A refused command leaves the whole host as it was. -/
theorem snd_handle_of_error {p : Host} {id : Nat} {c : Command} {e : Refusal}
    (h : (handle p id c).1 = .error e) : (handle p id c).2 = p := by
  cases c <;> simp [handle] at h ⊢
  split at h <;> simp_all

end FaultPoints.Control
