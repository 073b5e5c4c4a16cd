import FaultPoints.Control.Controller
import FaultPoints.Control.Route

/-!
# The control channel over HTTP

The resource `/inject_fault` stands for all armed points and `/inject_fault/name` for one
of them. Reading lists, posting arms, deleting disarms. A command that a route makes of a
request is carried out; a request that every route declines changes nothing.

The reply to a body that could not be read says what is wrong with it. The words for a break of
the grammar and for the place of a mismatch are those of the reader of documents, which are left
open here.

## Main Definitions

* `Control.Ack`, `ErrorReply`, `QueryReply`, `DeactivateReply` — the documents of replies
* `Control.Http.Reply` — what goes out
* `Control.Http.Wording` — what the reader of documents says of a body
* `Control.Http.reply`, `Control.Http.recover` — the replies to commands and to rejections
* `Control.Http.respond` — the reply to a request and the host after it
-/

namespace FaultPoints.Control

open FaultPoints.Fault

/-- The document of a command that was carried out. -/
structure Ack where
  /-- What became of it. -/
  status : String
  deriving DecidableEq

/-- The document of an acknowledgement. -/
def Ack.toValue (a : Ack) : Json.Value := .object [("status", .text a.status)]

/-- How an acknowledgement is read. -/
def Ack.form : Json.Form Ack :=
  let r := singleRecord "struct AckReply" "status" (Json.textForm "a string")
  .record
    { label := r.label, members := r.members, empty := r.empty,
      complete := fun d => (r.complete d).map Ack.mk }

/-- The document of a command that was refused. -/
structure ErrorReply where
  /-- Why. -/
  error : String
  deriving DecidableEq

/-- The document of an error. -/
def ErrorReply.toValue (e : ErrorReply) : Json.Value := .object [("error", .text e.error)]

/-- How an error is read. -/
def ErrorReply.form : Json.Form ErrorReply :=
  let r := singleRecord "struct ErrorReply" "error" (Json.textForm "a string")
  .record
    { label := r.label, members := r.members, empty := r.empty,
      complete := fun d => (r.complete d).map ErrorReply.mk }

/-- Whether a point is armed, as a document. -/
structure QueryReply where
  /-- The name of the point. -/
  name : String
  /-- Whether it is armed. -/
  active : Bool
  deriving DecidableEq

/-- The document of a query's answer. -/
def QueryReply.toValue (q : QueryReply) : Json.Value :=
  .object [("fault_name", .text q.name), ("active", .boolean q.active)]

/-- How a query's answer is read. -/
def QueryReply.form : Json.Form QueryReply :=
  let r := flagRecord "struct QueryReply" "active"
  .record
    { label := r.label, members := r.members, empty := r.empty,
      complete := fun d => (r.complete d).map fun x => ⟨x.1, x.2⟩ }

/-- Whether a point was armed before it was disarmed, as a document. -/
structure DeactivateReply where
  /-- The name of the point. -/
  name : String
  /-- Whether it was armed. -/
  wasActive : Bool
  deriving DecidableEq

/-- The document of the answer to a removal. -/
def DeactivateReply.toValue (d : DeactivateReply) : Json.Value :=
  .object [("fault_name", .text d.name), ("was_active", .boolean d.wasActive)]

/-- How the answer to a removal is read. -/
def DeactivateReply.form : Json.Form DeactivateReply :=
  let r := flagRecord "struct DeactivateReply" "was_active"
  .record
    { label := r.label, members := r.members, empty := r.empty,
      complete := fun d => (r.complete d).map fun x => ⟨x.1, x.2⟩ }

namespace Http

/-- What goes out. -/
structure Reply where
  /-- The status code. -/
  status : Nat
  /-- The media type, empty where there is no body. -/
  contentType : String
  /-- The body. -/
  body : String
  deriving DecidableEq

/-- A reply that is a document. -/
def Reply.ofValue (status : Nat) (v : Json.Value) : Reply :=
  ⟨status, "application/json", v.render⟩

/-- A reply that is plain text. -/
def Reply.plain (status : Nat) (text : String) : Reply :=
  ⟨status, "text/plain; charset=utf-8", text⟩

/-- The document of a response. -/
def responseValue : Response → Json.Value
  | .done => Ack.toValue ⟨"ok"⟩
  | .deactivated name wasActive => DeactivateReply.toValue ⟨name, wasActive⟩
  | .status name armed => QueryReply.toValue ⟨name, armed⟩
  | .active names => namesValue names
  | .points listing => listingValue listing

/-- How the reader of documents words what it says of a body: a break of the grammar in words of
its own, and a mismatch in the words of the mismatch with its place behind them. -/
structure Wording where
  /-- What it says of a body in which the grammar breaks. -/
  broken : List UInt8 → Json.Break → String
  /-- How it names the place at which a body is not what is wanted. -/
  place : List UInt8 → String
  deriving Inhabited

/-- What the reader says of a body that it could not read. -/
def Wording.flaw (w : Wording) (body : List UInt8) : Json.Flaw → String
  | .broken how => w.broken body how
  | .mismatch m => m.message ++ w.place body

/-- What is said of a body that could not be read. -/
def Wording.unread (w : Wording) (body : List UInt8) (f : Json.Flaw) : String :=
  "Request body deserialize error: " ++ w.flaw body f

/-- A reply that reports an error. -/
def refusal (message : String) : Reply := .ofValue 400 (ErrorReply.toValue ⟨message⟩)

/-- The reply to a command. -/
def reply : Except Refusal Response → Reply
  | .ok r => .ofValue 200 (responseValue r)
  | .error e => refusal e.message

/-- The reply to a command that reached the controller, and the host after it. -/
def perform (p : Host) (id : Nat) (c : Command) : Reply × Host :=
  let (r, q) := handle p id c
  (reply r, q)

/-- The plain reply to a rejection; a path that is not found leaves nothing to say. -/
def Rejection.reply (w : Wording) (body : List UInt8) : Rejection → Reply
  | .notFound => ⟨404, "", ""⟩
  | .methodNotAllowed => .plain 405 "HTTP method not allowed"
  | .lengthRequired => .plain 411 "A content-length header is required"
  | .tooLarge => .plain 413 "The request payload is too large"
  | .unsupported => .plain 415 "The request's content-type is not supported"
  | .unread f => .plain 400 (w.unread body f)

/-- The reply where every route declines a request with a body. A body that could not be read is
reported as an error is, whatever the other routes say. -/
def recover (w : Wording) (body : List UInt8) (rejections : List Rejection) : Reply :=
  match rejections.findSome? Rejection.flaw? with
  | some f => refusal (w.unread body f)
  | none => (reported rejections).reply w body

/-- The reply to a request, and the host after it. -/
def respond (w : Wording) (p : Host) (id : Nat) (r : Request) : Reply × Host :=
  match firstOf r routes with
  | .ok c => perform p id c
  | .error rejections => (recover w r.body rejections, p)

end Http

end FaultPoints.Control
