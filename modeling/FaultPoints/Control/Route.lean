import FaultPoints.Control.Command
import FaultPoints.Control.MediaType

/-!
# Routes of the control channel

A route is a chain of filters that ends in a command. Each filter looks at one side of a
request: at the segment of the path that comes next, at the end of the path, at the method, at
the declared length, at the body. The first filter that declines the request ends its route
with a rejection; then the next route is tried. Segments are taken verbatim; one slash at the
end of a path and the query are ignored.

## Main Definitions

* `Control.Http.Request` — what comes in
* `Control.Http.Rejection` — why a route declines a request
* `Control.Http.Filter` — a look at one side of a request
* `Control.Http.routes` — the routes in the order in which they are tried
* `Control.Http.firstOf` — the first route that takes a request
* `Control.Http.reported` — which of the rejections of all routes is reported
-/

namespace FaultPoints.Control.Http

/-- A request. -/
structure Request where
  /-- The method. -/
  method : String
  /-- The path, with a query if there is one. -/
  path : String
  /-- The headers. -/
  headers : List (String × String)
  /-- The bytes of the body. -/
  body : List UInt8

/-- The segment under which the points are found. -/
def resource : String := "inject_fault"

/-- The greatest length of a body that is accepted. -/
def bodyLimit : Nat := 16384

/-- The values of a header; its name may be written in letters of either case. -/
def Request.header (r : Request) (name : String) : List String :=
  (r.headers.filter fun h => h.1.toLower == name).map (·.2)

/-- A request whose length is declared wherever it has a body, unless it is already. -/
def Request.declared (method path : String) (headers : List (String × String))
    (body : Option (List UInt8)) : Request :=
  let r : Request := { method, path, headers, body := body.getD [] }
  match body with
  | some bytes =>
    if (r.header "content-length").isEmpty then
      { r with headers := ("content-length", Text.natural bytes.length) :: headers }
    else r
  | none => r

/-- The declared length of the body. Several declarations must agree. -/
def Request.declaredLength (r : Request) : Option Nat :=
  match (r.header "content-length").map fun v => Text.readUnsigned Text.wordLimit v.toList with
  | some n :: rest => if rest.all (· == some n) then some n else none
  | _ => none

/-- Whether the body is declared to be a document; without a declaration it is taken for
one. -/
def Request.mayBeDocument (r : Request) : Bool :=
  match r.header "content-type" with
  | [] => true
  | v :: _ => ((MediaType.read v).map MediaType.isJson).getD false

/-- The path behind its first slash, without the query; nothing where it starts otherwise. -/
def Request.unmatched (r : Request) : List Char :=
  match r.path.toList.takeWhile fun c => c ≠ '?' && c ≠ '#' with
  | '/' :: cs => cs
  | _ => []

/-- Why a route declines a request. -/
inductive Rejection where
  /-- The path is another one. -/
  | notFound
  /-- The method is another one. -/
  | methodNotAllowed
  /-- The length of the body is not declared. -/
  | lengthRequired
  /-- The body is too long. -/
  | tooLarge
  /-- The body is declared to be something else than a document. -/
  | unsupported
  /-- The body is not the document that is wanted. -/
  | unread (why : Json.Flaw)
  deriving DecidableEq, Repr

/-- The status code of a rejection. -/
def Rejection.status : Rejection → Nat
  | .notFound => 404
  | .methodNotAllowed => 405
  | .lengthRequired => 411
  | .tooLarge => 413
  | .unsupported => 415
  | .unread _ => 400

/-- Which of two rejections is reported. One of the path counts less than any other, one of the
method less than the remaining ones, and of those the greater status code counts. -/
def Rejection.prefer : Rejection → Rejection → Rejection
  | a, .notFound => a
  | .notFound, b => b
  | a, .methodNotAllowed => a
  | .methodNotAllowed, b => b
  | a, b => if a.status < b.status then b else a

/-- The rejection that is reported where every route declines a request. -/
def reported (rejections : List Rejection) : Rejection :=
  rejections.foldl Rejection.prefer .notFound

/-- The flaw of a body that could not be read. -/
def Rejection.flaw? : Rejection → Option Json.Flaw
  | .unread f => some f
  | _ => none

/-- A look at one side of a request, at which a part of the path is still unmatched. -/
abbrev Filter := ReaderT Request (StateT (List Char) (Except Rejection))

/-- A path up to its next slash, with what stands behind that slash. -/
def segment (cs : List Char) : List Char × List Char :=
  (cs.takeWhile (· ≠ '/'), (cs.dropWhile (· ≠ '/')).drop 1)

/-- The next segment is a given one. -/
def segmentIs (name : String) : Filter Unit := fun _ path =>
  let (next, rest) := segment path
  if String.ofList next = name then .ok ((), rest) else .error .notFound

/-- The next segment, whatever it is, unless it is empty. -/
def parameter : Filter String := fun _ path =>
  let (next, rest) := segment path
  if next.isEmpty then .error .notFound else .ok (String.ofList next, rest)

/-- The path is matched. -/
def atEnd : Filter Unit := fun _ path =>
  if path.isEmpty then .ok ((), path) else .error .notFound

/-- The method is a given one. -/
def methodIs (name : String) : Filter Unit := fun r path =>
  if r.method = name then .ok ((), path) else .error .methodNotAllowed

/-- The declared length of the body is within a limit. -/
def lengthWithin (limit : Nat) : Filter Unit := fun r path =>
  match r.declaredLength with
  | none => .error .lengthRequired
  | some n => if limit < n then .error .tooLarge else .ok ((), path)

/-- The body is a document of a form. -/
def document {α : Type} (form : Json.Form α) : Filter α := fun r path =>
  if !r.mayBeDocument then .error .unsupported
  else match form.parse (Text.decode r.body) with
    | .ok a => .ok (a, path)
    | .error f => .error (.unread f)

/-- Reading all points. -/
def describe : Filter Command := do
  segmentIs resource
  atEnd
  methodIs "GET"
  pure .describe

/-- Arming a point. -/
def inject : Filter Command := do
  segmentIs resource
  atEnd
  methodIs "POST"
  lengthWithin bodyLimit
  let request ← document Fault.Request.form
  pure (.inject request)

/-- Disarming all points. -/
def reset : Filter Command := do
  segmentIs resource
  atEnd
  methodIs "DELETE"
  pure .deactivateAll

/-- Reading one point. -/
def query : Filter Command := do
  segmentIs resource
  let name ← parameter
  atEnd
  methodIs "GET"
  pure (.query name)

/-- Disarming one point. -/
def deactivate : Filter Command := do
  segmentIs resource
  let name ← parameter
  atEnd
  methodIs "DELETE"
  pure (.deactivate name)

/-- The routes in the order in which they are tried. -/
def routes : List (Filter Command) := [describe, inject, reset, query, deactivate]

/-- What the first route makes of a request that it takes, or why each route declines it. -/
def firstOf {α : Type} (r : Request) : List (Filter α) → Except (List Rejection) α
  | [] => .error []
  | route :: rest =>
    match route r r.unmatched with
    | .ok (a, _) => .ok a
    | .error e => (firstOf r rest).mapError (e :: ·)

end FaultPoints.Control.Http
