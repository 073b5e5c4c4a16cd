import FaultPoints.Proofs.Control.Routing
import FaultPoints.Proofs.Decimal.Range
import FaultPoints.Proofs.Fault.Documents

/-!
# Commands and responses survive the wire

The text of a command is read back as the command, and the text of a response as the response, so
long as every number of seconds in it is finite: a document has no other numbers.  The controller
never has to write another one, since the seconds of a duration are finite.  The name of a variant
is a member among those of the variant itself, and is never taken for one of them.

## Main Definitions

* `Command.Finite`, `Response.Finite` — every number of seconds is finite

## Main Statements

* `parse_command`, `parse_response` — commands and responses are read back
* `command_round_trip` — requests are, too, and different commands have different texts
* `response_round_trip` — whatever the controller answers is read back, and so is the listing
-/

namespace FaultPoints.Control

open FaultPoints.Fault FaultPoints.Json

/-- A command in which every number of seconds is finite. -/
def Command.Finite : Command → Prop
  | .inject request => request.Finite
  | _ => True

/-- A response in which every number of seconds is finite. -/
def Response.Finite : Response → Prop
  | .points listing => ∀ e ∈ listing, e.Finite
  | _ => True

/-! ## Commands -/

theorem key_ne_of_mem_members {r : Request} {e : String × Value} (h : e ∈ r.members) :
    e.1 ≠ "command" := by
  rcases mem_members_iff.mp h with rfl | rfl | ⟨n, -, rfl⟩ | ⟨n, -, rfl⟩ | ⟨x, -, rfl⟩ <;>
    simp

/-- **The text of a command is read back.** -/
theorem parse_command {c : Command} (h : c.Finite) :
    Command.parse (Text.glyphs c.toValue.render) = .ok c := by
  cases c with
  | inject request =>
      have hlevels : memberLevels request.members ≤ nestingLimit - 1 :=
        (levels_request request).trans (Nat.zero_le _)
      exact parse_tagged (legible_request h) (fun e he => key_ne_of_mem_members he) hlevels rfl
        (ofBody_of_ofValue (ofValue_request request) _ _)
  | deactivate name =>
      exact parse_tagged ⟨trivial, trivial⟩ (by simp [Command.tagged]) (Nat.zero_le _) rfl rfl
  | deactivateAll => exact parse_tagged trivial (by simp) (Nat.zero_le _) rfl rfl
  | query name =>
      exact parse_tagged ⟨trivial, trivial⟩ (by simp [Command.tagged]) (Nat.zero_le _) rfl rfl
  | queryAll => exact parse_tagged trivial (by simp) (Nat.zero_le _) rfl rfl
  | describe => exact parse_tagged trivial (by simp) (Nat.zero_le _) rfl rfl

/-- **The round trip of commands and requests.**  Each of them is read back from its text if its
sleeping time is finite, so that different commands have different texts. -/
theorem command_round_trip :
    (∀ c : Command, c.Finite → Command.parse (Text.glyphs c.toValue.render) = .ok c) ∧
    (∀ r : Request, r.Finite → Request.form.parse (Text.glyphs r.toValue.render) = .ok r) ∧
    ∀ c c' : Command, c.Finite → c'.Finite → c ≠ c' → c.toValue.render ≠ c'.toValue.render := by
  refine ⟨fun c => parse_command, fun r hr => ?_, fun c c' hc hc' hne htext => hne ?_⟩
  · exact parse_written agrees_request (v := r.toValue) (legible_request hr) (ofValue_request r)
  · have hread := parse_command hc
    rw [htext, parse_command hc'] at hread
    exact (Except.ok.inj hread).symm

/-- A name with a quote, a backslash and a line break, the greatest count, and a tenth of a
second. -/
theorem command_round_trip_escaped :
    let request : Request :=
      ⟨"a\"\\\n", .sleep, none, some 18446744073709551615, some ⟨false, 1019, 2702159776422298⟩⟩
    request.Finite ∧
      Command.parse (Text.glyphs (Command.inject request).toValue.render) = .ok (.inject request) ∧
      Request.form.parse (Text.glyphs request.toValue.render) = .ok request ∧
      (Command.inject request).toValue.render ≠ Command.describe.toValue.render := by
  intro request
  have hfinite : request.Finite := by
    intro x hx
    cases hx
    rfl
  obtain ⟨hcommands, hrequests, hdistinct⟩ := command_round_trip
  exact ⟨hfinite, hcommands _ hfinite, hrequests _ hfinite, hdistinct _ _ hfinite trivial nofun⟩

/-! ## Responses -/

theorem ofBody_single {α β : Type} {form : Form β} {v : Value} {b : β} (h : form.ofValue v = .ok b)
    (name label key : String) (make : β → α) :
    (Variant.of name (.record (singleRecord label key form)) make).ofBody (.object [(key, v)]) =
      .ok (make b) := by
  have hfind : (singleRecord label key form).members.find? (·.name == key) =
      some (.of key form id (fun _ x => some x) false) := by
    simp [singleRecord, Member.of]
  have hdraft :=
    draftValue_known hfind rfl (ofValue_member h (singleRecord label key form).empty) []
  refine ofBody_of_ofValue ?_ name make
  exact bind_eq_ok_iff.mpr ⟨some b, hdraft, rfl⟩

theorem legible_names (names : List String) : (namesValue names).Legible := by
  refine itemsLegible_of_forall fun v hv => ?_
  obtain ⟨name, -, rfl⟩ := List.mem_map.mp hv
  trivial

theorem levels_names (names : List String) : (namesValue names).levels ≤ 1 := by
  refine Nat.add_le_add_right (itemLevels_le fun v hv => ?_) 1
  obtain ⟨name, -, rfl⟩ := List.mem_map.mp hv
  exact le_rfl

theorem legible_listing {listing : List Point} (h : ∀ e ∈ listing, e.Finite) :
    (listingValue listing).Legible := by
  refine itemsLegible_of_forall fun v hv => ?_
  obtain ⟨e, he, rfl⟩ := List.mem_map.mp hv
  exact legible_point (h e he)

theorem levels_listing (listing : List Point) : (listingValue listing).levels ≤ 2 := by
  refine Nat.add_le_add_right (itemLevels_le fun v hv => ?_) 1
  obtain ⟨e, -, rfl⟩ := List.mem_map.mp hv
  exact levels_point e

theorem inverts_listing : Point.form.listOf.Inverts listingValue := inverts_listOf ofValue_point

/-- **The text of a response is read back.** -/
theorem parse_response {response : Response} (h : response.Finite) :
    Response.parse (Text.glyphs response.toValue.render) = .ok response := by
  cases response with
  | done => exact parse_tagged trivial (by simp) (Nat.zero_le _) rfl rfl
  | deactivated name wasActive =>
      exact parse_tagged ⟨trivial, trivial, trivial⟩ (by simp [Response.tagged]) (Nat.zero_le _)
        rfl rfl
  | status name armed =>
      exact parse_tagged ⟨trivial, trivial, trivial⟩ (by simp [Response.tagged]) (Nat.zero_le _)
        rfl rfl
  | active names =>
      have hlevels : memberLevels [("fault_names", namesValue names)] ≤ nestingLimit - 1 :=
        max_le ((levels_names names).trans (by decide)) (Nat.zero_le _)
      exact parse_tagged ⟨legible_names names, trivial⟩ (by simp [Response.tagged]) hlevels rfl
        (ofBody_single (inverts_listOf (inverts_text _) names) _ _ _ _)
  | points listing =>
      have hlevels : memberLevels [("points", listingValue listing)] ≤ nestingLimit - 1 :=
        max_le ((levels_listing listing).trans (by decide)) (Nat.zero_le _)
      exact parse_tagged ⟨legible_listing h, trivial⟩ (by simp [Response.tagged]) hlevels rfl
        (ofBody_single (inverts_listing listing) _ _ _ _)

/-- The entries of a listing have finite numbers of seconds. -/
theorem finite_listing (r : Registry) : ∀ e ∈ r.listing, e.Finite := by
  intro e he x hx
  obtain ⟨entry, -, rfl⟩ := List.mem_map.mp he
  obtain ⟨d, -, rfl⟩ := Option.map_eq_some_iff.mp hx
  exact Duration.isFinite_toSeconds d

/-- **Whatever the controller answers can be written.** -/
theorem finite_handle (p : Host) (id : Nat) {c : Command} {response : Response}
    (h : (handle p id c).1 = .ok response) : response.Finite := by
  cases c with
  | inject request =>
      simp only [handle] at h
      split at h <;> cases h
      trivial
  | describe =>
      cases h
      exact finite_listing _
  | _ =>
      cases h
      trivial

/-- **The round trip of responses.**  A response is read back from its text if the sleeping times in
it are finite; the controller never answers with another one, whatever the command and the host; and
the body that lists the armed points is read as their listing. -/
theorem response_round_trip :
    (∀ response : Response, response.Finite →
      Response.parse (Text.glyphs response.toValue.render) = .ok response) ∧
    (∀ (p : Host) (id : Nat) (c : Command) (response : Response),
      (handle p id c).1 = .ok response →
        Response.parse (Text.glyphs response.toValue.render) = .ok response) ∧
    ∀ (w : Http.Wording) (p : Host) (id : Nat) (r : Http.Request), Http.AtResource r.path →
      r.method = "GET" → Point.form.listOf.parse (Text.glyphs (Http.respond w p id r).1.body) =
        .ok (p.registry id).listing := by
  refine ⟨fun response => parse_response,
    fun p id c response h => parse_response (finite_handle p id h),
    fun w p id r hpath hmethod => ?_⟩
  have hbody : (Http.respond w p id r).1.body = (listingValue (p.registry id).listing).render := by
    rw [Http.respond, Http.firstOf_of_asks (.describe hpath hmethod)]
    rfl
  rw [hbody]
  exact parse_written (agrees_listOf agrees_point) (legible_listing (finite_listing _))
    (inverts_listing _)

/-- A listing of one point that sleeps for a tenth of a second, and the body that lists no
points. -/
theorem response_round_trip_points :
    let listing : List Point :=
      [⟨"read", .sleep, 1, none, some ⟨false, 1019, 2702159776422298⟩, 3, false⟩]
    let r : Http.Request := ⟨"GET", "/inject_fault", [], []⟩
    Response.parse (Text.glyphs (Response.points listing).toValue.render) = .ok (.points listing) ∧
      Response.parse (Text.glyphs Response.done.toValue.render) = .ok .done ∧
      Point.form.listOf.parse (Text.glyphs (Http.respond default .start 0 r).1.body) = .ok [] := by
  intro listing r
  have hfinite : (Response.points listing).Finite := by
    intro e he x hx
    obtain rfl : e = _ := List.mem_singleton.mp he
    cases hx
    rfl
  have hpath : Http.AtResource r.path := ⟨[], [], by simp [r], Or.inl rfl, by simp [Http.IsQuery]⟩
  obtain ⟨hresponses, hanswers, hlisting⟩ := response_round_trip
  exact ⟨hresponses _ hfinite, hanswers .start 0 .deactivateAll .done rfl,
    hlisting default .start 0 r hpath rfl⟩

end FaultPoints.Control
