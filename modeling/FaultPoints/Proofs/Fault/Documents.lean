import FaultPoints.Fault.Registry
import FaultPoints.Proofs.Json.Codec

/-!
# The documents of requests and of listed points

The forms of a request and of a listed point read back what is written.  A request leaves out what
is absent and a listed point writes it as null; a request passes over what it does not know, so
that a listed point can be read as a request.

## Main Statements

* `ofValue_request`, `ofValue_point` — what is written is read back
* `ofValue_request_point` — a listed point is read as the request to arm it in the same way
-/

namespace FaultPoints.Fault

open Json

theorem inverts_tag : tagForm.Inverts fun t => .text t.name := by
  intro t
  cases t <;> rfl

/-- A count that is present is not written as null. -/
theorem ofValue_count_some (n : UInt64) :
    countForm.optional.ofValue (.count n) = .ok (some n) :=
  ofValue_some inverts_count (fun _ => by simp [Value.count]) n

theorem ofValue_real_some (x : Binary64) : realForm.optional.ofValue (.real x) = .ok (some x) :=
  ofValue_some inverts_real (fun _ => by simp [Value.real]) x

theorem ofValue_count_nullable (o : Option UInt64) :
    countForm.optional.ofValue (nullable (o.map .count)) = .ok o :=
  inverts_nullable inverts_count (fun _ => by simp [Value.count]) o

theorem ofValue_real_nullable (o : Option Binary64) :
    realForm.optional.ofValue (nullable (o.map .real)) = .ok o :=
  inverts_nullable inverts_real (fun _ => by simp [Value.real]) o

theorem draftValue_request (r : Request) :
    Request.record.draftValue Request.record.empty r.members = .ok
      ⟨some r.name, some r.tag, r.start.map some, r.stop.map some, r.seconds.map some⟩ := by
  have hname : (textForm "a string").ofValue (.text r.name) = .ok r.name := rfl
  have hrest : r.members = ("fault_name", .text r.name) :: ("fault_type", .text r.tag.name) ::
      (optional "start_from" (r.start.map .count) ++ (optional "end_after" (r.stop.map .count) ++
        (optional "sleep_time" (r.seconds.map .real) ++ []))) := by
    simp [Request.members]
  rw [hrest, draftValue_known rfl rfl (ofValue_member hname _),
    draftValue_known rfl rfl (ofValue_member (inverts_tag _) _)]
  refine (draftValue_optional (fun o => (⟨some r.name, some r.tag, o.map some, none, none⟩ :
    Request.Draft)) rfl rfl (fun n => ofValue_member (ofValue_count_some n) _) r.start _).trans ?_
  refine (draftValue_optional (fun o => (⟨some r.name, some r.tag, r.start.map some, o.map some,
    none⟩ : Request.Draft)) rfl rfl (fun n => ofValue_member (ofValue_count_some n) _) r.stop
    _).trans ?_
  refine (draftValue_optional (fun o => (⟨some r.name, some r.tag, r.start.map some,
    r.stop.map some, o.map some⟩ : Request.Draft)) rfl rfl
    (fun x => ofValue_member (ofValue_real_some x) _) r.seconds _).trans ?_
  rfl

/-- **A written request is read back.** -/
theorem ofValue_request (r : Request) : Request.form.ofValue r.toValue = .ok r := by
  have hflat : ∀ {β : Type} (o : Option β), (o.map some).getD none = o := by
    intro β o
    cases o <;> rfl
  have hread : Request.form.ofValue r.toValue =
      Request.record.draftValue Request.record.empty r.members >>= Request.record.complete := rfl
  rw [hread, draftValue_request]
  refine congrArg Except.ok ?_
  simp only [Option.getD_some, hflat]

/-- **A written entry is read back.** -/
theorem ofValue_point (p : Point) : Point.form.ofValue p.toValue = .ok p := by
  have hname : (textForm "a string").ofValue (.text p.name) = .ok p.name := rfl
  have hdraft : Point.record.draftValue Point.record.empty
      [("fault_name", .text p.name), ("fault_type", .text p.tag.name),
        ("start_from", .count p.start), ("end_after", nullable (p.stop.map .count)),
        ("sleep_time", nullable (p.seconds.map .real)), ("hits", .count p.hits),
        ("expired", .boolean p.expired)] = .ok
      ⟨some p.name, some p.tag, some p.start, some p.stop, some p.seconds, some p.hits,
        some p.expired⟩ := by
    rw [draftValue_known rfl rfl (ofValue_member hname _),
      draftValue_known rfl rfl (ofValue_member (inverts_tag _) _),
      draftValue_known rfl rfl (ofValue_member (inverts_count _) _),
      draftValue_known rfl rfl (ofValue_member (ofValue_count_nullable _) _),
      draftValue_known rfl rfl (ofValue_member (ofValue_real_nullable _) _),
      draftValue_known rfl rfl (ofValue_member (inverts_count _) _),
      draftValue_known rfl rfl (ofValue_member (inverts_boolean _) _)]
    rfl
  exact bind_eq_ok_iff.mpr ⟨_, hdraft, rfl⟩

/-- **An entry is read as a request** to arm the point in the same way.  The request does not know
the members that tell of its hits. -/
theorem ofValue_request_point (p : Point) :
    Request.form.ofValue p.toValue = .ok ⟨p.name, p.tag, some p.start, p.stop, p.seconds⟩ := by
  have hname : (textForm "a string").ofValue (.text p.name) = .ok p.name := rfl
  have hdraft : Request.record.draftValue Request.record.empty
      [("fault_name", .text p.name), ("fault_type", .text p.tag.name),
        ("start_from", .count p.start), ("end_after", nullable (p.stop.map .count)),
        ("sleep_time", nullable (p.seconds.map .real)), ("hits", .count p.hits),
        ("expired", .boolean p.expired)] = .ok
      ⟨some p.name, some p.tag, some (some p.start), some p.stop, some p.seconds⟩ := by
    rw [draftValue_known rfl rfl (ofValue_member hname _),
      draftValue_known rfl rfl (ofValue_member (inverts_tag _) _),
      draftValue_known rfl rfl (ofValue_member (ofValue_count_some _) _),
      draftValue_known rfl rfl (ofValue_member (ofValue_count_nullable _) _),
      draftValue_known rfl rfl (ofValue_member (ofValue_real_nullable _) _),
      draftValue_unknown rfl, draftValue_unknown rfl]
    rfl
  exact bind_eq_ok_iff.mpr ⟨_, hdraft, rfl⟩

/-! ## Numbers that can be written -/

/-- A request whose sleeping time is a finite number, if it has one. -/
def Request.Finite (r : Request) : Prop := ∀ x, r.seconds = some x → x.isFinite = true

/-- An entry whose sleeping time is a finite number, if it has one. -/
def Point.Finite (p : Point) : Prop := ∀ x, p.seconds = some x → x.isFinite = true

/-- What is written of a request: texts and counts, and the sleeping time. -/
theorem mem_members_iff {r : Request} {e : String × Value} :
    e ∈ r.members ↔ e = ("fault_name", .text r.name) ∨ e = ("fault_type", .text r.tag.name) ∨
      (∃ n, r.start = some n ∧ e = ("start_from", .count n)) ∨
      (∃ n, r.stop = some n ∧ e = ("end_after", .count n)) ∨
      ∃ x, r.seconds = some x ∧ e = ("sleep_time", .real x) := by
  simp only [Request.members, List.mem_append, List.mem_cons, List.not_mem_nil, or_false,
    mem_optional_iff, or_assoc]

theorem legible_request {r : Request} (h : r.Finite) : MembersLegible r.members := by
  refine membersLegible_of_forall fun e he => ?_
  rcases mem_members_iff.mp he with rfl | rfl | ⟨n, -, rfl⟩ | ⟨n, -, rfl⟩ | ⟨x, hx, rfl⟩
  · trivial
  · trivial
  · exact legible_count n
  · exact legible_count n
  · exact legible_real (h x hx)

theorem levels_request (r : Request) : memberLevels r.members ≤ 0 := by
  refine memberLevels_le fun e he => ?_
  rcases mem_members_iff.mp he with rfl | rfl | ⟨n, -, rfl⟩ | ⟨n, -, rfl⟩ | ⟨x, -, rfl⟩ <;>
    exact le_rfl

theorem legible_point {p : Point} (h : p.Finite) : p.toValue.Legible :=
  ⟨trivial, trivial, legible_count _, legible_nullable fun n _ => legible_count n,
    legible_nullable fun x hx => legible_real (h x hx), legible_count _, trivial, trivial⟩

theorem levels_point (p : Point) : p.toValue.levels ≤ 1 := by
  have hstop : (nullable (p.stop.map .count)).levels = 0 := levels_nullable (fun _ => rfl) _
  have hseconds : (nullable (p.seconds.map .real)).levels = 0 := levels_nullable (fun _ => rfl) _
  simp [Point.toValue, Value.levels, memberLevels, Value.count, hstop, hseconds]

theorem agrees_request : Request.form.Agrees := by
  refine agrees_record fun m hm => ?_
  simp only [Request.record, List.mem_cons, List.not_mem_nil, or_false] at hm
  rcases hm with rfl | rfl | rfl | rfl | rfl
  · exact agrees_member _ (agrees_scalar _) _ _ _
  · exact agrees_member _ (agrees_scalar _) _ _ _
  · exact agrees_member _ (agrees_optional (agrees_scalar _)) _ _ _
  · exact agrees_member _ (agrees_optional (agrees_scalar _)) _ _ _
  · exact agrees_member _ (agrees_optional (agrees_scalar _)) _ _ _

theorem agrees_point : Point.form.Agrees := by
  refine agrees_record fun m hm => ?_
  simp only [Point.record, List.mem_cons, List.not_mem_nil, or_false] at hm
  rcases hm with rfl | rfl | rfl | rfl | rfl | rfl | rfl
  · exact agrees_member _ (agrees_scalar _) _ _ _
  · exact agrees_member _ (agrees_scalar _) _ _ _
  · exact agrees_member _ (agrees_scalar _) _ _ _
  · exact agrees_member _ (agrees_optional (agrees_scalar _)) _ _ _
  · exact agrees_member _ (agrees_optional (agrees_scalar _)) _ _ _
  · exact agrees_member _ (agrees_scalar _) _ _ _
  · exact agrees_member _ (agrees_scalar _) _ _ _

end FaultPoints.Fault
