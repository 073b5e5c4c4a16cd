import FaultPoints.Proofs.Control.Routing
import FaultPoints.Proofs.Fault.Frame

/-!
# Deleting behind the path of all points

Whoever wants a point disarmed puts its name behind the path of all points and deletes what is
found there.  Where the name has a character, the request asks for the removal of that point; all
other points keep their plans and their hits, and so do all other registries.

The name may also be empty, as when a template is filled in with nothing.  What is left of the path
then ends with a slash, and a slash at the end of a path is ignored; so the request is the one that
disarms all points.  The frame breaks in this case and in no other.

## Main Definitions

* `Http.Deletes` — a request to delete what a text names
* `Http.RemovesOne`, `Http.RemovesAll` — what may come of it

## Main Statements

* `Deletes.asks_deactivate`, `Deletes.asks_deactivateAll` — which command the request asks for
* `removal_frame` — what it leaves in place
-/

namespace FaultPoints.Control.Http

open FaultPoints.Fault (Host)

/-- **A request to delete what a text names.**  The text stands behind the path of all points, and
it has no character that ends a segment or a path; it may be empty. -/
structure Deletes (r : Request) (seg : String) : Prop where
  /-- The path is that of all points, with the text behind it. -/
  path : r.path = "/inject_fault/" ++ seg
  /-- The method is the one that disarms. -/
  method : r.method = "DELETE"
  /-- No character of the text ends a segment or a path. -/
  characters : ∀ c ∈ seg.toList, c ≠ '/' ∧ c ≠ '?' ∧ c ≠ '#'

namespace Deletes

variable {r : Request} {seg : String}

/-- Where the text has a character, it names a point. -/
theorem asks_deactivate (h : Deletes r seg) (hne : seg ≠ "") : Asks r (.deactivate seg) := by
  have hlocated : Located r.path ("/inject_fault/".toList ++ seg.toList) :=
    ⟨[], [], by rw [h.path, String.toList_append]; simp, Or.inl rfl, by simp [IsQuery]⟩
  exact .deactivate ⟨⟨hne, h.characters⟩, hlocated⟩ h.method

/-- Otherwise nothing is left of it but the slash before it. -/
theorem asks_deactivateAll (h : Deletes r seg) (hempty : seg = "") : Asks r .deactivateAll := by
  have hpath : r.path.toList = "/inject_fault".toList ++ ['/'] ++ [] := by
    rw [h.path, hempty]
    rfl
  exact .deactivateAll ⟨['/'], [], hpath, Or.inr rfl, by simp [IsQuery]⟩ h.method

end Deletes

/-- **The removal of one point.** -/
structure RemovesOne (p : Host) (id : Nat) (name : String) (x : Reply × Host) : Prop where
  /-- The reply tells whether the point was armed. -/
  reply : x.1 = .ofValue 200 (DeactivateReply.toValue ⟨name, (p.registry id).isActive name⟩)
  /-- The point is not armed any more. -/
  gone : x.2.entry id name = none
  /-- Every other point has its plan and its hits, if it was armed at all. -/
  others : ∀ name', name' ≠ name → x.2.entry id name' = p.entry id name'
  /-- The other registries are left alone. -/
  elsewhere : ∀ id', id' ≠ id → x.2.registry id' = p.registry id'

/-- **The removal of all points.** -/
structure RemovesAll (p : Host) (id : Nat) (x : Reply × Host) : Prop where
  /-- The reply tells that it is done. -/
  reply : x.1 = .ofValue 200 (Ack.toValue ⟨"ok"⟩)
  /-- No point is armed any more. -/
  gone : ∀ name, x.2.entry id name = none
  /-- The other registries are left alone. -/
  elsewhere : ∀ id', id' ≠ id → x.2.registry id' = p.registry id'

theorem removesOne_deactivate (p : Host) (id : Nat) (name : String) :
    RemovesOne p id name (perform p id (.deactivate name)) where
  reply := rfl
  gone := (p.entry_deactivate id id name name).trans (if_pos ⟨rfl, rfl⟩)
  others name' hname := (p.entry_deactivate id id name name').trans (if_neg fun h => hname h.2)
  elsewhere id' hid := (p.registry_changed id id' _).trans (if_neg hid)

theorem removesAll_deactivateAll (p : Host) (id : Nat) :
    RemovesAll p id (perform p id .deactivateAll) where
  reply := rfl
  gone name := (p.entry_deactivateAll id id name).trans (if_pos rfl)
  elsewhere id' hid := (p.registry_changed id id' _).trans (if_neg hid)

/-- **Deleting what a text names removes one point and leaves all others in place**, unless the text
is empty; then it removes them all. -/
theorem removal_frame {r : Request} {seg : String} (h : Deletes r seg) (w : Wording) (p : Host)
    (id : Nat) :
    (seg ≠ "" → RemovesOne p id seg (respond w p id r)) ∧
      (seg = "" → RemovesAll p id (respond w p id r)) := by
  constructor
  · intro hne
    rw [respond, firstOf_of_asks (h.asks_deactivate hne)]
    exact removesOne_deactivate p id seg
  · intro hempty
    rw [respond, firstOf_of_asks (h.asks_deactivateAll hempty)]
    exact removesAll_deactivateAll p id

/-- A registry in which two points are armed, and one of them was hit. -/
def rigHost : Host :=
  let armed := (Host.start.armed 0 "disk" ⟨.exception, .all⟩).armed 0 "net" ⟨.marker, .all⟩
  (armed.hit 0 "net").2

/-- The request that deletes what a text names. -/
def deletion (seg : String) : Request := .declared "DELETE" ("/inject_fault/" ++ seg) [] none

theorem removal_frame_disk :
    Deletes (deletion "disk") "disk" ∧
      (respond default rigHost 0 (deletion "disk")).2.entry 0 "disk" = none ∧
      (respond default rigHost 0 (deletion "disk")).2.entry 0 "net" =
        some ⟨"net", ⟨.marker, .all⟩, 1⟩ := by
  have hdeletes : Deletes (deletion "disk") "disk" := ⟨rfl, rfl, by simp⟩
  have hremoves := (removal_frame hdeletes default rigHost 0).1 (by decide)
  have hnet : rigHost.entry 0 "net" = some ⟨"net", ⟨.marker, .all⟩, 1⟩ := by decide +kernel
  exact ⟨hdeletes, hremoves.gone, (hremoves.others "net" (by decide)).trans hnet⟩

/-- Not every deletion leaves the other points in place. -/
theorem not_framed_of_empty :
    ¬ ∀ (w : Wording) (p : Host) (id : Nat) (r : Request) (seg : String), Deletes r seg →
      ∀ name, name ≠ seg → (respond w p id r).2.entry id name = p.entry id name := by
  intro h
  have hdeletes : Deletes (deletion "") "" := ⟨rfl, rfl, by simp⟩
  have hkept := h default rigHost 0 (deletion "") "" hdeletes "net" (by decide)
  have hgone : (respond default rigHost 0 (deletion "")).2.entry 0 "net" = none := by decide +kernel
  have hnet : rigHost.entry 0 "net" = some ⟨"net", ⟨.marker, .all⟩, 1⟩ := by decide +kernel
  rw [hgone, hnet] at hkept
  cases hkept

end FaultPoints.Control.Http
