import FaultPoints.Json.Tagged
import FaultPoints.Proofs.Json.Agreement

/-!
# Choices tagged from within

An object that names its variant in one member, and in no other, is read as if that member were
taken out: the others are kept whole, wherever the name stands among them, and the variant reads
them as its own object.

## Main Statements

* `membersDoc_tagged` — the name is found at any place, and the other members are kept in order
* `ofDoc_tagged_iff` — what is read from an object with one name
-/

namespace FaultPoints.Json

variable {α : Type} {t : Tagged α}

theorem bufferMembers_cons_iff {depth : Nat} {e : Option String × Doc}
    {members : List (Option String × Doc)} {vs : List (String × Value)} :
    bufferMembers depth (e :: members) = .ok vs ↔
      ∃ key v vs', e.1 = some key ∧ e.2.buffer depth = .ok v ∧
        bufferMembers depth members = .ok vs' ∧ vs = (key, v) :: vs' := by
  obtain ⟨k, d⟩ := e
  simp only [bufferMembers, bind_eq_ok_iff, wantedPart_eq_ok_iff, pure_eq_ok_iff]
  constructor
  · rintro ⟨key, hkey, v, hv, vs', hvs, rfl⟩
    exact ⟨key, v, vs', hkey, hv, hvs, rfl⟩
  · rintro ⟨key, v, vs', hkey, hv, hvs, rfl⟩
    exact ⟨key, hkey, v, hv, vs', hvs, rfl⟩

/-- A member of another name than the tag is kept, and the choice stays with those behind it. -/
theorem membersDoc_cons_iff {e : Option String × Doc} (h : e.1 ≠ some t.tag)
    {members : List (Option String × Doc)} {chosen found : Option (Variant α)}
    {vs : List (String × Value)} :
    t.membersDoc chosen (e :: members) = .ok (found, vs) ↔
      ∃ key v vs', e.1 = some key ∧ e.2.buffer (nestingLimit - 1) = .ok v ∧
        t.membersDoc chosen members = .ok (found, vs') ∧ vs = (key, v) :: vs' := by
  obtain ⟨k, d⟩ := e
  simp only [Tagged.membersDoc, bind_eq_ok_iff, orBroken_eq_ok_iff, wantedPart_eq_ok_iff]
  constructor
  · rintro ⟨key, rfl, hrest⟩
    rw [if_neg fun htag => h (congrArg some htag)] at hrest
    simp only [bind_eq_ok_iff, orBroken_eq_ok_iff, pure_eq_ok_iff] at hrest
    obtain ⟨v, hv, ⟨found', vs'⟩, hmembers, hpure⟩ := hrest
    cases hpure
    exact ⟨key, v, vs', rfl, hv, hmembers, rfl⟩
  · rintro ⟨key, v, vs', rfl, hv, hmembers, rfl⟩
    refine ⟨key, rfl, ?_⟩
    rw [if_neg fun htag => h (congrArg some htag)]
    simp only [bind_eq_ok_iff, orBroken_eq_ok_iff, pure_eq_ok_iff]
    exact ⟨v, hv, _, hmembers, rfl⟩

/-- Members of other names than the tag leave the choice as it is. -/
theorem membersDoc_untagged {members : List (Option String × Doc)}
    (h : ∀ e ∈ members, e.1 ≠ some t.tag) {chosen found : Option (Variant α)}
    {vs : List (String × Value)} :
    t.membersDoc chosen members = .ok (found, vs) ↔
      found = chosen ∧ bufferMembers (nestingLimit - 1) members = .ok vs := by
  induction members generalizing found vs with
  | nil => simp [Tagged.membersDoc, bufferMembers, eq_comm]
  | cons e members ih =>
      obtain ⟨hkey, hrest⟩ := List.forall_mem_cons.mp h
      rw [membersDoc_cons_iff hkey, bufferMembers_cons_iff]
      simp only [ih hrest]
      constructor
      · rintro ⟨key, v, vs', hkey, hv, ⟨hfound, hvs⟩, rfl⟩
        exact ⟨hfound, key, v, vs', hkey, hv, hvs, rfl⟩
      · rintro ⟨hfound, key, v, vs', hkey, hv, hvs, rfl⟩
        exact ⟨key, v, vs', hkey, hv, ⟨hfound, hvs⟩, rfl⟩

/-- **The name of the variant may stand at any place**; the other members are kept in their
order. -/
theorem membersDoc_tagged {front back : List (Option String × Doc)} {d : Doc}
    (hfront : ∀ e ∈ front, e.1 ≠ some t.tag) (hback : ∀ e ∈ back, e.1 ≠ some t.tag)
    {found : Option (Variant α)} {vs : List (String × Value)} :
    t.membersDoc none (front ++ (some t.tag, d) :: back) = .ok (found, vs) ↔
      (∃ variant, t.variantDoc d = .ok variant ∧ found = some variant) ∧
        bufferMembers (nestingLimit - 1) (front ++ back) = .ok vs := by
  induction front generalizing found vs with
  | nil =>
      simp only [List.nil_append, Tagged.membersDoc, bind_eq_ok_iff, orBroken_eq_ok_iff,
        wantedPart_eq_ok_iff, Option.some_inj, exists_eq_left', if_true, Option.isSome_none,
        Bool.false_eq_true, if_false, membersDoc_untagged hback]
      constructor
      · rintro ⟨variant, hvariant, rfl, hvs⟩
        exact ⟨⟨variant, hvariant, rfl⟩, hvs⟩
      · rintro ⟨⟨variant, hvariant, rfl⟩, hvs⟩
        exact ⟨variant, hvariant, rfl, hvs⟩
  | cons e front ih =>
      obtain ⟨hkey, hrest⟩ := List.forall_mem_cons.mp hfront
      rw [List.cons_append, membersDoc_cons_iff hkey, List.cons_append, bufferMembers_cons_iff]
      simp only [ih hrest]
      constructor
      · rintro ⟨key, v, vs', hkey, hv, ⟨hfound, hvs⟩, rfl⟩
        exact ⟨hfound, key, v, vs', hkey, hv, hvs, rfl⟩
      · rintro ⟨hfound, key, v, vs', hkey, hv, hvs, rfl⟩
        exact ⟨key, v, vs', hkey, hv, ⟨hfound, hvs⟩, rfl⟩

/-- **An object that names its variant once is read as the object without the name**, provided that
its other members can be kept whole. -/
theorem ofDoc_tagged_iff {front back : List (Option String × Doc)} {name : String}
    {variant : Variant α} (hfront : ∀ e ∈ front, e.1 ≠ some t.tag)
    (hback : ∀ e ∈ back, e.1 ≠ some t.tag) (hname : t.variantOf (.text name) = .ok variant)
    {a : α} :
    t.ofDoc (.object (front ++ (some t.tag, .text (some name)) :: back) none) = .ok a ↔
      ∃ vs, (front ++ back = memberDocs vs ∧ memberLevels vs ≤ nestingLimit - 1) ∧
        variant.ofBody (.object vs) = .ok a := by
  have hvariant : t.variantDoc (.text (some name)) = .ok variant := by
    rw [Tagged.variantDoc, bind_eq_ok_iff]
    exact ⟨_, rfl, orMismatch_eq_ok_iff.mpr hname⟩
  simp only [Tagged.ofDoc, bind_eq_ok_iff, orBroken_eq_ok_iff, orMismatch_eq_ok_iff,
    closing_eq_ok_iff]
  constructor
  · rintro ⟨⟨found, vs⟩, hmembers, -, -, v, hv, hbody⟩
    obtain ⟨⟨variant', hvariant', rfl⟩, hvs⟩ := (membersDoc_tagged hfront hback).mp hmembers
    cases hvariant.symm.trans hvariant'
    cases hv
    exact ⟨vs, (bufferMembers_eq_ok_iff _ _ _).mp hvs, hbody⟩
  · rintro ⟨vs, hvs, hbody⟩
    refine ⟨(some variant, vs), (membersDoc_tagged hfront hback).mpr ⟨⟨variant, hvariant, rfl⟩, ?_⟩,
      (), trivial, variant, rfl, hbody⟩
    exact (bufferMembers_eq_ok_iff _ _ _).mpr hvs

end FaultPoints.Json
