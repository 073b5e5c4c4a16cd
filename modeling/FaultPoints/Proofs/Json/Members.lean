import FaultPoints.Proofs.Json.Agreement
import Mathlib.Data.List.Pairwise

/-!
# The order of members does not matter

A record is read member by member into a draft.  A member of a name that the record does not have is
passed over; one that it has is read into a place of its own, and must not have been read before.
As the places do not touch each other, the members may be read in any order: either every order
succeeds, with the same draft, or none does.

## Main Definitions

* `Record.Takes` — what reading one member does to a draft
* `Member.Apart` — two members with places of their own
* `Record.Independent` — a record whose members are apart from each other
* `Form.Flat` — a form of values without parts

## Main Statements

* `takes_comm` — two members can be read in either order
* `draftDoc_perm` — so can all of them
* `exists_memberDocs`, `readable_of_draftDoc` — members that have been read can be kept whole
-/

namespace FaultPoints.Json

variable {α δ : Type} {r : Record δ α}

/-! ## One member -/

/-- **A member of an outline is taken into a draft.** -/
inductive Record.Takes (r : Record δ α) (draft : δ) : Option String × Doc → δ → Prop where
  /-- A member that the record does not have is passed over. -/
  | unknown {key : String} {d : Doc} (hfind : r.members.find? (·.name == key) = none)
      (hskip : d.skip = .ok ()) : Takes r draft (some key, d) draft
  /-- A member that the record has is read, unless the draft has it already. -/
  | known {key : String} {d : Doc} {m : Member δ} {draft' : δ}
      (hfind : r.members.find? (·.name == key) = some m) (hempty : m.filled draft = false)
      (hread : m.ofDoc draft d = .ok draft') : Takes r draft (some key, d) draft'

theorem draftDoc_cons_iff {draft final : δ} {e : Option String × Doc}
    {members : List (Option String × Doc)} :
    r.draftDoc draft (e :: members) = .ok final ↔
      ∃ draft', r.Takes draft e draft' ∧ r.draftDoc draft' members = .ok final := by
  obtain ⟨k, d⟩ := e
  simp only [Record.draftDoc, bind_eq_ok_iff, orBroken_eq_ok_iff, wantedPart_eq_ok_iff]
  constructor
  · rintro ⟨key, rfl, hrest⟩
    cases hfind : r.members.find? (·.name == key) with
    | none =>
        simp only [hfind, bind_eq_ok_iff, orBroken_eq_ok_iff] at hrest
        obtain ⟨_, hskip, hrest⟩ := hrest
        exact ⟨draft, .unknown hfind hskip, hrest⟩
    | some m =>
        simp only [hfind] at hrest
        split at hrest
        · cases hrest
        · rename_i hfilled
          obtain ⟨draft', hread, hrest⟩ := bind_eq_ok_iff.mp hrest
          exact ⟨draft', .known hfind (Bool.eq_false_iff.mpr hfilled) hread, hrest⟩
  · rintro ⟨draft', htakes, hrest⟩
    cases htakes with
    | unknown hfind hskip =>
        refine ⟨_, rfl, ?_⟩
        simp only [hfind, bind_eq_ok_iff, orBroken_eq_ok_iff]
        exact ⟨(), hskip, hrest⟩
    | known hfind hempty hread =>
        refine ⟨_, rfl, ?_⟩
        simp only [hfind, hempty, Bool.false_eq_true, if_false, bind_eq_ok_iff]
        exact ⟨draft', hread, hrest⟩

/-! ## Members with places of their own -/

/-- Reading a member leaves a mark in the draft. -/
def Member.Marks (m : Member δ) : Prop :=
  ∀ ⦃draft draft' : δ⦄ ⦃d : Doc⦄, m.ofDoc draft d = .ok draft' → m.filled draft' = true

/-- **Two members with places of their own**: reading one tells nothing about the other, and they
can be read in either order. -/
structure Member.Apart (m m' : Member δ) : Prop where
  /-- The first leaves the mark of the second as it was. -/
  left : ∀ {draft draft' : δ} {d : Doc}, m.ofDoc draft d = .ok draft' →
    m'.filled draft' = m'.filled draft
  /-- The second leaves the mark of the first as it was. -/
  right : ∀ {draft draft' : δ} {d : Doc}, m'.ofDoc draft d = .ok draft' →
    m.filled draft' = m.filled draft
  /-- The order in which they are read makes no difference. -/
  comm : ∀ {draft : δ} {d d' : Doc} {final : δ},
    (∃ draft', m.ofDoc draft d = .ok draft' ∧ m'.ofDoc draft' d' = .ok final) ↔
      ∃ draft', m'.ofDoc draft d' = .ok draft' ∧ m.ofDoc draft' d = .ok final

theorem Member.Apart.symm {m m' : Member δ} (h : m.Apart m') : m'.Apart m :=
  ⟨h.right, h.left, h.comm.symm⟩

instance : Std.Symm (@Member.Apart δ) := ⟨fun _ _ => Member.Apart.symm⟩

theorem marks_member {β : Type} (name : String) (form : Form β) {get : δ → Option β}
    {set : δ → β → δ} (h : ∀ draft b, get (set draft b) = some b) (mayEnd : Bool) :
    (Member.of name form get set mayEnd).Marks := by
  intro draft draft' d hread
  obtain ⟨b, -, rfl⟩ := map_eq_ok_iff.mp hread
  simp [Member.of, h]

/-- Two places are apart if writing one leaves the other alone and the order of writing does not
matter. -/
theorem apart_member {β γ : Type} {name name' : String} {form : Form β} {form' : Form γ}
    {get : δ → Option β} {get' : δ → Option γ} {set : δ → β → δ} {set' : δ → γ → δ}
    {mayEnd mayEnd' : Bool} (hleft : ∀ draft b, get' (set draft b) = get' draft)
    (hright : ∀ draft c, get (set' draft c) = get draft)
    (hcomm : ∀ draft b c, set' (set draft b) c = set (set' draft c) b) :
    (Member.of name form get set mayEnd).Apart (Member.of name' form' get' set' mayEnd') where
  left hread := by
    obtain ⟨b, -, rfl⟩ := map_eq_ok_iff.mp hread
    simp [Member.of, hleft]
  right hread := by
    obtain ⟨c, -, rfl⟩ := map_eq_ok_iff.mp hread
    simp [Member.of, hright]
  comm := by
    intro draft d d' final
    simp only [Member.of, map_eq_ok_iff]
    constructor
    · rintro ⟨_, ⟨b, hb, rfl⟩, c, hc, rfl⟩
      exact ⟨_, ⟨c, hc, rfl⟩, b, hb, (hcomm _ b c).symm⟩
    · rintro ⟨_, ⟨c, hc, rfl⟩, b, hb, rfl⟩
      exact ⟨_, ⟨b, hb, rfl⟩, c, hc, hcomm _ b c⟩

/-- **A record whose members have places of their own.** -/
structure Record.Independent (r : Record δ α) : Prop where
  /-- Each member leaves a mark. -/
  marks : ∀ m ∈ r.members, m.Marks
  /-- Any two of them are apart. -/
  apart : r.members.Pairwise Member.Apart

/-! ## All members -/

/-- Two members can be read in either order. -/
theorem takes_comm (h : r.Independent) {draft draft' final : δ} {e e' : Option String × Doc}
    (htakes : r.Takes draft e draft') (htakes' : r.Takes draft' e' final) :
    ∃ draft', r.Takes draft e' draft' ∧ r.Takes draft' e final := by
  cases htakes with
  | unknown hfind hskip => exact ⟨final, htakes', .unknown hfind hskip⟩
  | known hfind hempty hread =>
      rename_i key d m
      cases htakes' with
      | unknown hfind' hskip => exact ⟨draft, .unknown hfind' hskip, .known hfind hempty hread⟩
      | known hfind' hempty' hread' =>
          rename_i key' d' m'
          have hm := List.mem_of_find?_eq_some hfind
          have hm' := List.mem_of_find?_eq_some hfind'
          -- The second of two members of one name would have found the mark of the first.
          have hne : m ≠ m' := by
            rintro rfl
            rw [h.marks m hm hread] at hempty'
            cases hempty'
          have hapart : m.Apart m' := h.apart.forall hm hm' hne
          obtain ⟨draft'', hread'', hfinal⟩ := hapart.comm.mp ⟨draft', hread, hread'⟩
          refine ⟨draft'', .known hfind' ?_ hread'', .known hfind ?_ hfinal⟩
          · rw [← hapart.left hread, hempty']
          · rw [hapart.right hread'', hempty]

/-- **The members of a record may be read in any order.** -/
theorem draftDoc_perm (h : r.Independent) {members members' : List (Option String × Doc)}
    (hperm : members.Perm members') {draft final : δ} :
    r.draftDoc draft members = .ok final ↔ r.draftDoc draft members' = .ok final := by
  induction hperm generalizing draft with
  | nil => rfl
  | cons e _ ih => simp only [draftDoc_cons_iff, ih]
  | swap e e' members =>
      simp only [draftDoc_cons_iff]
      -- Nothing is lost by the exchange of two members, so it serves for both directions.
      constructor
      all_goals
        rintro ⟨draft', htakes, draft'', htakes', hrest⟩
        obtain ⟨other, hother, hother'⟩ := takes_comm h htakes htakes'
        exact ⟨other, hother, draft'', hother', hrest⟩
  | trans _ _ ih ih' => rw [ih, ih']

/-! ## Members that can be kept whole -/

/-- A form of values without parts: whatever it accepts can be kept whole. -/
def Form.Flat (f : Form α) : Prop := ∀ ⦃d : Doc⦄ ⦃a : α⦄, f.ofDoc d = .ok a → d.Readable 0

/-- A member whose value has no parts. -/
def Member.Flat (m : Member δ) : Prop :=
  ∀ ⦃draft draft' : δ⦄ ⦃d : Doc⦄, m.ofDoc draft d = .ok draft' → d.Readable 0

theorem Doc.Readable.mono {d : Doc} {depth depth' : Nat} (h : d.Readable depth)
    (hdepth : depth ≤ depth') : d.Readable depth' := by
  obtain ⟨v, rfl, hlevels⟩ := h
  exact ⟨v, rfl, hlevels.trans hdepth⟩

theorem flat_scalar {read : Found → Except Mismatch α} (hsequence : ∀ a, read .sequence ≠ .ok a)
    (hmap : ∀ a, read .map ≠ .ok a) : (Form.scalar read).Flat := by
  intro d a h
  simp only [Form.scalar, bind_eq_ok_iff, orBroken_eq_ok_iff, orMismatch_eq_ok_iff] at h
  obtain ⟨found, hfound, hread⟩ := h
  cases d with
  | null => exact ⟨.null, rfl, le_rfl⟩
  | boolean b => exact ⟨.boolean b, rfl, le_rfl⟩
  | number n =>
      obtain ⟨n', hn, -⟩ := map_eq_ok_iff.mp hfound
      exact ⟨.number n', by rw [wantedPart_eq_ok_iff.mp hn]; rfl, le_rfl⟩
  | text s =>
      obtain ⟨s', hs, -⟩ := map_eq_ok_iff.mp hfound
      exact ⟨.text s', by rw [wantedPart_eq_ok_iff.mp hs]; rfl, le_rfl⟩
  | array items ending =>
      cases hfound
      exact absurd hread (hsequence a)
  | object members ending =>
      cases hfound
      exact absurd hread (hmap a)
  | cut h => cases hfound

theorem flat_text (wanted : String) : (textForm wanted).Flat :=
  flat_scalar (fun _ h => by cases h) (fun _ h => by cases h)

theorem flat_count : countForm.Flat :=
  flat_scalar (fun _ h => by cases h) (fun _ h => by cases h)

theorem flat_real : realForm.Flat :=
  flat_scalar (fun _ h => by cases h) (fun _ h => by cases h)

theorem flat_optional {f : Form α} (h : f.Flat) : f.optional.Flat := by
  intro d a hread
  by_cases hnull : d = .null
  · exact ⟨.null, hnull, le_rfl⟩
  · rw [ofDoc_optional f hnull] at hread
    obtain ⟨b, hb, -⟩ := map_eq_ok_iff.mp hread
    exact h hb

theorem flat_member (name : String) {f : Form α} (h : f.Flat) (get : δ → Option α)
    (set : δ → α → δ) (mayEnd : Bool) : (Member.of name f get set mayEnd).Flat := by
  intro draft draft' d hread
  obtain ⟨b, hb, -⟩ := map_eq_ok_iff.mp hread
  exact h hb

/-- Members that can be kept whole are the outlines of values under their keys. -/
theorem exists_memberDocs {depth : Nat} {members : List (Option String × Doc)}
    (h : ∀ e ∈ members, (∃ key, e.1 = some key) ∧ e.2.Readable depth) :
    ∃ vs, members = memberDocs vs ∧ memberLevels vs ≤ depth := by
  induction members with
  | nil => exact ⟨[], rfl, Nat.zero_le _⟩
  | cons e members ih =>
      obtain ⟨⟨⟨key, hkey⟩, v, hv, hlevels⟩, hrest⟩ := List.forall_mem_cons.mp h
      obtain ⟨vs, rfl, hlevels'⟩ := ih hrest
      exact ⟨(key, v) :: vs, by rw [memberDocs, ← hkey, ← hv], max_le hlevels hlevels'⟩

/-- **If a record of values without parts is read then all its members can be kept whole**, as far
as those can that it does not have. -/
theorem readable_of_draftDoc (h : ∀ m ∈ r.members, m.Flat) {depth : Nat}
    {members : List (Option String × Doc)} {draft final : δ}
    (hunknown : ∀ key d, (some key, d) ∈ members → r.members.find? (·.name == key) = none →
      d.Readable depth) (hread : r.draftDoc draft members = .ok final) :
    ∀ e ∈ members, (∃ key, e.1 = some key) ∧ e.2.Readable depth := by
  induction members generalizing draft with
  | nil => simp
  | cons e members ih =>
      obtain ⟨draft', htakes, hrest⟩ := draftDoc_cons_iff.mp hread
      refine List.forall_mem_cons.mpr ⟨?_, ih (fun key d hmem => hunknown key d
        (List.mem_cons_of_mem _ hmem)) hrest⟩
      cases htakes with
      | unknown hfind hskip => exact ⟨⟨_, rfl⟩, hunknown _ _ List.mem_cons_self hfind⟩
      | known hfind hempty hread =>
          have hflat := h _ (List.mem_of_find?_eq_some hfind) hread
          exact ⟨⟨_, rfl⟩, hflat.mono (Nat.zero_le _)⟩

end FaultPoints.Json
