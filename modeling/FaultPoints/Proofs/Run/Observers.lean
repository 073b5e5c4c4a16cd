import FaultPoints.Proofs.Run.Reachable
import FaultPoints.Proofs.Text.Utf8

/-!
# What the observers of a registry tell

A registry can be asked in several ways which points are armed: for the listing with all
parameters, for the names, for one name, for the hits of one name, and by a command.  In a host that
can be reached they all tell the same, and what they tell is in order and makes sense.

The listing is in the order of the bytes of the names.  The table itself has no order that matters:
in whatever order its descriptors are enumerated, sorting them by name gives the listing.

There is one thing that cannot be relied on.  A sleeping fault sleeps for some time if its plan has
been checked, but a plan that is put in force as it is may say to sleep for no time at all.  Windows
are in order in any case, since a window comes from its maker only.

## Main Definitions

* `Run.bytes` — the bytes of a name
* `Run.Consistent` — what can be relied on in a registry

## Main Statements

* `bytes_lt_iff` — names are ordered as their bytes are
* `ordered_of_entry`, `positive_of_entry` — the windows and the sleeping times in the table
* `consistent_of_reachable` — what can be relied on in every reachable host
* `not_positive_of_unchecked` — a plan that was not checked
-/

namespace FaultPoints.Run

open FaultPoints.Fault

/-! ## The order of names -/

/-- The bytes of a text. -/
def bytes (s : String) : List UInt8 := s.toUTF8.data.toList

/-- A character of a name is one byte. -/
theorem toNat_lt_of_isNameCharacter {c : Char} (h : IsNameCharacter c) : c.toNat < 128 := by
  have hle : ∀ {d : Char}, c ≤ d → d.toNat < 128 → c.toNat < 128 := fun hcd hd =>
    Nat.lt_of_le_of_lt (UInt32.le_iff_toNat_le.mp hcd) hd
  rcases h with ⟨-, h⟩ | ⟨-, h⟩ | ⟨-, h⟩ | rfl | rfl | rfl
  · exact hle h (by decide)
  · exact hle h (by decide)
  · exact hle h (by decide)
  · decide
  · decide
  · decide

/-- The bytes of a text whose characters are one byte each. -/
theorem bytes_eq_map {s : String} (h : ∀ c ∈ s.toList, c.toNat < 128) :
    bytes s = s.toList.map Char.toUInt8 := by
  rw [bytes, Text.utf8_eq_flatMap]
  generalize s.toList = cs at h
  induction cs with
  | nil => rfl
  | cons c cs ih =>
      have hc : c.utf8Size = 1 := by
        rw [Char.utf8Size_eq_one_iff, UInt32.le_iff_toNat_le]
        exact Nat.le_of_lt_succ (h c List.mem_cons_self)
      rw [List.flatMap_cons, String.utf8EncodeChar_eq_singleton hc,
        ih fun c hc => h c (List.mem_cons_of_mem _ hc)]
      rfl

theorem toNat_toUInt8 {c : Char} (h : c.toNat < 128) : c.toUInt8.toNat = c.toNat :=
  Nat.mod_eq_of_lt (Nat.lt_trans h (by decide))

/-- Characters of one byte each are ordered as their bytes are. -/
theorem map_toUInt8_lt_iff {xs ys : List Char} (hx : ∀ c ∈ xs, c.toNat < 128)
    (hy : ∀ c ∈ ys, c.toNat < 128) : xs.map Char.toUInt8 < ys.map Char.toUInt8 ↔ xs < ys := by
  induction xs generalizing ys with
  | nil => cases ys <;> simp
  | cons c cs ih =>
      cases ys with
      | nil => simp
      | cons d ds =>
          have hc := toNat_toUInt8 (hx c List.mem_cons_self)
          have hd := toNat_toUInt8 (hy d List.mem_cons_self)
          have hlt : c.toUInt8 < d.toUInt8 ↔ c < d := by
            rw [UInt8.lt_iff_toNat_lt, hc, hd]
            exact UInt32.lt_iff_toNat_lt.symm
          have heq : c.toUInt8 = d.toUInt8 ↔ c = d := by
            rw [← UInt8.toNat_inj, hc, hd, Char.toNat_inj]
          rw [List.map_cons, List.map_cons, List.cons_lt_cons_iff, List.cons_lt_cons_iff, hlt, heq,
            ih (fun c hc => hx c (List.mem_cons_of_mem _ hc))
              fun c hc => hy c (List.mem_cons_of_mem _ hc)]

/-- Names are ordered as their bytes are. -/
theorem bytes_lt_iff {s t : String} (hs : IsName s) (ht : IsName t) :
    bytes s < bytes t ↔ s < t := by
  have hs' : ∀ c ∈ s.toList, c.toNat < 128 := fun c hc =>
    toNat_lt_of_isNameCharacter (hs.characters c hc)
  have ht' : ∀ c ∈ t.toList, c.toNat < 128 := fun c hc =>
    toNat_lt_of_isNameCharacter (ht.characters c hc)
  rw [bytes_eq_map hs', bytes_eq_map ht', String.lt_iff, map_toUInt8_lt_iff hs' ht']

/-! ## What can be relied on -/

/-- A point of the listing is told as its descriptor has it. -/
structure Faithful (p : Host) (id : Nat) (e : Point) (d : Descriptor) : Prop where
  /-- The descriptor is what the table holds for the name. -/
  entry : p.entry id e.name = some d
  /-- The hits are those that are told for the name alone. -/
  hits : (p.registry id).hitCount? e.name = some e.hits
  /-- The sort is that of the effect. -/
  tag : e.tag = d.plan.effect.tag
  /-- The window starts where the stored one does. -/
  start : e.start = d.plan.window.start
  /-- It ends where the stored one does. -/
  stop : e.stop = d.plan.window.stop
  /-- A sleeping time is told of sleeping faults and of no others. -/
  seconds : e.seconds.isSome = true ↔ e.tag = .sleep
  /-- The point has expired iff its window has an end and more hits were counted. -/
  expired : e.expired = true ↔ ∃ last, e.stop = some last ∧ last < e.hits

/-- **What can be relied on in a registry**, where plans were put in force as they are. -/
structure Consistent (direct : List Plan) (p : Host) (id : Nat) : Prop where
  /-- A descriptor has the name under which it is found. -/
  name_eq : ∀ name d, p.entry id name = some d → d.name = name
  /-- The name may name a point. -/
  isName : ∀ name d, p.entry id name = some d → IsName name
  /-- The window of a descriptor is in order. -/
  window : ∀ name d, p.entry id name = some d → d.plan.window.Ordered
  /-- A sleeping fault sleeps for some time, unless its plan was put in force as it is and had not
  been checked. -/
  effect : ∀ name d, p.entry id name = some d → (d.plan ∈ direct → d.plan.Checked) →
    d.plan.effect.Positive
  /-- The listing is in the order of the bytes of the names, and no name occurs twice. -/
  increasing : (p.registry id).listing.Pairwise fun a b => bytes a.name < bytes b.name
  /-- It comes out of the table whatever the order in which the table is enumerated. -/
  sorted : ∀ ds : List Descriptor, ds.Perm ((p.registry id).points.entries.map (·.2)) →
    ((ds.map Descriptor.point).mergeSort fun a b => a.name ≤ b.name) = (p.registry id).listing
  /-- Its names are those that are listed without parameters. -/
  names : (p.registry id).listing.map (·.name) = (p.registry id).activeNames
  /-- They are the names that a command lists. -/
  queryAll : Control.handle p id .queryAll = (.ok (.active (p.registry id).activeNames), p)
  /-- They are the names of which it is told that they are armed. -/
  isActive : ∀ name, name ∈ (p.registry id).activeNames ↔ (p.registry id).isActive name = true
  /-- They are the names of which hits are told. -/
  hitCount : ∀ name,
    name ∈ (p.registry id).activeNames ↔ ((p.registry id).hitCount? name).isSome = true
  /-- Each point of the listing is told as its descriptor has it. -/
  faithful : ∀ e ∈ (p.registry id).listing, ∃ d, Faithful p id e d
  /-- Disarming a point tells whether it was listed. -/
  deactivate : ∀ name, (p.deactivate id name).1 = true ↔ name ∈ (p.registry id).activeNames

variable {direct : List Plan}

theorem mem_activeNames_iff (r : Registry) (name : String) :
    name ∈ r.activeNames ↔ r.isActive name = true :=
  (Catalog.find?_isSome_iff r.points name).symm

/-- In a valid registry each entry of the table has its descriptor's name for its key. -/
theorem name_eq_of_mem {r : Registry} (h : r.Valid direct) {k : String} {d : Descriptor}
    (hmem : (k, d) ∈ r.points.entries) : d.name = k :=
  (h.fits k d ((Catalog.mem_entries_iff h.ordered k d).mp hmem)).name_eq

theorem map_name_listing {r : Registry} (h : r.Valid direct) :
    r.listing.map (·.name) = r.activeNames := by
  rw [Registry.listing, Registry.activeNames, Catalog.keys, List.map_map]
  exact List.map_congr_left fun e he => name_eq_of_mem h he

theorem pairwise_name_listing {r : Registry} (h : r.Valid direct) :
    r.listing.Pairwise fun a b => a.name < b.name := by
  have hkeys : r.activeNames.Pairwise (· < ·) := List.pairwise_map.mpr h.ordered
  rw [← map_name_listing h] at hkeys
  exact List.pairwise_map.mp hkeys

/-- The listing is what sorting the table gives. -/
theorem sort_eq_listing {r : Registry} (h : r.Valid direct) {ds : List Descriptor}
    (hperm : ds.Perm (r.points.entries.map (·.2))) :
    ((ds.map Descriptor.point).mergeSort fun a b => a.name ≤ b.name) = r.listing := by
  have hsorted := @List.pairwise_mergeSort Point (fun a b => a.name ≤ b.name)
    (fun a b c hab hbc => by
      rw [decide_eq_true_eq] at hab hbc ⊢
      exact hab.trans hbc)
    (fun a b => by simpa using le_total a.name b.name) (ds.map Descriptor.point)
  have hmap : r.points.entries.map (fun e => e.2.point) =
      (r.points.entries.map (·.2)).map Descriptor.point := by
    rw [List.map_map]
    rfl
  refine Catalog.eq_of_perm_of_pairwise Point.name ?_ ?_ (pairwise_name_listing h)
  · rw [Registry.listing, hmap]
    exact (List.mergeSort_perm _ _).trans (hperm.map Descriptor.point)
  · exact hsorted.imp fun hle => not_lt.mpr (of_decide_eq_true hle)

theorem faithful_of_mem {p : Host} {id : Nat} (h : (p.registry id).Valid direct) {e : Point}
    (he : e ∈ (p.registry id).listing) : ∃ d, Faithful p id e d := by
  obtain ⟨⟨k, d⟩, hmem, rfl⟩ := List.mem_map.mp he
  have hname : d.point.name = k := name_eq_of_mem h hmem
  have hfind := (Catalog.mem_entries_iff h.ordered k d).mp hmem
  refine ⟨d, ?_, ?_, rfl, rfl, rfl, ?_, ?_⟩
  · rw [hname]
    exact hfind
  · rw [hname, Registry.hitCount?, hfind]
    rfl
  · cases heffect : d.plan.effect <;>
      simp [Descriptor.point, heffect, Effect.tag, Effect.duration?]
  · cases hstop : d.plan.window.stop <;> simp [Descriptor.point, Window.isExhausted, hstop]

/-- A window in the table is in order, since a window comes from its maker only. -/
theorem ordered_of_entry {p : Host} {id : Nat} (h : (p.registry id).Valid direct)
    (hmade : ∀ plan ∈ direct, plan.window.Made) {name : String} {d : Descriptor}
    (hentry : p.entry id name = some d) : d.plan.window.Ordered :=
  (h.fits name d hentry).plan.elim (·.window) fun hmem =>
    (made_iff_ordered _).mp (hmade d.plan hmem)

/-- A fault in the table sleeps for some time, if its plan was checked at one time or another. -/
theorem positive_of_entry {p : Host} {id : Nat} (h : (p.registry id).Valid direct) {name : String}
    {d : Descriptor} (hentry : p.entry id name = some d)
    (hchecked : d.plan ∈ direct → d.plan.Checked) : d.plan.effect.Positive :=
  (h.fits name d hentry).plan.elim (·.effect) fun hmem =>
    ((sound_iff_checked _).mpr (hchecked hmem)).effect

/-- **The observers agree.**  In every host that can be reached the observers of every registry
tell the same, and what they tell is in order.  The windows of plans that are put in force as they
are come from their maker, as all windows do. -/
theorem consistent_of_reachable {p : Host} (h : Reachable direct p)
    (hmade : ∀ plan ∈ direct, plan.window.Made) (id : Nat) : Consistent direct p id := by
  have hvalid := valid_of_reachable h id
  have hname : ∀ e ∈ (p.registry id).listing, IsName e.name := by
    intro e he
    obtain ⟨d, hd⟩ := faithful_of_mem hvalid he
    exact (hvalid.fits e.name d hd.entry).isName
  exact
    { name_eq := fun name d hd => (hvalid.fits name d hd).name_eq
      isName := fun name d hd => (hvalid.fits name d hd).isName
      window := fun name d hd => ordered_of_entry hvalid hmade hd
      effect := fun name d hd => positive_of_entry hvalid hd
      increasing := (pairwise_name_listing hvalid).imp_of_mem fun ha hb hlt =>
        (bytes_lt_iff (hname _ ha) (hname _ hb)).mpr hlt
      sorted := fun ds hperm => sort_eq_listing hvalid hperm
      names := map_name_listing hvalid
      queryAll := rfl
      isActive := mem_activeNames_iff _
      hitCount := fun name => by
        rw [mem_activeNames_iff, Registry.hitCount?, Option.isSome_map]
        rfl
      faithful := fun e he => faithful_of_mem hvalid he
      deactivate := fun name => (mem_activeNames_iff _ name).symm }

/-- Two points are armed in the order opposite to that of their names, one of them under a plan of
its own, and the other one is hit. -/
theorem consistent_after_two_armings :
    let plan : Plan := ⟨.marker, .all⟩
    let ops : List Operation :=
      [.arm 0 "write" .exception ⟨none, some 1, none⟩, .activate 0 "read" plan,
        .strike .hit 0 "write", .strike .inject 0 "write"]
    let p := final .start ops
    Reachable [plan] p ∧ (∀ plan' ∈ [plan], plan'.window.Made) ∧
      (p.registry 0).activeNames = ["read", "write"] ∧ Consistent [plan] p 0 := by
  intro plan ops p
  have hreachable : Reachable [plan] p := reachable_final ops
  have hmade : ∀ plan' ∈ [plan], plan'.window.Made := List.forall_mem_singleton.mpr made_all
  exact ⟨hreachable, hmade, by decide +kernel, consistent_of_reachable hreachable hmade 0⟩

/-- A plan that sleeps for no time, put in force as it is: its window is in order, no parameters lead
to it, and it is in the table. -/
theorem not_positive_of_unchecked :
    let plan : Plan := ⟨.sleep ⟨0, by decide⟩, .all⟩
    let ops : List Operation := [.activate 0 "z" plan]
    let p := final .start ops
    Reachable [plan] p ∧ plan.window.Made ∧ p.entry 0 "z" = some ⟨"z", plan, 0⟩ ∧
      ¬ plan.effect.Positive := by
  intro plan ops p
  refine ⟨reachable_final ops, made_all, by decide +kernel, fun h => ?_⟩
  exact absurd (h _ rfl) (Nat.lt_irrefl 0)

end FaultPoints.Run
