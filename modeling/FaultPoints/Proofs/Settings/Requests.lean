import FaultPoints.Proofs.Control.Decoders
import FaultPoints.Proofs.Settings.Keys

/-!
# Requests part by part

A request is decoded in two places from values under the names of its parts: from the members of a
document and from the entries of a table of the settings.  Both do the same with a value that they
have found, apart from how they convert it: the name must be there, and every other part has a
default.  So a decoder is told by its four conversions (`Reading`), and what it gives by the values
that it finds (`Reading.Gives`).

The members of a document are read in the order in which they stand.  As each of them has a place of
its own in the draft, they may be put into the order of the parts first.

## Main Definitions

* `Reading`, `Reading.Gives` — how the parts of a request are converted, and what comes of it
* `Reading.document`, `Reading.table` — the two decoders
* `partNames`, `arranged` — the names of the parts, and members in their order

## Main Statements

* `perm_arranged` — members are a permutation of those in the order of the parts
* `ofValue_object_iff` — a request in a document is read part by part
* `toRequest_table_iff` — a request in a table of the settings is read part by part
-/

namespace FaultPoints.Settings

open FaultPoints.Fault FaultPoints.Json FaultPoints.Control

/-- **How the parts of a request are converted.** -/
structure Reading (ν ε : Type) where
  /-- The name of the point. -/
  name : ν → Except ε String
  /-- The sort of the fault. -/
  tag : ν → Except ε Tag
  /-- An end of the window. -/
  count : ν → Except ε (Option UInt64)
  /-- The sleeping time. -/
  seconds : ν → Except ε (Option Binary64)

/-- What is read for a part with a default. -/
def readOr {ν ε α : Type} (read : ν → Except ε α) (default : α) : Option ν → Except ε α
  | some v => read v
  | none => .ok default

namespace Reading

/-- **What comes of values under the names of the parts.** -/
structure Gives {ν ε : Type} (R : Reading ν ε) (part : String → Option ν) (r : Request) :
    Prop where
  /-- The name is there. -/
  name : ∃ v, part "fault_name" = some v ∧ R.name v = .ok r.name
  /-- The fault is an exception unless told otherwise. -/
  tag : readOr R.tag .exception (part "fault_type") = .ok r.tag
  /-- The first hit may be missing. -/
  start : readOr R.count none (part "start_from") = .ok r.start
  /-- The last hit may be missing. -/
  stop : readOr R.count none (part "end_after") = .ok r.stop
  /-- The sleeping time may be missing. -/
  seconds : readOr R.seconds none (part "sleep_time") = .ok r.seconds

/-- The conversions of a document. -/
def document : Reading Value Mismatch :=
  ⟨(textForm "a string").ofValue, tagForm.ofValue, countForm.optional.ofValue,
    realForm.optional.ofValue⟩

/-- The conversions of the settings. -/
def table : Reading Tree SourceError :=
  ⟨Tree.toText, Tree.toTag, Tree.toOption Tree.toCount, Tree.toOption Tree.toReal⟩

end Reading

/-! ## Tables of the settings -/

theorem seen_eq_readOr {α : Type} (convert : Tree → Except SourceError α) (default : α)
    (o : Option Tree) : seen convert default o = readOr convert default o := by
  cases o <;> rfl

/-- A part is read where there is something to read it from. -/
theorem part_keyed_eq_some_iff {α : Type} (es : List (String × Tree)) (number : Nat)
    (name : String) (convert : Tree → Except SourceError α) (a : α) :
    (Tree.Parts.keyed es).part number name convert = .ok (some a) ↔
      ∃ t, es.lookup name = some t ∧ convert t = .ok a := by
  rw [Tree.Parts.part]
  cases es.lookup name <;> simp [mapError_eq_ok_iff, map_eq_ok_iff]

/-- A request has a name. -/
theorem part_name_of_toRequest {es : List (String × Tree)} {r : Request}
    (h : (Tree.table es).toRequest = .ok r) :
    (Tree.Parts.keyed es).part 0 "fault_name" Tree.toText = .ok (some r.name) := by
  obtain ⟨p, hp, h⟩ := bind_eq_ok_iff.mp h
  obtain rfl := Except.ok.inj hp
  obtain ⟨o, ho, h⟩ := bind_eq_ok_iff.mp h
  cases o with
  | none => cases h
  | some n =>
      simp only [bind_eq_ok_iff, pure_eq_ok_iff] at h
      obtain ⟨_, rfl, _, -, _, -, _, -, _, -, rfl⟩ := h
      exact ho

/-- **A request in a table of the settings is read part by part.** -/
theorem toRequest_table_iff (es : List (String × Tree)) (r : Request) :
    (Tree.table es).toRequest = .ok r ↔ Reading.table.Gives (fun k => es.lookup k) r := by
  have hrest (hname : (Tree.Parts.keyed es).part 0 "fault_name" Tree.toText = .ok (some r.name)) :
      (Tree.table es).toRequest = .ok r ↔
        readOr Tree.toTag .exception (es.lookup "fault_type") = .ok r.tag ∧
        readOr (Tree.toOption Tree.toCount) none (es.lookup "start_from") = .ok r.start ∧
        readOr (Tree.toOption Tree.toCount) none (es.lookup "end_after") = .ok r.stop ∧
        readOr (Tree.toOption Tree.toReal) none (es.lookup "sleep_time") = .ok r.seconds := by
    simp only [Tree.toRequest, Tree.parts, bind_eq_ok_iff, Except.ok.injEq, exists_eq_left',
      hname, partOr_keyed_eq_ok_iff, pure_eq_ok_iff, seen_eq_readOr]
    constructor
    · rintro ⟨tag, htag, start, hstart, stop, hstop, seconds, hseconds, heq⟩
      rw [← heq]
      exact ⟨htag, hstart, hstop, hseconds⟩
    · rintro ⟨htag, hstart, hstop, hseconds⟩
      exact ⟨_, htag, _, hstart, _, hstop, _, hseconds, rfl⟩
  constructor
  · intro h
    have hname := part_name_of_toRequest h
    obtain ⟨htag, hstart, hstop, hseconds⟩ := (hrest hname).mp h
    exact ⟨(part_keyed_eq_some_iff _ _ _ _ _).mp hname, htag, hstart, hstop, hseconds⟩
  · rintro ⟨hname, htag, hstart, hstop, hseconds⟩
    exact (hrest ((part_keyed_eq_some_iff _ _ _ _ _).mpr hname)).mpr
      ⟨htag, hstart, hstop, hseconds⟩

/-! ## Members in the order of the parts -/

/-- The names of the parts of a request. -/
def partNames : List String := ["fault_name", "fault_type", "start_from", "end_after", "sleep_time"]

/-- Members in the order of given names. -/
def arranged (names : List String) (members : List (String × Value)) : List (String × Value) :=
  names.flatMap fun name => Json.optional name (members.lookup name)

/-- Where no name occurs twice, a member is what is found under its name. -/
theorem lookup_eq_some_iff_mem {α : Type} {es : List (String × α)} (h : (es.map (·.1)).Nodup)
    (k : String) (a : α) : es.lookup k = some a ↔ (k, a) ∈ es := by
  induction es with
  | nil => simp
  | cons e rest ih =>
      obtain ⟨k', a'⟩ := e
      obtain ⟨hfresh, hrest⟩ := List.nodup_cons.mp h
      rw [List.lookup_cons, List.mem_cons, ← ih hrest]
      by_cases hk : k = k'
      · subst hk
        have hnone : rest.lookup k ≠ some a := fun hlookup =>
          hfresh (List.mem_map.mpr ⟨_, (ih hrest).mp hlookup, rfl⟩)
        simp [hnone, eq_comm]
      · simp [beq_eq_false_iff_ne.mpr hk, hk]

theorem mem_optional {name k : String} {o : Option Value} {v : Value} :
    (k, v) ∈ Json.optional name o ↔ k = name ∧ o = some v := by
  cases o <;> simp [Json.optional, eq_comm]

/-- **Members of different names are a permutation of those in the order of the names.** -/
theorem perm_arranged {names : List String} (hnames : names.Nodup)
    {members : List (String × Value)} (hnodup : (members.map (·.1)).Nodup)
    (hmem : ∀ m ∈ members, m.1 ∈ names) : members.Perm (arranged names members) := by
  have hone : ∀ name, (Json.optional name (members.lookup name)).Nodup := by
    intro name
    cases members.lookup name <;> simp [Json.optional]
  have hapart : names.Pairwise
      (Function.onFun List.Disjoint fun name => Json.optional name (members.lookup name)) := by
    refine hnames.imp fun hne => ?_
    rintro ⟨k, v⟩ hleft hright
    exact hne ((mem_optional.mp hleft).1.symm.trans (mem_optional.mp hright).1)
  refine (List.perm_ext_iff_of_nodup (hnodup.of_map _)
    (List.nodup_flatMap.mpr ⟨fun name _ => hone name, hapart⟩)).mpr ?_
  rintro ⟨k, v⟩
  rw [← lookup_eq_some_iff_mem hnodup, List.mem_flatMap]
  constructor
  · intro hlookup
    exact ⟨k, hmem _ ((lookup_eq_some_iff_mem hnodup k v).mp hlookup),
      mem_optional.mpr ⟨rfl, hlookup⟩⟩
  · rintro ⟨name, -, h⟩
    obtain ⟨rfl, hlookup⟩ := mem_optional.mp h
    exact hlookup

/-! ## Documents -/

/-- A part is read from its member, if it has one. -/
theorem draftValue_part {δ α β : Type} (r : Record δ α) (name : String) (put : Option β → δ)
    {form : Form β} {get : δ → Option β} {set : δ → β → δ} {mayEnd : Bool}
    (hfind : r.members.find? (·.name == name) = some (.of name form get set mayEnd))
    (hempty : get (put none) = none) (hset : ∀ b, set (put none) b = put (some b))
    (o : Option Value) (rest : List (String × Value)) (final : δ) :
    r.draftValue (put none) (Json.optional name o ++ rest) = .ok final ↔
      ∃ part, readOr (fun v => (form.ofValue v).map some) none o = .ok part ∧
        r.draftValue (put part) rest = .ok final := by
  cases o with
  | none => simp [Json.optional, readOr]
  | some v =>
      have hfilled : (Member.of name form get set mayEnd).filled (put none) = false := by
        simp only [Member.of, hempty, Option.isSome_none]
      simp only [Json.optional, List.cons_append, List.nil_append, Record.draftValue, hfind,
        hfilled, Bool.false_eq_true, if_false, bind_eq_ok_iff, readOr, map_eq_ok_iff]
      constructor
      · rintro ⟨_, hread, hrest⟩
        obtain ⟨b, hb, rfl⟩ := map_eq_ok_iff.mp hread
        exact ⟨some b, ⟨b, hb, rfl⟩, hset b ▸ hrest⟩
      · rintro ⟨_, ⟨b, hb, rfl⟩, hrest⟩
        exact ⟨_, map_eq_ok_iff.mpr ⟨b, hb, rfl⟩, (hset b).symm ▸ hrest⟩

/-- A part with a default is what was read of it, or the default. -/
theorem readOr_eq_ok_iff {ν ε α : Type} (read : ν → Except ε α) (default a : α) (o : Option ν) :
    readOr read default o = .ok a ↔
      ∃ part, readOr (fun v => (read v).map some) none o = .ok part ∧ part.getD default = a := by
  cases o with
  | none => simp [readOr]
  | some v => simp [readOr, map_eq_ok_iff]

/-- What was read of a part that must be there. -/
theorem readOr_eq_some_iff {ν ε α : Type} (read : ν → Except ε α) (a : α) (o : Option ν) :
    readOr (fun v => (read v).map some) none o = .ok (some a) ↔
      ∃ v, o = some v ∧ read v = .ok a := by
  cases o <;> simp [readOr, map_eq_ok_iff]

/-- The draft of members in the order of the parts. -/
theorem draftValue_arranged_iff (members : List (String × Value)) (final : Request.Draft) :
    Request.record.draftValue Request.record.empty (arranged partNames members) = .ok final ↔
      readOr (fun v => ((textForm "a string").ofValue v).map some) none
          (members.lookup "fault_name") = .ok final.name ∧
        readOr (fun v => (tagForm.ofValue v).map some) none
          (members.lookup "fault_type") = .ok final.tag ∧
        readOr (fun v => (countForm.optional.ofValue v).map some) none
          (members.lookup "start_from") = .ok final.start ∧
        readOr (fun v => (countForm.optional.ofValue v).map some) none
          (members.lookup "end_after") = .ok final.stop ∧
        readOr (fun v => (realForm.optional.ofValue v).map some) none
          (members.lookup "sleep_time") = .ok final.seconds := by
  have harranged : arranged partNames members =
      Json.optional "fault_name" (members.lookup "fault_name") ++
        (Json.optional "fault_type" (members.lookup "fault_type") ++
          (Json.optional "start_from" (members.lookup "start_from") ++
            (Json.optional "end_after" (members.lookup "end_after") ++
              (Json.optional "sleep_time" (members.lookup "sleep_time") ++ [])))) := rfl
  have hname := draftValue_part Request.record "fault_name"
    (fun n => ⟨n, none, none, none, none⟩) rfl rfl fun _ => rfl
  have htag (n) := draftValue_part Request.record "fault_type"
    (fun t => ⟨n, t, none, none, none⟩) rfl rfl fun _ => rfl
  have hstart (n t) := draftValue_part Request.record "start_from"
    (fun i => ⟨n, t, i, none, none⟩) rfl rfl fun _ => rfl
  have hstop (n t i) := draftValue_part Request.record "end_after"
    (fun j => ⟨n, t, i, j, none⟩) rfl rfl fun _ => rfl
  have hseconds (n t i j) := draftValue_part Request.record "sleep_time"
    (fun x => ⟨n, t, i, j, x⟩) rfl rfl fun _ => rfl
  have hnil : ∀ draft, Request.record.draftValue draft [] = .ok final ↔ draft = final := by
    intro draft
    rw [Record.draftValue, Except.ok.injEq]
  rw [harranged]
  refine (hname _ _ final).trans ?_
  simp only [htag, hstart, hstop, hseconds, hnil]
  constructor
  · rintro ⟨n, hn, t, ht, i, hi, j, hj, x, hx, rfl⟩
    exact ⟨hn, ht, hi, hj, hx⟩
  · rintro ⟨hn, ht, hi, hj, hx⟩
    exact ⟨_, hn, _, ht, _, hi, _, hj, _, hx, rfl⟩

theorem memberDocs_eq_map (members : List (String × Value)) :
    memberDocs members = members.map fun m => (some m.1, m.2.doc) := by
  induction members with
  | nil => rfl
  | cons m members ih => rw [memberDocs, ih, List.map_cons]

/-- A request is read from members that are kept whole in any order. -/
theorem ofValue_request_perm {members members' : List (String × Value)}
    (h : members.Perm members') (r : Request) :
    Request.form.ofValue (.object members) = .ok r ↔
      Request.form.ofValue (.object members') = .ok r := by
  rw [← agrees_request, ← agrees_request, Value.doc, Value.doc]
  refine ofDoc_request_perm ?_ r
  rw [memberDocs_eq_map, memberDocs_eq_map]
  exact h.map _

/-- **A request in a document is read part by part**, in whatever order the parts stand. -/
theorem ofValue_object_iff {members : List (String × Value)}
    (hnodup : (members.map (·.1)).Nodup) (hnames : ∀ m ∈ members, m.1 ∈ partNames) (r : Request) :
    Request.form.ofValue (.object members) = .ok r ↔
      Reading.document.Gives (fun k => members.lookup k) r := by
  rw [ofValue_request_perm (perm_arranged (by decide) hnodup hnames)]
  have hread : Request.form.ofValue (.object (arranged partNames members)) =
      Request.record.draftValue Request.record.empty (arranged partNames members) >>=
        Request.record.complete := rfl
  rw [hread, bind_eq_ok_iff]
  simp only [draftValue_arranged_iff]
  constructor
  · rintro ⟨⟨n, t, i, j, x⟩, ⟨hname, htag, hstart, hstop, hseconds⟩, hcomplete⟩
    cases n with
    | none => cases hcomplete
    | some n =>
        obtain rfl := Except.ok.inj hcomplete
        exact ⟨(readOr_eq_some_iff _ _ _).mp hname, (readOr_eq_ok_iff _ _ _ _).mpr ⟨_, htag, rfl⟩,
          (readOr_eq_ok_iff _ _ _ _).mpr ⟨_, hstart, rfl⟩,
          (readOr_eq_ok_iff _ _ _ _).mpr ⟨_, hstop, rfl⟩,
          (readOr_eq_ok_iff _ _ _ _).mpr ⟨_, hseconds, rfl⟩⟩
  · rintro ⟨hname, htag, hstart, hstop, hseconds⟩
    obtain ⟨t, ht, htag⟩ := (readOr_eq_ok_iff _ _ _ _).mp htag
    obtain ⟨i, hi, hstart⟩ := (readOr_eq_ok_iff _ _ _ _).mp hstart
    obtain ⟨j, hj, hstop⟩ := (readOr_eq_ok_iff _ _ _ _).mp hstop
    obtain ⟨x, hx, hseconds⟩ := (readOr_eq_ok_iff _ _ _ _).mp hseconds
    refine ⟨⟨some r.name, t, i, j, x⟩,
      ⟨(readOr_eq_some_iff _ _ _).mpr hname, ht, hi, hj, hx⟩, ?_⟩
    have hcomplete : Request.record.complete ⟨some r.name, t, i, j, x⟩ =
        .ok ⟨r.name, t.getD .exception, i.getD none, j.getD none, x.getD none⟩ := rfl
    rw [hcomplete, htag, hstart, hstop, hseconds]

end FaultPoints.Settings
