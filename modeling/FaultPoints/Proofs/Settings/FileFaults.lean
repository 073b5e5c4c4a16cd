import FaultPoints.Proofs.Node.Startup
import FaultPoints.Proofs.Settings.Reloading
import FaultPoints.Proofs.Settings.Requests

/-!
# Faults in a settings file

A fault to arm at the start stands in a settings file as a table of scalars under the names of its
parts.  The same scalars make an object that can be sent over the control channel.  Both are read as
a request, but not alike.  The settings convert a scalar into what is asked for wherever they can:
truth values and numbers into texts, truth values and texts that spell a number into counts, and a
number that is not whole into the nearest count.  A document takes nothing but a scalar of the kind
that is wanted for the part.

So a settings file is laxer than the channel, and this is the whole difference: an object is read
iff the table is and all its scalars are of the wanted kinds, and then both are the same request.

## Main Definitions

* `Entry` — a table of scalars that a document can hold, under names of parts
* `Entry.tree`, `Entry.values` — the table in a settings file, and the members of the object
* `Entry.InKind` — every scalar is of the kind that is wanted for its part
* `Narrows` — a conversion of documents takes what is wanted of what the settings take

## Main Statements

* `Entry.ofDoc_iff` — when an object is read, and as what
* `faults_of_load` — the faults of settings that were loaded are those of the file
* `file_fault_law` — a fault that was loaded and found sound can be sent iff it is in kind
* `file_laxer_than_document` — a fault that is loaded and found sound and that cannot be sent
-/

namespace FaultPoints.Settings

open FaultPoints.Fault FaultPoints.Json FaultPoints.Control

/-! ## Scalars in a file and in a document -/

/-- A scalar that a document can hold as well. -/
def IsShared : Toml.Scalar → Prop
  | .boolean _ => True
  | .whole i => -(Text.signedLimit : Int) ≤ i ∧ i < Text.signedLimit
  | .real x => x.isFinite = true
  | .text _ => True
  | .moment _ => False

instance : DecidablePred IsShared
  | .boolean _ => .isTrue trivial
  | .whole i => inferInstanceAs (Decidable (_ ≤ i ∧ i < _))
  | .real x => inferInstanceAs (Decidable (x.isFinite = true))
  | .text _ => .isTrue trivial
  | .moment _ => .isFalse id

/-- A scalar in a tree of settings. -/
def scalarTree (a : Toml.Scalar) : Tree := .ofValue (.scalar a)

/-- A scalar in a document, where a date can only be a text. -/
def scalarValue : Toml.Scalar → Value
  | .boolean b => .boolean b
  | .whole i => .number (.whole i)
  | .real x => .real x
  | .text s => .text s
  | .moment s => .text s

/-- **A scalar is of the kind that is wanted for a part.** -/
def IsWanted (name : String) : Toml.Scalar → Prop
  | .text _ => name = "fault_name" ∨ name = "fault_type"
  | .whole _ => name = "start_from" ∨ name = "end_after" ∨ name = "sleep_time"
  | .real _ => name = "sleep_time"
  | .boolean _ => False
  | .moment _ => False

instance (name : String) : DecidablePred (IsWanted name)
  | .text _ => inferInstanceAs (Decidable (name = _ ∨ name = _))
  | .whole _ => inferInstanceAs (Decidable (name = _ ∨ name = _ ∨ name = _))
  | .real _ => inferInstanceAs (Decidable (name = _))
  | .boolean _ => .isFalse id
  | .moment _ => .isFalse id

theorem legible_scalarValue {a : Toml.Scalar} (h : IsShared a) : (scalarValue a).Legible := by
  cases a with
  | whole i =>
      have hlimit : Text.signedLimit ≤ Text.wordLimit := by decide
      exact legible_of_held ⟨h.1, by have := h.2; omega⟩
  | real x => exact legible_real h
  | _ => trivial

/-- **A conversion of documents takes what is wanted** of what a conversion of the settings takes,
and makes the same of it. -/
def Narrows {α : Type} (name : String) (strict : Value → Except Mismatch α)
    (lax : Tree → Except SourceError α) : Prop :=
  ∀ a, IsShared a → ∀ x, strict (scalarValue a) = .ok x ↔
    lax (scalarTree a) = .ok x ∧ IsWanted name a

theorem narrows_name : Narrows "fault_name" Reading.document.name Reading.table.name := by
  intro a ha s
  cases a with
  | moment t => exact ha.elim
  | _ => simp [Reading.document, Reading.table, scalarValue, scalarTree, Tree.ofValue, IsWanted,
      textForm, Form.scalar, readTextAs, Value.found, Value.real, Tree.toText]

theorem narrows_tag : Narrows "fault_type" Reading.document.tag Reading.table.tag := by
  intro a ha t
  cases a with
  | moment s => exact ha.elim
  | text s =>
      simp [Reading.document, Reading.table, scalarValue, scalarTree, Tree.ofValue, IsWanted,
        tagForm, Form.scalar, readTextAs, Value.found, Tree.toTag, Tree.toText, bind_eq_ok_iff,
        mapError_eq_ok_iff]
  | _ => simp [Reading.document, scalarValue, IsWanted, tagForm, Form.scalar, readTextAs,
      Value.found, Value.real]

/-- No count in a file is too large for a document. -/
theorem narrows_count {name : String} (hname : name = "start_from" ∨ name = "end_after") :
    Narrows name Reading.document.count Reading.table.count := by
  intro a ha n
  have hreal : name ≠ "sleep_time" := by rcases hname with rfl | rfl <;> decide
  have htext : ¬ (name = "fault_name" ∨ name = "fault_type") := by
    rcases hname with rfl | rfl <;> decide
  cases a with
  | moment s => exact ha.elim
  | whole i =>
      have hlimit : i < Text.wordLimit := ha.2.trans (by decide)
      have hwanted : IsWanted name (.whole i) := hname.elim Or.inl fun h => Or.inr (Or.inl h)
      have hsame : ∀ m, Json.readUnsigned Text.wordLimit "u64" (.number (.whole i)) = .ok m ↔
          (Tree.whole i).toUnsigned = .ok m := by
        intro m
        by_cases h : 0 ≤ i
        · rw [Json.readUnsigned, if_pos ⟨h, hlimit⟩, Tree.toUnsigned, if_pos h, Except.ok.injEq,
            Except.ok.injEq]
        · rw [Json.readUnsigned, if_neg fun hi => h hi.1, Tree.toUnsigned, if_neg h, Tree.unfit]
          simp
      simp [Reading.document, Reading.table, scalarValue, scalarTree, Tree.ofValue, hwanted,
        countForm, Form.scalar, Form.optional, Value.found, Tree.toOption, Tree.toCount, hsame,
        map_eq_ok_iff]
  | _ => simp [Reading.document, scalarValue, IsWanted, hreal, htext, countForm, Form.scalar,
      Form.optional, Json.readUnsigned, Value.found, Value.real, map_eq_ok_iff]

theorem narrows_seconds : Narrows "sleep_time" Reading.document.seconds Reading.table.seconds := by
  intro a ha x
  cases a with
  | moment s => exact ha.elim
  | _ => simp [Reading.document, Reading.table, scalarValue, scalarTree, Tree.ofValue, IsWanted,
      realForm, Form.scalar, Form.optional, Value.found, Value.real, Tree.toOption, Tree.toReal,
      map_eq_ok_iff]

/-! ## Entries -/

/-- **A fault in a settings file**: a table of scalars under names of parts. -/
structure Entry where
  /-- The scalars with their names. -/
  members : List (String × Toml.Scalar)
  /-- A table has no key twice. -/
  nodup : (members.map (·.1)).Nodup
  /-- Each name is that of a part. -/
  named : ∀ m ∈ members, m.1 ∈ partNames
  /-- Each scalar can stand in a document. -/
  shared : ∀ m ∈ members, IsShared m.2

theorem treesOfEntries_map_scalar (members : List (String × Toml.Scalar)) :
    treesOfEntries (members.map fun m => (m.1, .scalar m.2)) =
      members.map fun m => (m.1, scalarTree m.2) := by
  induction members with
  | nil => rfl
  | cons m members ih => rw [List.map_cons, List.map_cons, treesOfEntries, ih, scalarTree]

theorem lookup_map {α β : Type} (f : α → β) (es : List (String × α)) (k : String) :
    (es.map fun e => (e.1, f e.2)).lookup k = (es.lookup k).map f := by
  induction es with
  | nil => rfl
  | cons e es ih =>
      rw [List.map_cons, List.lookup_cons, List.lookup_cons, ih]
      cases k == e.1 <;> rfl

namespace Entry

variable (x : Entry)

/-- The entries of the table in a tree of settings. -/
def trees : List (String × Tree) := x.members.map fun m => (m.1, scalarTree m.2)

/-- The members of the object. -/
def values : List (String × Value) := x.members.map fun m => (m.1, scalarValue m.2)

/-- The table in a tree of settings. -/
def tree : Tree := .ofValue (.table (x.members.map fun m => (m.1, .scalar m.2)))

/-- **Every scalar is of the kind that is wanted for its part.** -/
def InKind : Prop := ∀ m ∈ x.members, IsWanted m.1 m.2

instance : Decidable x.InKind :=
  inferInstanceAs (Decidable (∀ m ∈ x.members, IsWanted m.1 m.2))

theorem tree_eq : x.tree = .table x.trees := by
  rw [tree, Tree.ofValue, treesOfEntries_map_scalar, trees]

theorem shared_of_lookup {k : String} {a : Toml.Scalar} (h : x.members.lookup k = some a) :
    IsShared a := x.shared _ ((lookup_eq_some_iff_mem x.nodup k a).mp h)

/-- An entry is in kind iff each of its parts is. -/
theorem inKind_iff :
    x.InKind ↔ ∀ k ∈ partNames, ∀ a, x.members.lookup k = some a → IsWanted k a := by
  constructor
  · intro h k _ a hlookup
    exact h (k, a) ((lookup_eq_some_iff_mem x.nodup k a).mp hlookup)
  · intro h m hm
    exact h m.1 (x.named m hm) m.2 ((lookup_eq_some_iff_mem x.nodup _ _).mpr hm)

section Parts

variable {α : Type} {k : String} {strict : Value → Except Mismatch α}
  {lax : Tree → Except SourceError α} (h : Narrows k strict lax)

include h

/-- What is read of a part that may be missing. -/
theorem readOr_iff (default a : α) :
    readOr strict default (x.values.lookup k) = .ok a ↔
      readOr lax default (x.trees.lookup k) = .ok a ∧
        ∀ s, x.members.lookup k = some s → IsWanted k s := by
  rw [values, trees, lookup_map, lookup_map]
  cases hlookup : x.members.lookup k with
  | none => simp [readOr]
  | some s => simpa [readOr] using h s (x.shared_of_lookup hlookup) a

/-- What is read of a part that must be there. -/
theorem found_iff (a : α) :
    (∃ v, x.values.lookup k = some v ∧ strict v = .ok a) ↔
      (∃ t, x.trees.lookup k = some t ∧ lax t = .ok a) ∧
        ∀ s, x.members.lookup k = some s → IsWanted k s := by
  rw [values, trees, lookup_map, lookup_map]
  cases hlookup : x.members.lookup k with
  | none => simp
  | some s => simpa using h s (x.shared_of_lookup hlookup) a

end Parts

/-- **What the two decoders make of the same scalars.** -/
theorem gives_iff (r : Request) :
    Reading.document.Gives (fun k => x.values.lookup k) r ↔
      Reading.table.Gives (fun k => x.trees.lookup k) r ∧ x.InKind := by
  have hname := x.found_iff narrows_name r.name
  have htag := x.readOr_iff narrows_tag .exception r.tag
  have hstart := x.readOr_iff (narrows_count (Or.inl rfl)) none r.start
  have hstop := x.readOr_iff (narrows_count (Or.inr rfl)) none r.stop
  have hseconds := x.readOr_iff narrows_seconds none r.seconds
  rw [inKind_iff]
  simp only [partNames, List.forall_mem_cons, List.not_mem_nil, false_imp_iff, implies_true,
    and_true]
  constructor
  · rintro ⟨n, t, i, j, y⟩
    obtain ⟨n, hn⟩ := hname.mp n
    obtain ⟨t, ht⟩ := htag.mp t
    obtain ⟨i, hi⟩ := hstart.mp i
    obtain ⟨j, hj⟩ := hstop.mp j
    obtain ⟨y, hy⟩ := hseconds.mp y
    exact ⟨⟨n, t, i, j, y⟩, hn, ht, hi, hj, hy⟩
  · rintro ⟨⟨n, t, i, j, y⟩, hn, ht, hi, hj, hy⟩
    exact ⟨hname.mpr ⟨n, hn⟩, htag.mpr ⟨t, ht⟩, hstart.mpr ⟨i, hi⟩, hstop.mpr ⟨j, hj⟩,
      hseconds.mpr ⟨y, hy⟩⟩

theorem nodup_values : (x.values.map (·.1)).Nodup := by
  rw [values, List.map_map]
  exact x.nodup

theorem named_values : ∀ m ∈ x.values, m.1 ∈ partNames := by
  intro m hm
  obtain ⟨a, ha, rfl⟩ := List.mem_map.mp hm
  exact x.named a ha

/-- The object has a text. -/
theorem objectText_values :
    ObjectText (Text.glyphs (Value.object x.values).render) (memberDocs x.values) := by
  refine objectText_render (membersLegible_of_forall fun m hm => ?_)
  obtain ⟨a, ha, rfl⟩ := List.mem_map.mp hm
  exact legible_scalarValue (x.shared a ha)

/-- **An object is read iff the table is and all its scalars are of the wanted kinds**, and then as
the same request. -/
theorem ofDoc_iff {members : List (Option String × Doc)}
    (hperm : members.Perm (memberDocs x.values)) (r : Request) :
    Request.form.ofDoc (.object members none) = .ok r ↔ x.tree.toRequest = .ok r ∧ x.InKind := by
  have hdoc : Request.form.ofDoc (.object members none) = .ok r ↔
      Request.form.ofDoc (Value.object x.values).doc = .ok r := by
    rw [ofDoc_request_perm hperm, Value.doc]
  rw [hdoc, agrees_request, ofValue_object_iff x.nodup_values x.named_values, gives_iff, tree_eq,
    toRequest_table_iff]

end Entry

/-! ## Entries of a file -/

/-- The scalar that a tree is, if it is one. -/
def Tree.scalar? : Tree → Option Toml.Scalar
  | .boolean b => some (.boolean b)
  | .whole i => some (.whole i)
  | .real x => some (.real x)
  | .text s => some (.text s)
  | _ => none

/-- The scalars that a table holds, if it holds nothing else. -/
def Tree.scalars? : Tree → Option (List (String × Toml.Scalar))
  | .table es => es.mapM fun e => e.2.scalar?.map fun a => (e.1, a)
  | _ => none

theorem scalarTree_of_scalar? {t : Tree} {a : Toml.Scalar} (h : t.scalar? = some a) :
    t = scalarTree a := by
  cases t with
  | absent => cases h
  | list ts => cases h
  | table es => cases h
  | _ =>
      obtain rfl := Option.some.inj h
      rfl

theorem entries_eq_of_scalars? {es : List (String × Tree)} {members : List (String × Toml.Scalar)}
    (h : (Tree.table es).scalars? = some members) :
    es = members.map fun m => (m.1, scalarTree m.2) := by
  rw [Tree.scalars?] at h
  induction es generalizing members with
  | nil =>
      obtain rfl : [] = members := by simpa using h
      rfl
  | cons e es ih =>
      simp only [List.mapM_cons, Option.bind_eq_bind, Option.bind_eq_some_iff,
        Option.map_eq_some_iff, Option.pure_def, Option.some_inj] at h
      obtain ⟨_, ⟨a, ha, rfl⟩, rest, hrest, rfl⟩ := h
      rw [List.map_cons, ← ih hrest, ← scalarTree_of_scalar? ha]

/-- What a file with one fault has is known from its keys and its scalars. -/
theorem exists_doc_of_scalars? (files : Files.Store) (path : String) (x : Entry)
    (hplain : ∀ doc ∈ (fileSource files path).toOption, ∀ y ∈ doc, IsPlainKey y.1)
    (hscalars : ((fileSource files path).toOption.bind Key.faults.lastIn).map
      (fun t => t.items.map Tree.scalars?) = some [some x.members]) :
    ∃ doc, fileSource files path = .ok doc ∧ (∀ y ∈ doc, IsPlainKey y.1) ∧
      Key.faults.lastIn doc = some (.list [x.tree]) := by
  obtain ⟨t, ht, hitems⟩ := Option.map_eq_some_iff.mp hscalars
  obtain ⟨doc, hdoc, hlast⟩ := Option.bind_eq_some_iff.mp ht
  obtain ⟨u, hlist, hu⟩ := List.map_eq_singleton_iff.mp hitems
  have hfile : fileSource files path = .ok doc := by
    cases hsource : fileSource files path with
    | ok doc' =>
        rw [hsource] at hdoc
        exact congrArg Except.ok (Option.some.inj hdoc)
    | error why =>
        rw [hsource] at hdoc
        cases hdoc
  refine ⟨doc, hfile, hplain doc hdoc, hlast.trans ?_⟩
  cases t with
  | list ts =>
      obtain rfl : ts = [u] := hlist
      cases u with
      | table es => rw [x.tree_eq, Entry.trees, entries_eq_of_scalars? hu]
      | _ => cases hu
  | _ => cases hlist

/-! ## Faults of settings that are loaded -/

theorem exists_of_convertItems {α : Type} {convert : Tree → Except SourceError α} {start : Nat}
    {ts : List Tree} {as : List α} (h : Tree.convertItems convert start ts = .ok as) {i : Nat}
    {t : Tree} (ht : ts[i]? = some t) : ∃ a, as[i]? = some a ∧ convert t = .ok a := by
  induction ts generalizing start as i with
  | nil => cases ht
  | cons u ts ih =>
      simp only [Tree.convertItems, bind_eq_ok_iff, mapError_eq_ok_iff, pure_eq_ok_iff] at h
      obtain ⟨a, ha, rest, hrest, rfl⟩ := h
      cases i with
      | zero =>
          obtain rfl : u = t := by simpa using ht
          exact ⟨a, rfl, ha⟩
      | succ i =>
          rw [List.getElem?_cons_succ] at ht ⊢
          exact ih hrest ht

section Loaded

variable {files : Files.Store} {e : Environment} {path : String} {doc : List (String × Tree)}
  {ts : List Tree} {s : Settings}

/-- **The faults of settings that were loaded are those of the file.**  The environment cannot set
them: no text of a variable is read as a list. -/
theorem faults_of_load (he : e.LeafOnly) (hpath : e.get? pathVariable = some path)
    (hfile : fileSource files path = .ok doc) (hdoc : ∀ y ∈ doc, IsPlainKey y.1)
    (hfaults : Key.faults.lastIn doc = some (.list ts)) (hload : load files e = .ok s) :
    (Tree.list ts).toList Tree.toRequest = .ok s.faults := by
  have hlayered : layered .default doc e = .ok s := by
    simpa [load, hpath, hfile, bind, Except.bind] using hload
  have htree := ((layered_eq_ok_iff .default doc e s).mp hlayered).2
  rw [Tree.overlaid_plain hdoc] at htree
  have hleaf : (Tree.list ts).IsLeaf := trivial
  have hmerged : Key.faults.valueIn ((written .default).mergeKeys doc) = some (.list ts) :=
    (Tree.under_mergeKeys _ _ _).trans (Tree.gathered_of_getLast? hleaf hfaults _)
  have hvalue := he.setsKeys.valueIn_overlaid ((written .default).mergeKeys doc) .faults
  rw [hmerged, he.lookup_source] at hvalue
  obtain ⟨es, hes⟩ := exists_laid_eq .default doc e.source
  rw [hes] at htree hvalue
  have hsight := (ofTree_table_iff es s).mp htree .faults
  have hsame : es.lookup Branch.faults.name = _ := hvalue
  rw [hsame] at hsight
  cases htext : e.text? .faults with
  | none =>
      rw [htext] at hsight
      exact hsight
  | some text =>
      obtain ⟨why, hwhy⟩ := exists_error_of_faults text
      rw [htext] at hsight
      cases hwhy.symm.trans hsight

/-- **A fault that was loaded from a file and found sound.**  It stands in its place among the
faults of the settings and has a plan.  The object with the same members and values, in whatever
order, is read as the same request if every scalar is of the kind that is wanted for its part, and
it is refused otherwise.  The same becomes of every text of which the reader makes that object.

Which number the reader makes of a numeral is not said here: a text counts only if the numbers that
come out of it are those of the file. -/
theorem file_fault_law (he : e.LeafOnly) (hpath : e.get? pathVariable = some path)
    (hfile : fileSource files path = .ok doc) (hdoc : ∀ y ∈ doc, IsPlainKey y.1)
    (hfaults : Key.faults.lastIn doc = some (.list ts)) (hload : load files e = .ok s)
    (hcheck : s.check = .ok ()) {i : Nat} {x : Entry} (hx : ts[i]? = some x.tree) :
    ∃ r plan, s.faults[i]? = some r ∧ r.plan = .ok plan ∧
      ∀ values : List (String × Value), values.Perm x.values →
        (x.InKind → Request.form.ofDoc (Value.object values).doc = .ok r ∧
          ∀ J, ReadsAs J (Value.object values).doc → Request.form.parse J = .ok r) ∧
        (¬ x.InKind → ∃ flaw, Request.form.ofDoc (Value.object values).doc = .error flaw ∧
          ∀ J, ReadsAs J (Value.object values).doc → Request.form.parse J = .error flaw) := by
  have hread := faults_of_load he hpath hfile hdoc hfaults hload
  obtain ⟨r, hr, hrequest⟩ := exists_of_convertItems hread hx
  have hsound := (checkFaults_eq_ok_iff s.faults).mp ((check_ok_iff s).mp hcheck).2.2.2.2
  obtain ⟨plan, hplan⟩ := hsound r (List.mem_of_getElem? hr)
  refine ⟨r, plan, hr, (plan_eq_ok_iff r plan).mpr hplan, fun values hvalues => ?_⟩
  have hperm : (memberDocs values).Perm (memberDocs x.values) := by
    rw [memberDocs_eq_map, memberDocs_eq_map]
    exact hvalues.map _
  have hobject := x.ofDoc_iff hperm
  have hparse : ∀ J, ReadsAs J (Value.object values).doc →
      Request.form.parse J = Request.form.ofDoc (Value.object values).doc := fun J hJ =>
    hJ.parseWith_eq Request.form.ofDoc
  constructor
  · intro hkind
    have hsame := (hobject r).mpr ⟨hrequest, hkind⟩
    exact ⟨hsame, fun J hJ => (hparse J hJ).trans hsame⟩
  · intro hkind
    cases hresult : Request.form.ofDoc (Value.object values).doc with
    | error flaw => exact ⟨flaw, rfl, fun J hJ => (hparse J hJ).trans hresult⟩
    | ok r' => exact absurd ((hobject r').mp hresult).2 hkind

end Loaded

/-- A store with a settings file in which a fault starts at a given scalar. -/
def diskFiles (start : String) : Files.Store where
  entries := Files.Store.vacant.entries.insert ["work", "faults.toml"]
    (.file ("[[faults]]\nfault_name = \"disk\"\nstart_from = " ++ start ++ "\n"))
  home := ["work"]

/-- The environment that names the settings file. -/
def diskVariables : Environment := [(pathVariable, "faults.toml")]

theorem leafOnly_diskVariables : diskVariables.LeafOnly :=
  ⟨by decide +kernel, by decide +kernel⟩

/-- The fault of the settings file. -/
def diskEntry (start : Toml.Scalar) (h : IsShared start) : Entry where
  members := [("fault_name", .text "disk"), ("start_from", start)]
  nodup := by simp
  named := by simp [partNames]
  shared := List.forall_mem_cons.mpr ⟨trivial, List.forall_mem_singleton.mpr h⟩

/-- The default settings with a fault that starts at a given hit. -/
def diskSettings (start : UInt64) : Settings :=
  { Settings.default with faults := [⟨"disk", .exception, some start, none, none⟩] }

/-- The fault that starts at the second hit. -/
def wholeDisk : Entry := diskEntry (.whole 2) (by decide)

/-- The fault that starts at two and a half hits. -/
def brokenDisk : Entry := diskEntry (.real (Binary64.ofRatio false 5 2)) (by decide +kernel)

theorem file_fault_law_whole :
    diskVariables.LeafOnly ∧ load (diskFiles "2") diskVariables = .ok (diskSettings 2) ∧
      (diskSettings 2).check = .ok () ∧
      Request.form.parse (Text.glyphs (Value.object wholeDisk.values).render) =
        .ok ⟨"disk", .exception, some 2, none, none⟩ := by
  have hload : load (diskFiles "2") diskVariables = .ok (diskSettings 2) := by decide +kernel
  have hcheck : (diskSettings 2).check = .ok () := by decide +kernel
  have hkind : wholeDisk.InKind := by decide
  obtain ⟨doc, hfile, hdoc, hfaults⟩ := exists_doc_of_scalars? (diskFiles "2") "faults.toml"
    wholeDisk (by decide +kernel) (by decide +kernel)
  have hentry : [wholeDisk.tree][0]? = some wholeDisk.tree := rfl
  obtain ⟨r, plan, hr, -, hvalues⟩ :=
    file_fault_law leafOnly_diskVariables rfl hfile hdoc hfaults hload hcheck hentry
  obtain rfl := Option.some.inj hr
  exact ⟨leafOnly_diskVariables, hload, hcheck, ((hvalues _ (List.Perm.refl _)).1 hkind).2 _
    (objectText_iff.mp wholeDisk.objectText_values)⟩

/-- **A settings file is laxer than the channel.**  A fault that starts at two and a half hits is
loaded from a file as one that starts at the third hit, and found sound; no object with the same
members is read. -/
theorem file_laxer_than_document :
    (∃ doc, fileSource (diskFiles "2.5") "faults.toml" = .ok doc ∧
      (∀ y ∈ doc, IsPlainKey y.1) ∧ Key.faults.lastIn doc = some (.list [brokenDisk.tree])) ∧
    load (diskFiles "2.5") diskVariables = .ok (diskSettings 3) ∧
    (diskSettings 3).check = .ok () ∧
    ∀ (J : List Glyph) (members : List (Option String × Doc)), ObjectText J members →
      members.Perm (memberDocs brokenDisk.values) → ∀ r, Request.form.parse J ≠ .ok r := by
  refine ⟨exists_doc_of_scalars? _ _ _ (by decide +kernel) (by decide +kernel),
    by decide +kernel, by decide +kernel, fun J members hJ hperm r hparse => ?_⟩
  rw [Form.parse, parseWith_of_objectText hJ] at hparse
  have hkind := ((brokenDisk.ofDoc_iff hperm r).mp hparse).2
  exact absurd hkind (by decide +kernel)

end FaultPoints.Settings
