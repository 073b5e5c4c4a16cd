import FaultPoints.Control.Route
import Mathlib.Data.List.TakeWhile

/-!
# Paths of the control channel

Two sorts of paths lead somewhere: that of all points, and that of one of them.  Here they are
described as texts, in which one slash at the end and a query may follow and are ignored.  The
filters look at a path from left to right, a segment at a time; this file proves that they let
through exactly the paths described.

## Main Definitions

* `Http.Located` — a path, whatever is ignored behind it
* `Http.AtResource`, `Http.AtPoint` — the path of all points and that of one point
* `Http.onResource`, `Http.onPoint` — the filters that look for them

## Main Statements

* `onResource_of_atResource`, `onResource_of_not` — the filter for all points
* `onPoint_of_atPoint`, `onPoint_of_not` — the filter for one point
-/

namespace FaultPoints.Control.Http

/-- A query or a fragment, if anything. -/
def IsQuery (cs : List Char) : Prop := ∀ c ∈ cs.head?, c = '?' ∨ c = '#'

/-- A path leads to a target: one slash may follow, and a query. -/
def Located (path : String) (target : List Char) : Prop :=
  ∃ slash query, path.toList = target ++ slash ++ query ∧ (slash = [] ∨ slash = ['/']) ∧
    IsQuery query

/-- The path of all points. -/
def AtResource (path : String) : Prop := Located path "/inject_fault".toList

/-- A segment of a path that is not empty. -/
structure IsSegment (name : String) : Prop where
  /-- It has a character. -/
  nonempty : name ≠ ""
  /-- No character ends it. -/
  characters : ∀ c ∈ name.toList, c ≠ '/' ∧ c ≠ '?' ∧ c ≠ '#'

/-- The path of a point. -/
def AtPoint (path name : String) : Prop :=
  IsSegment name ∧ Located path ("/inject_fault/".toList ++ name.toList)

/-! ## Paths without what is ignored -/

/-- Whether a character belongs to a path and not to a query. -/
def inPath (c : Char) : Bool := c ≠ '?' && c ≠ '#'

theorem takeWhile_inPath {front query : List Char} (hfront : ∀ c ∈ front, inPath c = true)
    (hquery : IsQuery query) : (front ++ query).takeWhile inPath = front := by
  have hnil : query.takeWhile inPath = [] := by
    cases query with
    | nil => rfl
    | cons c rest =>
        have hc : inPath c = false := by
          rcases hquery c rfl with rfl | rfl <;> decide
        rw [List.takeWhile_cons, hc]
        rfl
  rw [List.takeWhile_append_of_pos hfront, hnil, List.append_nil]

theorem isQuery_dropWhile (cs : List Char) : IsQuery (cs.dropWhile inPath) := by
  intro c hc
  have hfalse := List.head?_dropWhile_not inPath cs
  rw [Option.mem_def.mp hc] at hfalse
  simpa [inPath, or_iff_not_imp_left] using hfalse

/-- A path leads to a target iff the target, or it with a slash, is what stands before the
query. -/
theorem located_iff {path : String} {target : List Char} (h : ∀ c ∈ target, inPath c = true) :
    Located path target ↔
      path.toList.takeWhile inPath = target ∨ path.toList.takeWhile inPath = target ++ ['/'] := by
  constructor
  · rintro ⟨slash, query, hpath, hslash, hquery⟩
    have hfront : ∀ c ∈ target ++ slash, inPath c = true := by
      intro c hc
      rcases List.mem_append.mp hc with hc | hc
      · exact h c hc
      · rcases hslash with rfl | rfl
        · cases hc
        · rw [List.mem_singleton.mp hc]
          rfl
    rw [hpath, takeWhile_inPath hfront hquery]
    rcases hslash with rfl | rfl
    · exact Or.inl (List.append_nil target)
    · exact Or.inr rfl
  · intro hstrip
    have hsplit := List.takeWhile_append_dropWhile (p := inPath) (l := path.toList)
    have hquery := isQuery_dropWhile path.toList
    rcases hstrip with hstrip | hstrip
    · exact ⟨[], _, by rw [List.append_nil, ← hstrip, hsplit], Or.inl rfl, hquery⟩
    · exact ⟨['/'], _, by rw [← hstrip, hsplit], Or.inr rfl, hquery⟩

theorem unmatched_eq (r : Request) :
    r.unmatched = match r.path.toList.takeWhile inPath with
      | '/' :: cs => cs
      | _ => [] := rfl

/-- What the filters see of a path that leads to a target. -/
theorem located_iff_unmatched (r : Request) {target : List Char} (hne : target ≠ [])
    (h : ∀ c ∈ target, inPath c = true) :
    Located r.path ('/' :: target) ↔ r.unmatched = target ∨ r.unmatched = target ++ ['/'] := by
  have hall : ∀ c ∈ '/' :: target, inPath c = true := by
    intro c hc
    rcases List.mem_cons.mp hc with rfl | hc
    · rfl
    · exact h c hc
  rw [located_iff hall, unmatched_eq]
  split
  · rename_i cs hstrip
    rw [hstrip]
    simp
  · rename_i hstrip
    constructor
    · rintro (heq | heq)
      · exact absurd heq (hstrip target)
      · exact absurd heq (hstrip (target ++ ['/']))
    · rintro (heq | heq)
      · exact absurd heq.symm hne
      · simp at heq

/-- What the filters see of a path has no query in it. -/
theorem inPath_of_mem_unmatched {r : Request} {c : Char} (h : c ∈ r.unmatched) :
    inPath c = true := by
  rw [unmatched_eq] at h
  split at h
  · rename_i cs hstrip
    have hmem : c ∈ r.path.toList.takeWhile inPath := by
      rw [hstrip]
      exact List.mem_cons_of_mem _ h
    exact List.mem_takeWhile_imp hmem
  · cases h

/-! ## Segments -/

/-- A path up to its next slash: either the whole of it, or what stands before the slash. -/
theorem segment_eq_iff (cs front rest : List Char) :
    segment cs = (front, rest) ↔
      '/' ∉ front ∧ (cs = front ∧ rest = [] ∨ cs = front ++ '/' :: rest) := by
  have hmem : ∀ {front : List Char}, '/' ∉ front ↔ ∀ c ∈ front, (decide (c ≠ '/')) = true := by
    intro front
    constructor
    · intro h c hc
      simpa using fun heq : c = '/' => h (heq ▸ hc)
    · intro h hslash
      simpa using h _ hslash
  rw [segment, Prod.mk.injEq]
  constructor
  · rintro ⟨rfl, rfl⟩
    refine ⟨hmem.mpr fun c hc => List.mem_takeWhile_imp (p := fun c => decide (c ≠ '/')) hc, ?_⟩
    have hsplit := List.takeWhile_append_dropWhile (p := fun c => decide (c ≠ '/')) (l := cs)
    have hhead := List.head?_dropWhile_not (fun c => decide (c ≠ '/')) cs
    cases hdrop : cs.dropWhile fun c => decide (c ≠ '/') with
    | nil =>
        rw [hdrop, List.append_nil] at hsplit
        exact Or.inl ⟨hsplit.symm, rfl⟩
    | cons c rest =>
        rw [hdrop] at hsplit hhead
        obtain rfl : c = '/' := by simpa using hhead
        exact Or.inr hsplit.symm
  · rintro ⟨hfront, ⟨rfl, rfl⟩ | rfl⟩
    · have hall := hmem.mp hfront
      rw [List.takeWhile_eq_self_iff.mpr hall, List.dropWhile_eq_nil_iff.mpr hall]
      exact ⟨rfl, rfl⟩
    · have hall := hmem.mp hfront
      rw [List.takeWhile_append_of_pos hall, List.dropWhile_append_of_pos hall]
      simp

/-! ## The filters -/

/-- Looking for all points. -/
def onResource : Filter Unit := do
  segmentIs resource
  atEnd

/-- Looking for one point. -/
def onPoint : Filter String := do
  segmentIs resource
  let name ← parameter
  atEnd
  pure name

theorem bind_apply {α β : Type} (f : Filter α) (g : α → Filter β) (r : Request)
    (path : List Char) : (f >>= g) r path = f r path >>= fun x => g x.1 r x.2 := rfl

theorem segmentIs_eq (name : String) (r : Request) (path : List Char) :
    segmentIs name r path =
      if (segment path).1 = name.toList then .ok ((), (segment path).2) else .error .notFound := by
  have hname : String.ofList (segment path).1 = name ↔ (segment path).1 = name.toList := by
    rw [← String.toList_inj, String.toList_ofList]
  exact if_congr hname rfl rfl

/-- The filter for all points ends a path behind the resource. -/
theorem onResource_eq (r : Request) (path : List Char) :
    onResource r path =
      if segment path = (resource.toList, []) then .ok ((), []) else .error .notFound := by
  rw [onResource, bind_apply, segmentIs_eq]
  rcases segment path with ⟨front, rest⟩
  by_cases hfront : front = resource.toList
  · subst hfront
    cases rest with
    | nil => rfl
    | cons c rest => simp [bind, Except.bind, atEnd]
  · simp [hfront, bind, Except.bind]

/-- The filter for one point ends a path behind a segment that stands behind the resource. -/
theorem onPoint_eq (r : Request) (path : List Char) :
    onPoint r path =
      if (segment path).1 = resource.toList ∧ (segment (segment path).2).1 ≠ [] ∧
          (segment (segment path).2).2 = [] then
        .ok (String.ofList (segment (segment path).2).1, [])
      else .error .notFound := by
  rw [onPoint, bind_apply, segmentIs_eq]
  by_cases hfront : (segment path).1 = resource.toList
  · have hbehind : (parameter >>= fun name => do atEnd; pure name) r (segment path).2 =
        parameter r (segment path).2 >>= fun x => atEnd r x.2 >>= fun y => .ok (x.1, y.2) := rfl
    rw [if_pos hfront]
    change (parameter >>= fun name => do atEnd; pure name) r (segment path).2 = _
    rw [hbehind, parameter]
    rcases segment (segment path).2 with ⟨next, rest⟩
    cases next with
    | nil => simp [bind, Except.bind]
    | cons c next =>
        cases rest with
        | nil => simp [hfront, bind, Except.bind, atEnd]
        | cons d rest => simp [bind, Except.bind, atEnd]
  · simp [hfront, bind, Except.bind]

/-! ## What the filters let through -/

theorem inPath_of_mem_resource : ∀ c ∈ resource.toList, inPath c = true :=
  List.all_eq_true.mp rfl

theorem slash_not_mem_resource : '/' ∉ resource.toList := by decide

theorem inPath_iff (c : Char) : inPath c = true ↔ c ≠ '?' ∧ c ≠ '#' := by
  simp [inPath]

/-- A path is that of all points iff its only segment is the resource. -/
theorem atResource_iff (r : Request) :
    AtResource r.path ↔ segment r.unmatched = (resource.toList, []) := by
  have htarget : "/inject_fault".toList = '/' :: resource.toList := by decide
  rw [AtResource, htarget, located_iff_unmatched r (by decide) inPath_of_mem_resource,
    segment_eq_iff]
  constructor
  · rintro (h | h)
    · exact ⟨slash_not_mem_resource, Or.inl ⟨h, rfl⟩⟩
    · exact ⟨slash_not_mem_resource, Or.inr h⟩
  · rintro ⟨-, ⟨h, -⟩ | h⟩
    · exact Or.inl h
    · exact Or.inr h

/-- A segment behind the resource holds no character that ends it. -/
theorem inPath_of_mem_point {name : String} (h : IsSegment name) :
    ∀ c ∈ resource.toList ++ '/' :: name.toList, inPath c = true := by
  intro c hc
  rcases List.mem_append.mp hc with hc | hc
  · exact inPath_of_mem_resource c hc
  rcases List.mem_cons.mp hc with rfl | hc
  · rfl
  · exact (inPath_iff c).mpr (h.characters c hc).2

/-- A path is that of a point iff its only segments are the resource and the point. -/
theorem atPoint_iff (r : Request) (name : String) :
    AtPoint r.path name ↔
      (segment r.unmatched).1 = resource.toList ∧ name ≠ "" ∧
        segment (segment r.unmatched).2 = (name.toList, []) := by
  have htarget : "/inject_fault/".toList ++ name.toList =
      '/' :: (resource.toList ++ '/' :: name.toList) := by
    have htext : "/inject_fault/".toList = '/' :: resource.toList ++ ['/'] := by decide
    simp [htext]
  have hne : resource.toList ++ '/' :: name.toList ≠ [] := by simp
  rw [AtPoint, htarget]
  constructor
  · rintro ⟨hsegment, hlocated⟩
    have hslash : '/' ∉ name.toList := fun h => (hsegment.characters _ h).1 rfl
    have hseg : ∀ rest, r.unmatched = resource.toList ++ '/' :: rest →
        (segment r.unmatched) = (resource.toList, rest) := fun rest h =>
      (segment_eq_iff _ _ _).mpr ⟨slash_not_mem_resource, Or.inr h⟩
    rcases (located_iff_unmatched r hne (inPath_of_mem_point hsegment)).mp hlocated with h | h
    · rw [hseg _ h]
      exact ⟨rfl, hsegment.nonempty, (segment_eq_iff _ _ _).mpr ⟨hslash, Or.inl ⟨rfl, rfl⟩⟩⟩
    · rw [hseg (name.toList ++ ['/']) (by rw [h]; simp)]
      exact ⟨rfl, hsegment.nonempty, (segment_eq_iff _ _ _).mpr ⟨hslash, Or.inr rfl⟩⟩
  · rintro ⟨hresource, hname, hpoint⟩
    obtain ⟨hslash, hrest⟩ := (segment_eq_iff _ _ _).mp hpoint
    -- An unmatched path that ends behind the resource has no second segment.
    have hunmatched : r.unmatched = resource.toList ++ '/' :: (segment r.unmatched).2 := by
      obtain ⟨-, ⟨-, hnil⟩ | h⟩ := (segment_eq_iff r.unmatched resource.toList
        (segment r.unmatched).2).mp (Prod.ext hresource rfl)
      · rw [hnil] at hrest
        have hempty : name.toList = [] := by simpa using hrest
        exact absurd (String.toList_eq_nil_iff.mp hempty) hname
      · exact h
    have hsegment : IsSegment name := by
      refine ⟨hname, fun c hc => ⟨fun h => hslash (h ▸ hc), (inPath_iff c).mp ?_⟩⟩
      apply inPath_of_mem_unmatched (r := r)
      rw [hunmatched]
      rcases hrest with ⟨h, -⟩ | h <;> simp [h, hc]
    refine ⟨hsegment, (located_iff_unmatched r hne (inPath_of_mem_point hsegment)).mpr ?_⟩
    rcases hrest with ⟨h, -⟩ | h
    · exact Or.inl (by rw [hunmatched, h])
    · exact Or.inr (by rw [hunmatched, h]; simp)

/-- The path of all points is not that of one of them. -/
theorem not_atPoint_of_atResource {r : Request} (h : AtResource r.path) (name : String) :
    ¬ AtPoint r.path name := by
  intro hpoint
  obtain ⟨-, hname, hsegment⟩ := (atPoint_iff r name).mp hpoint
  rw [(atResource_iff r).mp h] at hsegment
  have hempty : [] = name.toList := congrArg Prod.fst hsegment
  exact hname (String.toList_eq_nil_iff.mp hempty.symm)

theorem onResource_of_atResource {r : Request} (h : AtResource r.path) :
    onResource r r.unmatched = .ok ((), []) := by
  rw [onResource_eq, if_pos ((atResource_iff r).mp h)]

theorem onResource_of_not {r : Request} (h : ¬ AtResource r.path) :
    onResource r r.unmatched = .error .notFound := by
  rw [onResource_eq, if_neg fun hseg => h ((atResource_iff r).mpr hseg)]

theorem onPoint_of_atPoint {r : Request} {name : String} (h : AtPoint r.path name) :
    onPoint r r.unmatched = .ok (name, []) := by
  obtain ⟨hresource, hname, hsegment⟩ := (atPoint_iff r name).mp h
  have hne : name.toList ≠ [] := fun hnil => hname (String.toList_eq_nil_iff.mp hnil)
  rw [onPoint_eq, hsegment, if_pos ⟨hresource, hne, rfl⟩, String.ofList_toList]

theorem onPoint_of_not {r : Request} (h : ∀ name, ¬ AtPoint r.path name) :
    onPoint r r.unmatched = .error .notFound := by
  rw [onPoint_eq, if_neg]
  rintro ⟨hresource, hne, hrest⟩
  refine h (String.ofList (segment (segment r.unmatched).2).1) ((atPoint_iff r _).mpr
    ⟨hresource, fun hempty => hne ?_, ?_⟩)
  · rw [← String.toList_ofList (l := (segment (segment r.unmatched).2).1), hempty]
    rfl
  · rw [String.toList_ofList, ← hrest]

end FaultPoints.Control.Http
