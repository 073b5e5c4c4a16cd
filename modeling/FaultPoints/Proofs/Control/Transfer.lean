import FaultPoints.Proofs.Control.RoundTrip
import FaultPoints.Proofs.Fault.Rearming
import FaultPoints.Proofs.Run.Observers
import FaultPoints.Proofs.Text.Utf8

/-!
# Carrying the armed points over to another controller

The body that lists the armed points is a sequence, and each of its elements can be posted as it
is to another controller, where it arms the point in the same way.  What a listing says beyond a
request is passed over.  The order of the posts does not matter, and posting everything again
changes nothing.

Three things can be in the way.  A body has a bound on its length, which an element exceeds if the
name of its point has more than sixteen thousand characters.  A post is checked, so that a point
whose plan was put in force as it is, and would not have passed the checks, does not come through.
And the seconds of a sleeping point are a rounded number, which may stand for another duration than
the one that was rounded.

## Main Definitions

* `Short` — the texts that a body may have
* `Carried` — the points that come through
* `Posts` — a request that posts a text as it is
* `serve` — the replies to requests one after another
* `Descriptor.Survives` — a sleeping time that is found again from its seconds

## Main Statements

* `describes_request_iff` — a point is armed as it is by its own request, if its plan is sound
* `respond_post`, `serve_texts` — what becomes of a post of an element, and of posts one by one
* `export_import` — what becomes of all elements
* `element_too_long` — an element that does not come through
-/

namespace FaultPoints.Fault

/-- The sleeping time of an armed point, if it has one, is found again from its number of
seconds. -/
def Descriptor.Survives (d : Descriptor) : Prop :=
  ∀ t, d.plan.effect.duration? = some t → Duration.ofSeconds? t.toSeconds = some t

instance (d : Descriptor) : Decidable d.Survives :=
  inferInstanceAs (Decidable (∀ t ∈ d.plan.effect.duration?, _))

/-- The element of an armed point in the text of a listing. -/
def Descriptor.text (d : Descriptor) : String := d.point.toValue.render

/-- The elements of the text of a listing. -/
def Registry.elements (r : Registry) : List String := r.listing.map fun e => e.toValue.render

/-- The request to arm a point as it is armed. -/
def Descriptor.request (d : Descriptor) : Request :=
  ⟨d.name, d.plan.effect.tag, some d.plan.window.start, d.plan.window.stop,
    d.plan.effect.duration?.map Duration.toSeconds⟩

/-- A sleeping time that is found again is the one for which the request lasts. -/
theorem lasts_request {d : Descriptor} (hsurvives : d.Survives) :
    d.request.Lasts d.plan.effect.duration? := by
  cases hduration : d.plan.effect.duration? with
  | none => simp [Request.Lasts, Descriptor.request, hduration]
  | some t =>
      refine ⟨t.toSeconds, by simp [Descriptor.request, hduration], ?_⟩
      exact (Duration.ofSeconds?_eq_some_iff _ _).mp (hsurvives t hduration)

/-- **A point is armed as it is by its own request**, if the checks let its plan through, and not
at all otherwise. -/
theorem describes_request_iff {d : Descriptor} (hsurvives : d.Survives) (plan : Plan) :
    d.request.Describes plan ↔ plan = d.plan ∧ d.plan.Sound := by
  constructor
  · intro h
    have heffect : plan.effect = d.plan.effect :=
      Effect.eq_of_tag_eq h.tag (h.lasts.unique (lasts_request hsurvives))
    have hplan : plan = d.plan := by
      cases plan
      exact congr (congrArg Plan.mk heffect) h.window
    exact ⟨hplan, hplan ▸ h.sound⟩
  · rintro ⟨rfl, hsound⟩
    exact ⟨rfl, lasts_request hsurvives, rfl, hsound⟩

end FaultPoints.Fault

namespace FaultPoints.Control.Http

open FaultPoints.Fault (Host Registry Descriptor)
open FaultPoints.Run (bytes Reachable)
open FaultPoints.Json

/-! ## Posts -/

/-- A text that is no longer than a body may be. -/
def Short (text : String) : Prop := (bytes text).length ≤ 16384

instance (text : String) : Decidable (Short text) := inferInstanceAs (Decidable (_ ≤ _))

/-- The element of a point comes through: its text fits into a body, and its plan passes the
checks. -/
def Carried (d : Descriptor) : Prop := Short d.text ∧ d.plan.Sound

instance (d : Descriptor) : Decidable (Carried d) := inferInstanceAs (Decidable (_ ∧ _))

/-- The status code with which the post of an element is answered. -/
def postStatus (d : Descriptor) : Nat :=
  if Short d.text then if d.plan.Sound then 200 else 400 else 413

/-- A request that posts a text as it is. -/
structure Posts (q : Request) (text : String) : Prop where
  /-- It is meant to arm a point. -/
  posted : Posted q
  /-- It declares the length of the text. -/
  length : DeclaresLength q (bytes text).length
  /-- It does not declare the text to be anything else than a document. -/
  document : DeclaresDocument q
  /-- Its body is the text. -/
  body : q.body = bytes text

/-- A text can be posted by a request that declares its length. -/
theorem posts_declared {text : String} (h : (bytes text).length < Text.wordLimit) :
    Posts (.declared "POST" "/inject_fault" [] (some (bytes text))) text := by
  have hlower : "content-length".toLower = "content-length" := by decide +kernel
  have hheader : ∀ name, Request.header
      (.declared "POST" "/inject_fault" [] (some (bytes text))) name =
        if "content-length" = name then [Text.natural (bytes text).length] else [] := by
    intro name
    simp only [Request.declared, Request.header, Option.getD_some, List.filter_nil, List.map_nil,
      List.isEmpty_nil, if_true, List.filter_cons, hlower, beq_iff_eq]
    split <;> rfl
  have hpath : AtResource (Request.declared "POST" "/inject_fault" [] (some (bytes text))).path :=
    ⟨[], [], by simp [Request.declared, Request.header], .inl rfl, by simp [IsQuery]⟩
  refine ⟨⟨hpath, rfl⟩, ?_, ?_, rfl⟩
  · rw [DeclaresLength, hheader, if_pos rfl]
    refine ⟨List.cons_ne_nil _ _, fun v hv => ?_⟩
    rw [List.mem_singleton.mp hv, Text.natural, String.toList_ofList, Text.readUnsigned_digits h]
  · rw [DeclaresDocument, hheader, if_neg (by decide)]
    simp

/-- The replies to requests one after another, and the host after the last. -/
def serve (w : Wording) (id : Nat) : Host → List Request → List Reply × Host
  | p, [] => ([], p)
  | p, q :: qs =>
    let (replies, final) := serve w id (respond w p id q).2 qs
    ((respond w p id q).1 :: replies, final)

/-- The text of an armed point is read as the request to arm it as it is. -/
theorem parse_text (d : Descriptor) :
    Fault.Request.form.parse (Text.glyphs d.text) = .ok d.request :=
  parse_written Fault.agrees_request
    (Fault.legible_point fun x hx => by
      obtain ⟨t, -, rfl⟩ := Option.map_eq_some_iff.mp hx
      exact Duration.isFinite_toSeconds t)
    (Fault.ofValue_request_point d.point)

/-- A post of a short element is the command to arm its point as it is. -/
theorem respond_short {d : Descriptor} {q : Request} (hposts : Posts q d.text)
    (hshort : Short d.text) (w : Wording) (p : Host) (id : Nat) :
    respond w p id q = perform p id (.inject d.request) := by
  have hbody : Fault.Request.form.parse (Text.decode q.body) = .ok d.request := by
    rw [hposts.body, bytes, Text.decode_utf8, parse_text]
  have hasks : Asks q (.inject d.request) :=
    .inject hposts.posted hposts.length hshort hposts.document hbody
  rw [respond, firstOf_of_asks hasks]

/-- A post of a long text is refused without being read. -/
theorem respond_long {text : String} {q : Request} (hposts : Posts q text) (hlong : ¬ Short text)
    (w : Wording) (p : Host) (id : Nat) :
    (respond w p id q).1.status = 413 ∧ (respond w p id q).2 = p := by
  have hdeclined : Declined q 413 := .tooLarge hposts.posted hposts.length (not_le.mp hlong)
  obtain ⟨rejections, hfirst, hdeclines⟩ := declines_recover w hdeclined
  rw [respond, hfirst]
  exact ⟨hdeclines.status, rfl⟩

/-- The command to arm a point as it is succeeds iff the checks let its plan through. -/
theorem apply_request_eq_ok_iff {d : Descriptor} (hname : Fault.IsName d.name)
    (hsurvives : d.Survives) (p q : Host) (id : Nat) :
    p.apply id d.request = .ok q ↔ d.plan.Sound ∧ q = p.armed id d.name d.plan := by
  rw [Host.apply_eq_ok_iff]
  constructor
  · rintro ⟨-, plan, hplan, rfl⟩
    obtain ⟨rfl, hsound⟩ := (Fault.describes_request_iff hsurvives plan).mp hplan
    exact ⟨hsound, rfl⟩
  · rintro ⟨hsound, rfl⟩
    exact ⟨hname, d.plan, (Fault.describes_request_iff hsurvives _).mpr ⟨rfl, hsound⟩, rfl⟩

/-- **A post of an element** arms its point if the element comes through, and changes nothing
otherwise. -/
theorem respond_post {d : Descriptor} (hname : Fault.IsName d.name) (hsurvives : d.Survives)
    {q : Request} (hposts : Posts q d.text) (w : Wording) (p : Host) (id : Nat) :
    (respond w p id q).1.status = postStatus d ∧
      (respond w p id q).2 = if Carried d then p.armed id d.name d.plan else p := by
  by_cases hshort : Short d.text
  · rw [respond_short hposts hshort, postStatus, if_pos hshort]
    have hiff := fun q => apply_request_eq_ok_iff hname hsurvives p q id
    by_cases hsound : d.plan.Sound
    · have happly := (hiff _).mpr ⟨hsound, rfl⟩
      rw [if_pos hsound, if_pos ⟨hshort, hsound⟩]
      simp only [perform, handle, happly]
      exact ⟨rfl, trivial⟩
    · rw [if_neg hsound, if_neg fun hcarried => hsound hcarried.2]
      cases happly : p.apply id d.request with
      | ok q => exact absurd ((hiff q).mp happly).1 hsound
      | error e =>
          simp only [perform, handle, happly]
          exact ⟨rfl, trivial⟩
  · obtain ⟨hstatus, hhost⟩ := respond_long hposts hshort w p id
    rw [hstatus, hhost, postStatus, if_neg hshort, if_neg fun hcarried => hshort hcarried.1]
    exact ⟨rfl, rfl⟩

/-! ## All elements -/

/-- **Posting elements one after another** arms the points of those that come through. -/
theorem serve_texts {w : Wording} {id : Nat} {ds : List Descriptor}
    (hname : ∀ d ∈ ds, Fault.IsName d.name) (hsurvives : ∀ d ∈ ds, d.Survives) {qs : List Request}
    (hposts : List.Forall₂ Posts qs (ds.map Descriptor.text)) (p : Host) :
    List.Forall₂ (fun d reply => reply.status = postStatus d) ds (serve w id p qs).1 ∧
      (serve w id p qs).2 = p.rearmed id (ds.filter Carried) := by
  induction ds generalizing p qs with
  | nil =>
      cases hposts
      exact ⟨.nil, rfl⟩
  | cons d ds ih =>
      obtain ⟨hd, hname⟩ := List.forall_mem_cons.mp hname
      obtain ⟨hsurvive, hsurvives⟩ := List.forall_mem_cons.mp hsurvives
      rw [List.map_cons] at hposts
      obtain ⟨q, rest, hpost, hrest, rfl⟩ := List.forall₂_cons_right_iff.mp hposts
      obtain ⟨hstatus, hhost⟩ := respond_post hd hsurvive hpost w p id
      obtain ⟨hreplies, hfinal⟩ := ih hname hsurvives hrest (respond w p id q).2
      refine ⟨.cons hstatus hreplies, hfinal.trans ?_⟩
      by_cases hcarried : Carried d
      · rw [hhost, if_pos hcarried, List.filter_cons_of_pos (by simpa using hcarried)]
        rfl
      · rw [hhost, if_neg hcarried, List.filter_cons_of_neg (by simpa using hcarried)]

/-! ## The listing -/

theorem itemChars_eq_intercalate (vs : List Value) :
    itemChars vs = [','].intercalate (vs.map Value.chars) := by
  induction vs with
  | nil => rfl
  | cons v vs ih =>
      cases vs with
      | nil => simp [itemChars]
      | cons w vs =>
          rw [itemChars_cons, ih]
          simp [List.intercalate]

/-- The text of a sequence is that of its elements with commas between them. -/
theorem render_array (vs : List Value) :
    (Value.array vs).render = "[" ++ ",".intercalate (vs.map Value.render) ++ "]" := by
  rw [← String.toList_inj]
  simp [Value.render, Value.chars, itemChars_eq_intercalate, Function.comp_def]

/-- The reply that lists the armed points consists of their elements. -/
theorem respond_listing {r : Request} (hpath : AtResource r.path) (hmethod : r.method = "GET")
    (w : Wording) (p : Host) (id : Nat) : (respond w p id r).1 =
      ⟨200, "application/json", "[" ++ ",".intercalate (p.registry id).elements ++ "]"⟩ := by
  have hrender := render_array ((p.registry id).listing.map Fault.Point.toValue)
  rw [List.map_map] at hrender
  rw [respond, firstOf_of_asks (.describe hpath hmethod)]
  exact congrArg _ hrender

variable {direct : List Fault.Plan}

/-- The descriptors of a registry, in the order of its listing. -/
def descriptors (r : Registry) : List Descriptor := r.points.entries.map (·.2)

theorem elements_eq (r : Registry) : r.elements = (descriptors r).map Descriptor.text := by
  simp only [Registry.elements, Registry.listing, descriptors, List.map_map]
  rfl

theorem mem_descriptors_iff {p : Host} {id : Nat} (h : (p.registry id).Valid direct)
    (d : Descriptor) :
    d ∈ descriptors (p.registry id) ↔ p.entry id d.name = some d := by
  constructor
  · intro hd
    obtain ⟨⟨k, d⟩, hmem, rfl⟩ := List.mem_map.mp hd
    have hname : d.name = k := Run.name_eq_of_mem h hmem
    rw [hname]
    exact (Catalog.mem_entries_iff h.ordered k d).mp hmem
  · intro hentry
    exact List.mem_map.mpr ⟨(d.name, d), Catalog.mem_entries_of_find? hentry, rfl⟩

theorem nodup_descriptors {r : Registry} (h : r.Valid direct) :
    ((descriptors r).map (·.name)).Nodup := by
  have hnames : (descriptors r).map (·.name) = r.listing.map (·.name) := by
    simp only [descriptors, Registry.listing, List.map_map]
    rfl
  rw [hnames]
  exact List.Pairwise.map _ (fun _ _ => ne_of_lt) (Run.pairwise_name_listing h)

/-! ## The length of an element -/

/-- The characters of names are written as they are. -/
theorem escaped_of_isNameCharacter {c : Char} (h : Fault.IsNameCharacter c) : escaped c = [c] := by
  have hname := (Fault.isNameCharacter_iff c).mpr h
  have hne : ∀ {d : Char}, Fault.isNameCharacter d = false → c ≠ d := by
    rintro d hd rfl
    rw [hname] at hd
    cases hd
  have hcontrol : ¬ c.toNat < 0x20 := fun hlt => by
    have hall : ∀ n : Fin 32, Fault.isNameCharacter (Char.ofNat n.val) = false := by
      decide +kernel
    exact hne (hall ⟨c.toNat, hlt⟩) (Char.ofNat_toNat c).symm
  have hquote : ¬ (c = '"' || c = '\\') = true := by
    simp [hne (by decide : Fault.isNameCharacter '"' = false),
      hne (by decide : Fault.isNameCharacter '\\' = false)]
  rw [escaped, if_neg hquote, if_neg (hne (by decide)), if_neg (hne (by decide)),
    if_neg (hne (by decide)), if_neg (hne (by decide)), if_neg (hne (by decide)), if_neg hcontrol]

theorem length_bytes {s : String} (h : ∀ c ∈ s.toList, c.toNat < 128) :
    (bytes s).length = s.toList.length := by
  rw [Run.bytes_eq_map h, List.length_map]

/-- The members behind the name in the element of a marker that is always in force and was never
hit. -/
def markerMembers : List (String × Value) :=
  [("fault_type", .text "marker"), ("start_from", .count 1), ("end_after", .null),
    ("sleep_time", .null), ("hits", .count 0), ("expired", .boolean false)]

/-- The text of a marker that is always in force and was never hit. -/
theorem text_marker {name : String} (h : Fault.IsName name) :
    (Descriptor.text ⟨name, ⟨.marker, .all⟩, 0⟩).toList =
      ('\x7b' :: textChars "fault_name" ++ [':', '"']) ++ name.toList ++
        ('"' :: ',' :: memberChars markerMembers ++ ['\x7d']) := by
  have hname : textChars name = '"' :: name.toList ++ ['"'] := by
    rw [textChars, List.flatMap_congr fun c hc => escaped_of_isNameCharacter (h.characters c hc)]
    simp
  have hmembers : memberChars (("fault_name", .text name) :: markerMembers) =
      textChars "fault_name" ++ ':' :: textChars name ++ ',' :: memberChars markerMembers := rfl
  rw [Descriptor.text, Value.render, String.toList_ofList]
  change '\x7b' :: memberChars (("fault_name", .text name) :: markerMembers) ++ ['\x7d'] = _
  rw [hmembers, hname]
  simp only [List.cons_append, List.append_assoc, List.nil_append]

theorem length_bytes_text_marker {name : String} (h : Fault.IsName name) :
    (bytes (Descriptor.text ⟨name, ⟨.marker, .all⟩, 0⟩)).length = name.toList.length + 114 := by
  have hfront : ('\x7b' :: textChars "fault_name" ++ [':', '"']).length = 15 ∧
      ('\x7b' :: textChars "fault_name" ++ [':', '"']).all (·.toNat < 128) = true := by
    decide +kernel
  have hback : ('"' :: ',' :: memberChars markerMembers ++ ['\x7d']).length = 99 ∧
      ('"' :: ',' :: memberChars markerMembers ++ ['\x7d']).all (·.toNat < 128) = true := by
    decide +kernel
  have hascii : ∀ c ∈ (Descriptor.text ⟨name, ⟨.marker, .all⟩, 0⟩).toList, c.toNat < 128 := by
    intro c hc
    rw [text_marker h, List.mem_append, List.mem_append] at hc
    rcases hc with (hc | hc) | hc
    · exact of_decide_eq_true (List.all_eq_true.mp hfront.2 c hc)
    · exact Run.toNat_lt_of_isNameCharacter (h.characters c hc)
    · exact of_decide_eq_true (List.all_eq_true.mp hback.2 c hc)
  rw [length_bytes hascii, text_marker h, List.length_append, List.length_append, hfront.1,
    hback.1]
  omega

theorem final_arm_marker {name : String} (h : Fault.IsName name) (p : Host) (id : Nat) :
    Run.final p [.arm id name .marker ⟨none, none, none⟩] = p.armed id name ⟨.marker, .all⟩ := by
  have harm := (Host.arm_eq_ok_iff p (p.armed id name ⟨.marker, .all⟩) id name .marker
    ⟨none, none, none⟩).mpr ⟨h, _, rfl, rfl⟩
  simp only [Run.final, Run.perform, harm, Run.commit]

/-! ## Export and import -/

/-- What becomes of a descriptor whose element has been posted. -/
def imported (d : Descriptor) : Option Descriptor :=
  if Carried d then some { d with hits := 0 } else none

theorem entry_rearmed_carried {p p' : Host} {id id' : Nat} (hvalid : (p.registry id).Valid direct)
    (hempty : p'.registry id' = .empty) {ds : List Descriptor}
    (hperm : ds.Perm (descriptors (p.registry id))) (name : String) :
    (p'.rearmed id' (ds.filter Carried)).entry id' name = (p.entry id name).bind imported := by
  have hnodup : ((ds.filter Carried).map (·.name)).Nodup :=
    (((hperm.map _).nodup_iff).mpr (nodup_descriptors hvalid)).sublist
      (List.filter_sublist.map _)
  have hmem : ∀ d, d ∈ ds.filter Carried ↔ p.entry id d.name = some d ∧ Carried d := fun d => by
    rw [List.mem_filter, hperm.mem_iff, mem_descriptors_iff hvalid, decide_eq_true_iff]
  by_cases hname : name ∈ (ds.filter Carried).map (·.name)
  · obtain ⟨d, hd, rfl⟩ := List.mem_map.mp hname
    obtain ⟨hentry, hcarried⟩ := (hmem d).mp hd
    rw [Host.entry_rearmed_of_mem hnodup hd, hentry, Option.bind_some, imported, if_pos hcarried]
  · rw [Host.entry_rearmed_of_not_mem hname]
    have hnone : p'.entry id' name = none := by
      rw [Host.entry, hempty]
      rfl
    cases hentry : p.entry id name with
    | none => exact hnone
    | some d =>
        -- The point is armed, so that its element must have been held back.
        have hdname : d.name = name := (hvalid.fits name d hentry).name_eq
        have hheld : ¬ Carried d := fun hcarried => by
          refine hname (List.mem_map.mpr ⟨d, (hmem d).mpr ⟨?_, hcarried⟩, hdname⟩)
          rw [hdname]
          exact hentry
        rw [hnone, Option.bind_some, imported, if_neg hheld]

/-- Posting the elements of a listing in any order arms their points in an order of theirs. -/
theorem exists_serve_eq {p : Host} {id : Nat} (hvalid : (p.registry id).Valid direct)
    (hsurvives : ∀ name d, p.entry id name = some d → d.Survives) {texts : List String}
    {qs : List Request} (hperm : texts.Perm (p.registry id).elements)
    (hposts : List.Forall₂ Posts qs texts) (w : Wording) (q : Host) (id' : Nat) :
    ∃ ds : List Descriptor, ds.Perm (descriptors (p.registry id)) ∧
      texts = ds.map Descriptor.text ∧
      List.Forall₂ (fun d reply => reply.status = postStatus d) ds (serve w id' q qs).1 ∧
      (serve w id' q qs).2 = q.rearmed id' (ds.filter Carried) := by
  -- Equal texts need not be told apart: some order of the descriptors gives this one of the texts.
  obtain ⟨ds, rfl, hds⟩ : Relation.Comp (· = List.map Descriptor.text ·) List.Perm texts
      (descriptors (p.registry id)) := by
    rw [List.eq_map_comp_perm]
    rwa [elements_eq] at hperm
  have hentry : ∀ d ∈ ds, p.entry id d.name = some d := fun d hd =>
    (mem_descriptors_iff hvalid d).mp (hds.mem_iff.mp hd)
  exact ⟨ds, hds, rfl, serve_texts (fun d hd => (hvalid.fits d.name d (hentry d hd)).isName)
    (fun d hd => hsurvives d.name d (hentry d hd)) hposts q⟩

/-- Arming the points again, in whatever order, changes nothing. -/
theorem alike_rearmed_carried {p p' : Host} {id id' : Nat} (hvalid : (p.registry id).Valid direct)
    (hempty : p'.registry id' = .empty) {ds ds' : List Descriptor}
    (hds : ds.Perm (descriptors (p.registry id))) (hds' : ds'.Perm ds) :
    ((p'.rearmed id' (ds.filter Carried)).rearmed id' (ds'.filter Carried)).Alike
      (p'.rearmed id' (ds.filter Carried)) := by
  refine Host.alike_rearmed ?_ (fun d hd => ?_) fun hne => ?_
  · refine Host.ordered_rearmed ?_ _
    rw [hempty]
    exact Catalog.ordered_empty
  · obtain ⟨hmem, hcarried⟩ := List.mem_filter.mp hd
    have hentry := (mem_descriptors_iff hvalid d).mp (hds.mem_iff.mp (hds'.mem_iff.mp hmem))
    rw [entry_rearmed_carried hvalid hempty hds, hentry, Option.bind_some, imported,
      if_pos (of_decide_eq_true hcarried)]
  · -- The gauge shows the second registry only if something has been armed in it.
    obtain ⟨d, rest, hcons⟩ := List.exists_cons_of_ne_nil fun hnil =>
      hne (List.Perm.eq_nil (hnil ▸ hds'.filter _))
    rw [hcons]
    exact Host.gauge_rearmed_cons p' id' d rest

/-- **Export and import.**  The elements of the listing of a reachable host whose sleeping times
survive can be posted in any order to a controller whose registry is empty.  Each of them is read
as the request of its point, whatever it says beyond.  That request describes the plan of the point
and no other, if the plan passes the checks, as it does unless it was put in force as it is.

The posts of the elements that come through arm the same points in the same way, with no hits.  The
others are refused, those that are too long for their length and the rest for their plans.  Doing
it again changes nothing. -/
theorem export_import {p p' : Host} {id id' : Nat} (hp : Reachable direct p)
    (hsurvives : ∀ name d, p.entry id name = some d → d.Survives)
    (hempty : p'.registry id' = .empty) (w : Wording) :
    (∀ r : Request, AtResource r.path → r.method = "GET" → (respond w p id r).1 =
      ⟨200, "application/json", "[" ++ ",".intercalate (p.registry id).elements ++ "]"⟩) ∧
    (∀ text ∈ (p.registry id).elements, ∃ d, p.entry id d.name = some d ∧ d.text = text ∧
      Fault.Request.form.parse (Text.glyphs text) = .ok d.request ∧
      (∀ plan, d.request.Describes plan ↔ plan = d.plan ∧ d.plan.Sound) ∧
      (d.plan.Sound ∨ d.plan ∈ direct)) ∧
    ∀ texts qs, texts.Perm (p.registry id).elements → List.Forall₂ Posts qs texts →
      List.Forall₂ (fun text reply => ∃ d, p.entry id d.name = some d ∧ d.text = text ∧
        reply.status = postStatus d) texts (serve w id' p' qs).1 ∧
      (∀ name, (serve w id' p' qs).2.entry id' name = (p.entry id name).bind imported) ∧
      ∀ texts' qs', texts'.Perm (p.registry id).elements → List.Forall₂ Posts qs' texts' →
        (serve w id' (serve w id' p' qs).2 qs').2.Alike (serve w id' p' qs).2 := by
  have hvalid := Run.valid_of_reachable hp id
  refine ⟨fun r hpath hmethod => respond_listing hpath hmethod w p id, fun text htext => ?_,
    fun texts qs hperm hposts => ?_⟩
  · rw [elements_eq] at htext
    obtain ⟨d, hd, rfl⟩ := List.mem_map.mp htext
    have hentry := (mem_descriptors_iff hvalid d).mp hd
    exact ⟨d, hentry, rfl, parse_text d,
      Fault.describes_request_iff (hsurvives d.name d hentry),
      (hvalid.fits d.name d hentry).plan⟩
  · obtain ⟨ds, hds, rfl, hreplies, hafter⟩ :=
      exists_serve_eq hvalid hsurvives hperm hposts w p' id'
    rw [hafter]
    refine ⟨?_, entry_rearmed_carried hvalid hempty hds, fun texts' qs' hperm' hposts' => ?_⟩
    · rw [List.forall₂_map_left_iff]
      have hentry : ∀ d ∈ ds, p.entry id d.name = some d := fun d hd =>
        (mem_descriptors_iff hvalid d).mp (hds.mem_iff.mp hd)
      exact ((List.forall₂_and_left _ _).mpr ⟨hentry, hreplies⟩).imp
        fun d reply h => ⟨d, h.1, rfl, h.2⟩
    · obtain ⟨ds', hds', -, -, hagain⟩ := exists_serve_eq hvalid hsurvives hperm' hposts' w
        (p'.rearmed id' (ds.filter Carried)) id'
      rw [hagain]
      exact alike_rearmed_carried hvalid hempty hds (hds'.trans hds.symm)

/-- A window that is open from the second hit to the fifth, one second and a half of sleep, and no
sleep at all under a plan that was put in force as it is, posted in the order opposite to that of
the listing.  The last of these is refused, and the hit that was counted is not carried over. -/
theorem export_import_of_three :
    let idle : Fault.Plan := ⟨.sleep ⟨0, by decide⟩, .all⟩
    let ops : List Run.Operation :=
      [.arm 0 "write" .exception ⟨some 2, some 5, none⟩,
        .arm 0 "read" .sleep ⟨none, none, some ⟨1500000000, by decide⟩⟩, .activate 0 "sync" idle,
        .strike .hit 0 "write"]
    let p := Run.final .start ops
    let texts := (p.registry 0).elements.reverse
    let qs := texts.map fun text => Request.declared "POST" "/inject_fault" [] (some (bytes text))
    Reachable [idle] p ∧ (∀ name d, p.entry 0 name = some d → d.Survives) ∧
      Host.start.registry 0 = .empty ∧ texts.Perm (p.registry 0).elements ∧
      List.Forall₂ Posts qs texts ∧
      (descriptors (p.registry 0)).map (fun d => (d.name, postStatus d)) =
        [("read", 200), ("sync", 400), ("write", 200)] ∧
      List.Forall₂ (fun text reply => ∃ d, p.entry 0 d.name = some d ∧ d.text = text ∧
        reply.status = postStatus d) texts (serve default 0 .start qs).1 ∧
      ∀ name, (serve default 0 .start qs).2.entry 0 name = (p.entry 0 name).bind imported := by
  intro idle ops p texts qs
  have hreachable : Reachable [idle] p := Run.reachable_final ops
  have hsurvives : ∀ name d, p.entry 0 name = some d → d.Survives := by
    have hall : ∀ e ∈ (p.registry 0).points.entries, e.2.Survives := by decide +kernel
    exact fun name d hd => hall (name, d) (Catalog.mem_entries_of_find? hd)
  have hposts : List.Forall₂ Posts qs texts := by
    have hall : ∀ text ∈ texts, (bytes text).length < Text.wordLimit := by decide +kernel
    exact List.forall₂_map_left_iff.mpr
      (List.forall₂_same.mpr fun text htext => posts_declared (hall text htext))
  obtain ⟨-, -, himport⟩ := @export_import [idle] p .start 0 0 hreachable hsurvives rfl default
  obtain ⟨hreplies, hentries, -⟩ := himport texts qs (List.reverse_perm _) hposts
  exact ⟨hreachable, hsurvives, rfl, List.reverse_perm _, hposts, by decide +kernel, hreplies,
    hentries⟩

/-- A name of one character more than a body may have bytes. -/
theorem element_too_long :
    let name := String.ofList (List.replicate 16385 'a')
    let plan : Fault.Plan := ⟨.marker, .all⟩
    let p := Run.final .start [.arm 0 name .marker ⟨none, none, none⟩]
    let text := Descriptor.text ⟨name, plan, 0⟩
    let q := Request.declared "POST" "/inject_fault" [] (some (bytes text))
    Reachable [] p ∧ (∀ name' d, p.entry 0 name' = some d → d.Survives) ∧
      (p.registry 0).elements = [text] ∧ Posts q text ∧ Host.start.registry 0 = .empty ∧
      (respond default .start 0 q).1.status = 413 := by
  intro name plan p text q
  have hreachable : Reachable [] p := Run.reachable_final [.arm 0 name .marker ⟨none, none, none⟩]
  have hcount : name.toList.length = 16385 := by
    rw [String.toList_ofList, List.length_replicate]
  have hname : Fault.IsName name := by
    refine ⟨fun hempty => ?_, fun c hc => ?_⟩
    · rw [hempty] at hcount
      exact absurd hcount (by decide)
    · rw [String.toList_ofList] at hc
      rw [List.eq_of_mem_replicate hc]
      exact Or.inl ⟨by decide, by decide⟩
  -- All that matters from here on is how long the name is; it is too long to be unfolded.
  clear_value name
  have hp : p = Host.armed .start 0 name plan := final_arm_marker hname _ _
  have hlength : (bytes text).length = name.toList.length + 114 := length_bytes_text_marker hname
  have hposts : Posts q text := posts_declared (by rw [hlength, hcount]; decide)
  refine ⟨hreachable, ?_, ?_, hposts, rfl, (respond_long hposts ?_ _ _ _).1⟩
  · intro name' d hd t ht
    rw [hp, Host.entry_armed] at hd
    split at hd
    · cases hd
      cases ht
    · cases hd
  · rw [hp, Host.armed, Registry.elements, Host.registry_changed, if_pos rfl]
    rfl
  · rw [Short, hlength, hcount]
    decide

end FaultPoints.Control.Http
