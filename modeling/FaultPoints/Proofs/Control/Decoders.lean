import FaultPoints.Control.Command
import FaultPoints.Proofs.Fault.Documents
import FaultPoints.Proofs.Json.Members
import FaultPoints.Proofs.Json.Spelling

/-!
# The two decoders of a request agree

A request to arm a point comes in as a document of its own, which is read member by member, or as a
command, whose members are kept whole until its name is known.  The two accept the same requests: a
text of the one kind becomes a text of the other by taking the name of the command out or putting it
in, wherever it stands, and with the members in any order.

What is passed over must still be readable.  A command keeps every member, so that a member of a
name that no request has may not be nested too deeply and may not hold a number beyond all bounds
or a text that is none.

## Main Statements

* `parse_request_iff_parse_command` — the two decoders agree on every object
-/

namespace FaultPoints.Control

open FaultPoints.Fault FaultPoints.Json

/-- None of the members of a request has parts. -/
theorem flat_request : ∀ m ∈ Request.record.members, m.Flat := by
  intro m hm
  simp only [Request.record, List.mem_cons, List.not_mem_nil, or_false] at hm
  have htag : tagForm.Flat := flat_scalar (fun _ h => by cases h) (fun _ h => by cases h)
  rcases hm with rfl | rfl | rfl | rfl | rfl
  · exact flat_member _ (flat_text _) _ _ _
  · exact flat_member _ htag _ _ _
  · exact flat_member _ (flat_optional flat_count) _ _ _
  · exact flat_member _ (flat_optional flat_count) _ _ _
  · exact flat_member _ (flat_optional flat_real) _ _ _

theorem independent_request : Request.record.Independent where
  marks := by
    intro m hm
    simp only [Request.record, List.mem_cons, List.not_mem_nil, or_false] at hm
    rcases hm with rfl | rfl | rfl | rfl | rfl
    all_goals
      refine marks_member _ _ ?_ _
      exact fun _ _ => rfl
  apart := by
    simp only [Request.record, List.pairwise_cons, List.mem_cons, List.not_mem_nil, or_false,
      forall_eq_or_imp, forall_eq, false_implies, implies_true, List.Pairwise.nil, and_true]
    refine ⟨⟨?_, ?_, ?_, ?_⟩, ⟨?_, ?_, ?_⟩, ⟨?_, ?_⟩, ?_⟩ <;>
      exact apart_member (fun _ _ => rfl) (fun _ _ => rfl) (fun _ _ _ => rfl)

/-- A request is read from its members in any order. -/
theorem ofDoc_request_perm {members members' : List (Option String × Doc)}
    (h : members.Perm members') (r : Request) :
    Request.form.ofDoc (.object members none) = .ok r ↔
      Request.form.ofDoc (.object members' none) = .ok r := by
  simp only [Request.form, Form.record, bind_eq_ok_iff, orBroken_eq_ok_iff,
    draftDoc_perm independent_request h]

/-- The members of a request that is read can be kept whole, as far as those can of other names. -/
theorem exists_memberDocs_of_request {depth : Nat} {members : List (Option String × Doc)}
    {r : Request} (hunknown : ∀ key d, (some key, d) ∈ members →
      key ∉ Request.record.members.map (·.name) → d.Readable depth)
    (hread : Request.form.ofDoc (.object members none) = .ok r) :
    ∃ vs, members = memberDocs vs ∧ memberLevels vs ≤ depth := by
  simp only [Request.form, Form.record, bind_eq_ok_iff] at hread
  obtain ⟨draft, hdraft, -⟩ := hread
  refine exists_memberDocs (readable_of_draftDoc flat_request (fun key d hmem hfind => ?_) hdraft)
  refine hunknown key d hmem fun hkey => ?_
  obtain ⟨m, hm, rfl⟩ := List.mem_map.mp hkey
  simpa using List.find?_eq_none.mp hfind m hm

/-- A command that carries a request is read from the other members as the request is. -/
theorem parse_inject_iff {J : List Glyph} {front back : List (Option String × Doc)}
    (hJ : ObjectText J (front ++ (some "command", .text (some "inject")) :: back))
    (hfront : ∀ e ∈ front, e.1 ≠ some "command") (hback : ∀ e ∈ back, e.1 ≠ some "command")
    (r : Request) :
    Command.parse J = .ok (.inject r) ↔
      (∃ vs, front ++ back = memberDocs vs ∧ memberLevels vs ≤ nestingLimit - 1) ∧
        Request.form.ofDoc (.object (front ++ back) none) = .ok r := by
  have hinject : Command.tagged.variantOf (.text "inject") =
      .ok (.of "inject" Request.form .inject) := rfl
  have hbody : ∀ vs, (Variant.of "inject" Request.form Command.inject).ofBody (.object vs) =
      .ok (.inject r) ↔ Request.form.ofDoc (.object (memberDocs vs) none) = .ok r := by
    intro vs
    have hagrees := agrees_request (.object vs) r
    rw [Value.doc] at hagrees
    simp only [Variant.of, map_eq_ok_iff, hagrees, Command.inject.injEq, exists_eq_right]
  rw [Command.parse, Tagged.parse, parseWith_of_objectText hJ]
  refine (ofDoc_tagged_iff hfront hback hinject).trans ?_
  simp only [hbody]
  constructor
  · rintro ⟨vs, ⟨hvs, hlevels⟩, hread⟩
    exact ⟨⟨vs, hvs, hlevels⟩, by rwa [hvs]⟩
  · rintro ⟨⟨vs, hvs, hlevels⟩, hread⟩
    exact ⟨vs, ⟨hvs, hlevels⟩, by rwa [← hvs]⟩

/-- **The two decoders of a request agree.**  Let one text be an object in which no member is called
`command`, and let another have the same members, in any order, and the member that calls for a
request besides.  If each member of a name that no request has can be kept whole, then the first is
read as a request iff the second is read as the command to carry that request out.

The bound on the nesting leaves out the braces of the object itself. -/
theorem parse_request_iff_parse_command {J J' : List Glyph}
    {members members' : List (Option String × Doc)} (hJ : ObjectText J members)
    (hJ' : ObjectText J' members') (hcommand : ∀ e ∈ members, e.1 ≠ some "command")
    (hperm : members'.Perm ((some "command", .text (some "inject")) :: members))
    (hunknown : ∀ key d, (some key, d) ∈ members → key ∉ Request.record.members.map (·.name) →
      d.Readable (nestingLimit - 1)) (r : Request) :
    Request.form.parse J = .ok r ↔ Command.parse J' = .ok (.inject r) := by
  -- The member that names the command stands somewhere among the others.
  obtain ⟨front, back, rfl⟩ := List.append_of_mem (hperm.mem_iff.mpr List.mem_cons_self)
  have hothers : (front ++ back).Perm members := (List.perm_middle.symm.trans hperm).cons_inv
  have huntagged : ∀ e ∈ front ++ back, e.1 ≠ some "command" := fun e he =>
    hcommand e (hothers.mem_iff.mp he)
  obtain ⟨hfront, hback⟩ := List.forall_mem_append.mp huntagged
  have hform : Request.form.parse J = .ok r ↔
      Request.form.ofDoc (.object (front ++ back) none) = .ok r := by
    rw [Form.parse, parseWith_of_objectText hJ, ofDoc_request_perm hothers]
  rw [hform, parse_inject_iff hJ' hfront hback]
  constructor
  · intro hread
    exact ⟨exists_memberDocs_of_request (fun key d hmem => hunknown key d (hothers.mem_iff.mp hmem))
      hread, hread⟩
  · rintro ⟨-, hread⟩
    exact hread

/-- A request with a member that is passed over, and the command for it with the members in another
order and the name of the command between them. -/
theorem parse_command_out_of_order :
    let request : Request := ⟨"read", .exception, none, none, none⟩
    let plain : Value := .object [("fault_name", .text "read"), ("note", .array [.null])]
    let tagged : Value := .object
      [("note", .array [.null]), ("command", .text "inject"), ("fault_name", .text "read")]
    Request.form.parse (Text.glyphs plain.render) = .ok request ∧
      Command.parse (Text.glyphs tagged.render) = .ok (.inject request) := by
  intro request plain tagged
  have hplain : MembersLegible [("fault_name", .text "read"), ("note", .array [.null])] :=
    ⟨trivial, ⟨trivial, trivial⟩, trivial⟩
  have htagged : MembersLegible
      [("note", .array [.null]), ("command", .text "inject"), ("fault_name", .text "read")] :=
    ⟨⟨trivial, trivial⟩, trivial, trivial, trivial⟩
  have hread : Request.form.parse (Text.glyphs plain.render) = .ok request :=
    (parse_render Request.form (v := plain) hplain).trans rfl
  refine ⟨hread, (parse_request_iff_parse_command (objectText_render hplain)
    (objectText_render htagged) (by simp [memberDocs]) ?_ ?_ request).mp hread⟩
  · exact (List.perm_append_comm : ([_] ++ [_, _]).Perm ([_, _] ++ [_]))
  · intro key d hmem hkey
    simp only [memberDocs, List.mem_cons, Prod.mk.injEq, Option.some_inj, List.not_mem_nil,
      or_false] at hmem
    rcases hmem with ⟨rfl, -⟩ | ⟨rfl, rfl⟩
    · exact absurd (by decide) hkey
    · exact ⟨.array [.null], rfl, by decide⟩

end FaultPoints.Control
