import FaultPoints.Metrics.Exposition
import Mathlib.Tactic

/-!
# The lines of the counters

A line of the exposition names a series and tells its value.  Names of points are written between
quotes with some characters escaped, so that the quote that ends them can be told from all others.
Therefore lines of different series, or of different values, are different texts, and the lines of
one family differ from those of another one in their first characters.

## Main Definitions

* `hitLine`, `triggerLine`, `gaugeLine` — the lines of the three families
* `IsComment` — a line that tells no value
* `token`, `Family.Begins` — the first characters of the name of a family, as a line shows them

## Main Statements

* `escaped_append_inj` — where a text between quotes ends
* `hitLine_inj`, `triggerLine_inj` — a line tells its series and its value
* `mem_lines_iff`, `nodup_lines`, `disjoint_lines` — the lines of families
-/

namespace FaultPoints.Metrics

open FaultPoints.Fault (Tag)

/-- What stands in a line behind the name of its last label: a point and a value. -/
def told (point : String) (n : Nat) : String :=
  labelValue point ++ ("\x7d " ++ Text.natural n)

/-- The line of the hits on a point. -/
def hitLine (point : String) (n : Nat) : String := "fault_point_hits\x7bpoint=" ++ told point n

/-- The line of the hits on a point that were the work of a fault of a sort. -/
def triggerLine (tag : Tag) (point : String) (n : Nat) : String :=
  "faults_triggered\x7bkind=\"" ++ (tag.name ++ ("\",point=" ++ told point n))

/-- The line of the gauge. -/
def gaugeLine (n : Nat) : String := "active_fault_points " ++ Text.natural n

/-! ## Texts between quotes -/

/-- A character between quotes. -/
def escaped (c : Char) : List Char :=
  if c = '\\' || c = '"' then ['\\', c] else if c = '\n' then ['\\', 'n'] else [c]

theorem toList_labelValue (s : String) :
    (labelValue s).toList = '"' :: (s.toList.flatMap escaped ++ ['"']) := by
  rw [labelValue, String.toList_ofList]
  rfl

/-- The three ways to stand between quotes. -/
theorem escaped_cases (c : Char) :
    ((c = '\\' ∨ c = '"') ∧ escaped c = ['\\', c]) ∨ (c = '\n' ∧ escaped c = ['\\', 'n']) ∨
      ((c ≠ '\\' ∧ c ≠ '"' ∧ c ≠ '\n') ∧ escaped c = [c]) := by
  unfold escaped
  by_cases hmark : c = '\\' ∨ c = '"'
  · exact Or.inl ⟨hmark, by simp [hmark]⟩
  · have hplain := not_or.mp hmark
    by_cases hline : c = '\n'
    · exact Or.inr (Or.inl ⟨hline, by simp [hline]⟩)
    · exact Or.inr (Or.inr ⟨⟨hplain.1, hplain.2, hline⟩, by simp [hplain, hline]⟩)

/-- A character between quotes begins with no quote. -/
theorem escaped_ne_quote (c : Char) {rest more : List Char} : escaped c ++ rest ≠ '"' :: more := by
  rcases escaped_cases c with ⟨-, hc⟩ | ⟨-, hc⟩ | ⟨hplain, hc⟩ <;> rw [hc]
  · simp
  · simp
  · simp [hplain.2.1]

/-- A character between quotes can be told from what follows it. -/
theorem escaped_append_cancel {c d : Char} {rest more : List Char}
    (h : escaped c ++ rest = escaped d ++ more) : c = d ∧ rest = more := by
  rcases escaped_cases c with ⟨hc, hcs⟩ | ⟨hc, hcs⟩ | ⟨hc, hcs⟩ <;>
    rcases escaped_cases d with ⟨hd, hds⟩ | ⟨hd, hds⟩ | ⟨hd, hds⟩ <;>
      simp only [hcs, hds, List.cons_append, List.nil_append, List.cons.injEq] at h <;> grind

/-- **A text between quotes ends with its quote.** -/
theorem escaped_append_inj {s t rest more : List Char}
    (h : s.flatMap escaped ++ '"' :: rest = t.flatMap escaped ++ '"' :: more) :
    s = t ∧ rest = more := by
  induction s generalizing t with
  | nil =>
      cases t with
      | nil => simpa using h
      | cons d t =>
          rw [List.flatMap_cons, List.append_assoc] at h
          exact absurd h.symm (escaped_ne_quote d)
  | cons c s ih =>
      cases t with
      | nil =>
          rw [List.flatMap_cons, List.append_assoc] at h
          exact absurd h (escaped_ne_quote c)
      | cons d t =>
          rw [List.flatMap_cons, List.flatMap_cons, List.append_assoc, List.append_assoc] at h
          obtain ⟨rfl, hrest⟩ := escaped_append_cancel h
          obtain ⟨rfl, hmore⟩ := ih hrest
          exact ⟨rfl, hmore⟩

theorem digits_injective {m n : Nat} (h : Text.digits m = Text.digits n) : m = n := by
  rw [← Text.ofDigits_digits m, h, Text.ofDigits_digits]

/-- A point and a value can be told from their text. -/
theorem told_inj {point point' : String} {n n' : Nat} (h : told point n = told point' n') :
    point = point' ∧ n = n' := by
  have htext := congrArg String.toList h
  simp only [told, String.toList_append, toList_labelValue, Text.natural, String.toList_ofList,
    List.cons_append, List.append_assoc, List.nil_append, List.cons.injEq, true_and] at htext
  obtain ⟨hpoint, hvalue⟩ := escaped_append_inj htext
  exact ⟨String.toList_inj.mp hpoint, digits_injective (List.append_cancel_left hvalue)⟩

/-! ## Lines -/

/-- **A line of hits tells its point and its value.** -/
theorem hitLine_inj {point point' : String} {n n' : Nat}
    (h : hitLine point n = hitLine point' n') : point = point' ∧ n = n' :=
  told_inj ((String.append_right_inj _).mp h)

/-- The sorts have different first letters. -/
theorem tag_eq_of_append {tag tag' : Tag} {rest more : String}
    (h : tag.name ++ rest = tag'.name ++ more) : tag = tag' := by
  have hfirst := congrArg (fun s => s.toList.head?) h
  cases tag <;> cases tag' <;> first
    | rfl
    | simp [Tag.name, String.toList_append] at hfirst

/-- **A line of the work of faults tells the sort, the point and the value.** -/
theorem triggerLine_inj {tag tag' : Tag} {point point' : String} {n n' : Nat}
    (h : triggerLine tag point n = triggerLine tag' point' n') :
    tag = tag' ∧ point = point' ∧ n = n' := by
  have hrest := (String.append_right_inj _).mp h
  obtain rfl := tag_eq_of_append hrest
  have htold := (String.append_right_inj _).mp ((String.append_right_inj _).mp hrest)
  exact ⟨rfl, told_inj htold⟩

/-! ## Labels -/

theorem labelText_one (k v : String) :
    labelText [(k, v)] = "\x7b" ++ (k ++ "=" ++ labelValue v) ++ "\x7d" := rfl

theorem labelText_two (k v k' v' : String) :
    labelText [(k, v), (k', v')] =
      "\x7b" ++ (k ++ "=" ++ labelValue v ++ "," ++ (k' ++ "=" ++ labelValue v')) ++ "\x7d" := rfl

/-- The names of the sorts have nothing to escape. -/
theorem labelValue_tag (tag : Tag) : labelValue tag.name = "\"" ++ (tag.name ++ "\"") := by
  cases tag <;> decide

/-- The pieces of a line with one label, put together in another way. -/
theorem regroup_one {name brace key eq front close space back : String}
    (hfront : front = name ++ (brace ++ (key ++ eq))) (hback : back = close ++ space)
    (v value : String) :
    name ++ (brace ++ (key ++ eq ++ v) ++ close) ++ space ++ value =
      front ++ (v ++ (back ++ value)) := by
  rw [hfront, hback]
  simp only [String.append_assoc]

/-- The same for two labels. -/
theorem regroup_two {name brace kind eq quote comma key front middle close space back : String}
    (hfront : front = name ++ (brace ++ (kind ++ (eq ++ quote))))
    (hmiddle : middle = quote ++ (comma ++ (key ++ eq))) (hback : back = close ++ space)
    (sort v value : String) :
    name ++ (brace ++ (kind ++ eq ++ (quote ++ (sort ++ quote)) ++ comma ++ (key ++ eq ++ v)) ++
        close) ++ space ++ value =
      front ++ (sort ++ (middle ++ (v ++ (back ++ value)))) := by
  rw [hfront, hmiddle, hback]
  simp only [String.append_assoc]

theorem hitLine_eq (point : String) (n : Nat) :
    "fault_point_hits" ++ labelText [("point", point)] ++ " " ++ Text.natural n =
      hitLine point n :=
  calc
    "fault_point_hits" ++ labelText [("point", point)] ++ " " ++ Text.natural n =
        "fault_point_hits" ++ ("\x7b" ++ ("point" ++ "=" ++ labelValue point) ++ "\x7d") ++ " " ++
          Text.natural n := by rw [labelText_one]
    _ = hitLine point n := regroup_one (by decide) (by decide) _ _

theorem triggerLine_eq (tag : Tag) (point : String) (n : Nat) :
    "faults_triggered" ++ labelText [("kind", tag.name), ("point", point)] ++ " " ++
      Text.natural n = triggerLine tag point n :=
  calc
    "faults_triggered" ++ labelText [("kind", tag.name), ("point", point)] ++ " " ++
          Text.natural n =
        "faults_triggered" ++
          ("\x7b" ++ ("kind" ++ "=" ++ ("\"" ++ (tag.name ++ "\"")) ++ "," ++
            ("point" ++ "=" ++ labelValue point)) ++ "\x7d") ++ " " ++ Text.natural n := by
      rw [labelText_two, labelValue_tag]
    _ = triggerLine tag point n := regroup_two (by decide) (by decide) (by decide) _ _ _

/-! ## Families -/

/-- A line that tells no value. -/
def IsComment (line : String) : Prop := line.toList.head? = some '#'

instance : DecidablePred IsComment := fun line =>
  inferInstanceAs (Decidable (line.toList.head? = some '#'))

/-- The first characters of the name of a family, as its lines show them: behind seven others in a
comment, and in front of all others. -/
def token (line : String) : List Char :=
  (if IsComment line then line.toList.drop 7 else line.toList).take 6

namespace Family

/-- The line of a series. -/
def sample (f : Family) (s : Series) : String :=
  f.name ++ labelText s.labels ++ " " ++ Text.natural s.value

/-- The line that tells what is measured. -/
def helpLine (f : Family) : String := "# HELP " ++ f.name ++ " " ++ f.help

/-- The line that tells counters from gauges. -/
def typeLine (f : Family) : String := "# TYPE " ++ f.name ++ " " ++ f.type

theorem lines_eq (f : Family) :
    f.lines =
      if f.series.isEmpty then [] else [f.helpLine, f.typeLine] ++ f.series.map f.sample := rfl

/-- The lines of a family with series are two comments and one line for each series. -/
theorem mem_lines_iff (f : Family) (line : String) :
    line ∈ f.lines ↔ (f.series ≠ [] ∧ (line = f.helpLine ∨ line = f.typeLine)) ∨
      ∃ s ∈ f.series, line = f.sample s := by
  rw [lines_eq]
  cases f.series with
  | nil => simp
  | cons s rest => simp [eq_comm, or_assoc]

theorem isComment_helpLine (f : Family) : IsComment f.helpLine := by
  simp [IsComment, helpLine, String.toList_append]

theorem isComment_typeLine (f : Family) : IsComment f.typeLine := by
  simp [IsComment, typeLine, String.toList_append]

theorem helpLine_ne_typeLine (f : Family) : f.helpLine ≠ f.typeLine := by
  intro h
  have hthird := congrArg (fun line => line.toList[2]?) h
  simp [helpLine, typeLine, String.toList_append] at hthird

/-- The name of a family begins with given characters, by which its lines can be told. -/
structure Begins (f : Family) (front : List Char) : Prop where
  /-- The name begins with them. -/
  name : front <+: f.name.toList
  /-- There are as many as a line shows in its front. -/
  length : front.length = 6
  /-- The first of them begins no comment. -/
  head : front.head? ≠ some '#'

namespace Begins

variable {f : Family} {front : List Char} (h : f.Begins front)

include h

theorem not_isComment_sample (s : Series) : ¬ IsComment (f.sample s) := by
  obtain ⟨rest, hrest⟩ := h.name
  have hne : front ≠ [] := fun hnil => by simpa [hnil] using h.length
  rw [IsComment, sample, String.append_assoc, String.append_assoc, String.toList_append, ← hrest,
    List.append_assoc, List.head?_append_of_ne_nil _ hne]
  exact h.head

theorem take_name (rest : List Char) : (f.name.toList ++ rest).take 6 = front := by
  obtain ⟨more, hmore⟩ := h.name
  rw [← hmore, List.append_assoc, ← h.length, List.take_left]

theorem token_sample (s : Series) : token (f.sample s) = front := by
  rw [token, if_neg (h.not_isComment_sample s)]
  simp [sample, String.toList_append, h.take_name]

/-- All lines of a family show its name. -/
theorem token_of_mem {line : String} (hline : line ∈ f.lines) : token line = front := by
  rcases (mem_lines_iff f line).mp hline with ⟨-, rfl | rfl⟩ | ⟨s, -, rfl⟩
  · rw [token, if_pos f.isComment_helpLine]
    simp [helpLine, String.toList_append, h.take_name]
  · rw [token, if_pos f.isComment_typeLine]
    simp [typeLine, String.toList_append, h.take_name]
  · exact h.token_sample s

/-- A family whose series have different lines has no line twice. -/
theorem nodup_lines (hsamples : (f.series.map f.sample).Nodup) : f.lines.Nodup := by
  rw [lines_eq]
  split
  · exact List.nodup_nil
  · have hcomments : ∀ line ∈ [f.helpLine, f.typeLine], IsComment line := by
      simpa using ⟨f.isComment_helpLine, f.isComment_typeLine⟩
    refine List.nodup_append.mpr ⟨?_, hsamples, fun line hline line' hline' heq => ?_⟩
    · simpa using f.helpLine_ne_typeLine
    · obtain ⟨s, -, rfl⟩ := List.mem_map.mp hline'
      exact h.not_isComment_sample s (heq ▸ hcomments line hline)

/-- Families whose names begin in different ways have no line in common. -/
theorem disjoint_lines {f' : Family} {front' : List Char} (h' : f'.Begins front')
    (hne : front ≠ front') : List.Disjoint f.lines f'.lines := fun _ hline hline' =>
  hne ((h.token_of_mem hline).symm.trans (h'.token_of_mem hline'))

end Begins

end Family

end FaultPoints.Metrics
