import FaultPoints.Proofs.Net.Numeral

/-!
# Written addresses are read back

An address goes through its written form whenever settings are laid over one another, so nothing
may be lost there.  For dotted addresses and for ports this is reading back numerals.  A grouped
address may have a run of zero groups left out, and one that carries a dotted address ends in it;
`groupedText_cases` names these forms, and each of them is read back by the same lemma on groups
with colons between them.

## Main Definitions

* `Net.spelled` — groups with colons
* `Net.Closes` — what may follow an address
* `Net.Endpoint.Proper` — a dotted address has no scope

## Main Statements

* `groups_spelled` — groups with colons are read back
* `read_renderIp`, `read_renderEndpoint` — addresses are read back
* `proper_of_read` — what is read is proper
-/

namespace FaultPoints.Net

/-! ## Octets and dotted addresses -/

theorem ends_cons {base : Nat} {c : Char} (h : digitIn base c = none) (rest : List Char) :
    Ends base (c :: rest) := by
  intro c' hc'
  obtain rfl : c = c' := by simpa using hc'
  exact h

theorem octet_append (a : UInt8) {rest : List Char} (h : Ends 10 rest) :
    octet (Text.digits a.toNat ++ rest) = some (a, rest) := by
  have hnumeral := isNumeral_digits a.toNat
  have hlt : a.toNat < 256 := a.toNat_lt
  have hlength := hnumeral.length 2 (by omega)
  rw [octet, hnumeral.number_append hlt (some 3) (by simpa using hlength) false h]
  simp

/-- The characters of a dotted address. -/
def dottedChars (a b c d : UInt8) : List Char :=
  Text.digits a.toNat ++ '.' :: (Text.digits b.toNat ++ '.' :: (Text.digits c.toNat ++
    '.' :: Text.digits d.toNat))

theorem toList_dottedText (a b c d : UInt8) :
    (dottedText a.toNat b.toNat c.toNat d.toNat).toList = dottedChars a b c d := by
  simp [dottedText, dottedChars, Text.natural]

theorem dottedReader_append (a b c d : UInt8) {rest : List Char} (h : Ends 10 rest) :
    dottedReader (dottedChars a b c d ++ rest) = some ((a, b, c, d), rest) := by
  have hdot : ∀ more, Ends 10 ('.' :: more) := ends_cons rfl
  simp [dottedReader, dottedChars, octet_append, hdot, h, character]

/-- A list that does not go on with a full stop behind its first digits is no dotted address. -/
theorem dottedReader_eq_none {cs : List Char}
    (h : (cs.dropWhile fun c => (digitIn 10 c).isSome).head? ≠ some '.') :
    dottedReader cs = none := by
  have hoctet : ∀ r, octet cs = some r → r.2 = cs.dropWhile fun c => (digitIn 10 c).isSome := by
    intro r hr
    simp only [octet, number, Option.map_eq_some_iff] at hr
    obtain ⟨r', hr', rfl⟩ := hr
    split at hr'
    · cases hr'
    · split at hr'
      · cases hr'
      · cases hr'
        rfl
  cases hcs : octet cs with
  | none => simp [dottedReader, hcs]
  | some r =>
      have hdot : character '.' r.2 = none := by
        rw [hoctet r hcs]
        cases hrest : cs.dropWhile fun c => (digitIn 10 c).isSome with
        | nil => rfl
        | cons c rest =>
            rw [hrest] at h
            have hc : ¬ '.' = c := fun hc => h (by rw [hc]; rfl)
            simp [character, hc]
      simp [dottedReader, hcs, hdot]

/-! ## Groups -/

/-- The characters of groups with colons: one between any two, and one in front unless these groups
are the first. -/
def spelled : Bool → List UInt16 → List Char
  | _, [] => []
  | true, g :: gs => Text.hexDigits g.toNat ++ spelled false gs
  | false, g :: gs => ':' :: (Text.hexDigits g.toNat ++ spelled false gs)

theorem toList_groupText (gs : List UInt16) : (groupText gs).toList = spelled true gs := by
  have hjoin : ∀ (g : UInt16) (gs : List UInt16),
      [':'].intercalate ((g :: gs).map fun g => Text.hexDigits g.toNat) =
        spelled true (g :: gs) := by
    intro g gs
    induction gs generalizing g with
    | nil => simp [spelled]
    | cons g' gs ih =>
        have hnext := ih g'
        simp only [List.map_cons] at hnext ⊢
        rw [List.intercalate_cons_cons, hnext]
        simp [spelled]
  cases gs with
  | nil => rfl
  | cons g gs =>
      rw [← hjoin g gs, groupText, String.toList_intercalate, List.map_map]
      simp [Function.comp_def]

/-- What may follow groups: it goes on neither with a digit nor with a full stop, and a colon in it
is not followed by a group. -/
structure Closes (rest : List Char) : Prop where
  /-- No digit follows. -/
  ends : Ends 16 rest
  /-- No full stop follows. -/
  noDot : rest.head? ≠ some '.'
  /-- No group follows behind a colon. -/
  colon : ∀ more, rest = ':' :: more → Ends 16 more ∧ more.head? ≠ some '.'

/-- The digits of base ten are among those of base sixteen. -/
theorem digitIn_ten (c : Char) : digitIn 10 c = (digitIn 16 c).filter (· < 10) := by
  have hlt : ∀ v : Nat, (decide (v < 16) && decide (v < 10)) = decide (v < 10) := fun v => by
    rw [← Bool.decide_and]
    exact decide_eq_decide.mpr ⟨And.right, fun h => ⟨by omega, h⟩⟩
  simp only [digitIn, Option.filter_filter, hlt]

theorem Ends.ten {rest : List Char} (h : Ends 16 rest) : Ends 10 rest :=
  fun c hc => by rw [digitIn_ten, h c hc]; rfl

/-- Digits of base sixteen with something behind that closes them are no dotted address. -/
theorem dottedReader_digits {ds rest : List Char}
    (hds : ∀ c ∈ ds, (digitIn 16 c).isSome = true) (hrest : Ends 16 rest)
    (hdot : rest.head? ≠ some '.') : dottedReader (ds ++ rest) = none := by
  apply dottedReader_eq_none
  induction ds with
  | nil =>
      rw [List.nil_append]
      rwa [(takeWhile_of_ends hrest.ten).2]
  | cons c ds ih =>
      have hc := hds c List.mem_cons_self
      rw [List.cons_append, List.dropWhile_cons]
      split
      · exact ih fun c' hc' => hds c' (List.mem_cons_of_mem _ hc')
      · rintro hhead
        obtain rfl : c = '.' := by simpa using hhead
        simp [show digitIn 16 '.' = none from rfl] at hc

theorem dottedReader_of_ends {rest : List Char} (hrest : Ends 16 rest)
    (hdot : rest.head? ≠ some '.') : dottedReader rest = none :=
  @dottedReader_digits [] rest (by simp) hrest hdot

/-- Where nothing goes on, no group is read. -/
theorem groups_of_closes {rest : List Char} (h : Closes rest) (room : Nat) (first : Bool) :
    groups room first rest = ([], false, rest) := by
  have hparts : ∀ more, Ends 16 more → more.head? ≠ some '.' →
      dottedReader more = none ∧ number 16 65536 (some 4) true more = none := fun more hends hdot =>
    ⟨dottedReader_of_ends hends hdot, number_eq_none hends ..⟩
  have hnone : separated first dottedReader rest = none ∧
      separated first (number 16 65536 (some 4) true) rest = none := by
    cases first with
    | true => simpa [separated] using hparts rest h.ends h.noDot
    | false =>
        cases rest with
        | nil => simp [separated, character]
        | cons c more =>
            by_cases hc : ':' = c
            · subst hc
              obtain ⟨hends, hdot⟩ := h.colon more rfl
              simpa [separated, character] using hparts more hends hdot
            · simp [separated, character, hc]
  cases room with
  | zero => rfl
  | succ room => simp [groups, hnone.1, hnone.2]

theorem number_hexDigits (g : UInt16) {rest : List Char} (h : Ends 16 rest) :
    number 16 65536 (some 4) true (Text.hexDigits g.toNat ++ rest) = some (g.toNat, rest) := by
  have hnumeral := isNumeral_hexDigits g.toNat
  have hlt : g.toNat < 65536 := g.toNat_lt
  have hlength := hnumeral.length 3 (by omega)
  exact hnumeral.number_append hlt (some 4) (by simpa using hlength) true h

/-- What follows a group goes on with a colon or closes the address. -/
theorem closes_spelled {rest : List Char} (h : Closes rest) (gs : List UInt16) :
    Ends 16 (spelled false gs ++ rest) ∧ (spelled false gs ++ rest).head? ≠ some '.' := by
  cases gs with
  | nil => exact ⟨h.ends, h.noDot⟩
  | cons g gs => exact ⟨ends_cons rfl _, by simp [spelled]⟩

/-- One group is read, and then the groups behind it. -/
theorem groups_group (g : UInt16) {more : List Char} (hends : Ends 16 more)
    (hdot : more.head? ≠ some '.') (room : Nat) (first : Bool) :
    groups (room + 1) first ((if first then [] else [':']) ++ Text.hexDigits g.toNat ++ more) =
      (g :: (groups room false more).1, (groups room false more).2) := by
  have hdotted : dottedReader (Text.hexDigits g.toNat ++ more) = none :=
    dottedReader_digits (isNumeral_hexDigits g.toNat).digits hends hdot
  have hnumber := number_hexDigits g hends
  cases first <;> simp [groups, separated, character, hdotted, hnumber]

/-- Groups with colons are read back where there is room for them. -/
theorem groups_spelled {rest : List Char} (h : Closes rest) (gs : List UInt16) {room : Nat}
    (hroom : gs.length ≤ room) (first : Bool) :
    groups room first (spelled first gs ++ rest) = (gs, false, rest) := by
  induction gs generalizing room first with
  | nil => cases first <;> exact groups_of_closes h room _
  | cons g gs ih =>
      obtain ⟨room, rfl⟩ : ∃ n, room = n + 1 :=
        Nat.exists_eq_succ_of_ne_zero (by rw [List.length_cons] at hroom; omega)
      obtain ⟨hends, hdot⟩ := closes_spelled h gs
      have hspelled : spelled first (g :: gs) ++ rest =
          (if first then [] else [':']) ++ Text.hexDigits g.toNat ++
            (spelled false gs ++ rest) := by
        cases first <;> simp [spelled]
      rw [hspelled, groups_group g hends hdot, ih (Nat.le_of_succ_le_succ hroom)]

/-! ## The forms of a grouped address -/

/-- The run of zero groups that is left out stands where the search says. -/
theorem longestZeros_spec (gs : List UInt16) :
    gs = gs.take (longestZeros gs).1 ++ List.replicate (longestZeros gs).2 0 ++
      gs.drop ((longestZeros gs).1 + (longestZeros gs).2) := by
  refine List.foldlRecOn (motive := fun best : Nat × Nat =>
    gs = gs.take best.1 ++ List.replicate best.2 0 ++ gs.drop (best.1 + best.2))
    (List.range gs.length) _ (by simp) fun best hbest i _ => ?_
  dsimp only
  split
  · -- The groups from a place on start with as many zeros as are counted there.
    have hzeros : (gs.drop i).takeWhile (· = 0) = List.replicate (zerosAtFront (gs.drop i)) 0 :=
      List.eq_replicate_iff.mpr ⟨rfl, fun g hg => by
        have hall := List.all_takeWhile (p := (· = 0)) (l := gs.drop i)
        simpa using List.all_eq_true.mp hall g hg⟩
    have hrest : gs.drop (i + zerosAtFront (gs.drop i)) = (gs.drop i).dropWhile (· = 0) := by
      have hsplit := List.takeWhile_append_dropWhile (p := (· = 0)) (l := gs.drop i)
      rw [← List.drop_drop]
      nth_rewrite 2 [← hsplit]
      exact List.drop_left
    rw [hrest, ← hzeros, List.append_assoc, List.takeWhile_append_dropWhile, List.take_append_drop]
  · exact hbest

/-- **The forms of a grouped address**: one that carries a dotted address, one with a run of zero
groups left out, and one in full. -/
theorem groupedText_cases (gs : List UInt16) :
    (∃ x y, gs = [0, 0, 0, 0, 0, 0xffff, x, y] ∧ groupedText gs =
        "::ffff:" ++ dottedText (x.toNat / 256) (x.toNat % 256) (y.toNat / 256) (y.toNat % 256)) ∨
      (∃ head n tail, 1 < n ∧ gs = head ++ List.replicate n 0 ++ tail ∧
        (groupedText gs).toList = spelled true head ++ ':' :: ':' :: spelled true tail) ∨
      (groupedText gs).toList = spelled true gs := by
  unfold groupedText
  split
  · rename_i x y
    exact Or.inl ⟨x, y, rfl, rfl⟩
  · by_cases hlong : 1 < (longestZeros gs).2
    · refine Or.inr (Or.inl ⟨_, _, _, hlong, longestZeros_spec gs, ?_⟩)
      simp [hlong, toList_groupText]
    · refine Or.inr (Or.inr ?_)
      simp [hlong, toList_groupText]

/-- What may follow an address. -/
def AddressEnd (rest : List Char) : Prop := ∀ c, rest.head? = some c → c = ']' ∨ c = '%'

theorem AddressEnd.closes {rest : List Char} (h : AddressEnd rest) : Closes rest where
  ends c hc := by rcases h c hc with rfl | rfl <;> rfl
  noDot hdot := by rcases h '.' hdot with h | h <;> cases h
  colon more hcolon := by
    subst hcolon
    rcases h ':' rfl with h | h <;> cases h

theorem closes_colons (more : List Char) : Closes (':' :: ':' :: more) where
  ends := ends_cons rfl _
  noDot := by simp
  colon more' h := by
    obtain rfl : ':' :: more = more' := by simpa using h
    exact ⟨ends_cons rfl _, by simp⟩

theorem pairGroup_divMod (x : UInt16) :
    pairGroup (UInt8.ofNat (x.toNat / 256)) (UInt8.ofNat (x.toNat % 256)) = x := by
  have hlt : x.toNat < 65536 := x.toNat_lt
  apply UInt16.toNat_inj.mp
  simp only [pairGroup, UInt8.toNat_ofNat', UInt16.toNat_ofNat']
  omega

/-- The dotted address that two groups carry. -/
def carried (x y : UInt16) : List Char :=
  dottedChars (UInt8.ofNat (x.toNat / 256)) (UInt8.ofNat (x.toNat % 256))
    (UInt8.ofNat (y.toNat / 256)) (UInt8.ofNat (y.toNat % 256))

theorem toList_carried (x y : UInt16) :
    (dottedText (x.toNat / 256) (x.toNat % 256) (y.toNat / 256) (y.toNat % 256)).toList =
      carried x y := by
  have hx : x.toNat < 65536 := x.toNat_lt
  have hy : y.toNat < 65536 := y.toNat_lt
  have hoctet : ∀ n, n < 256 → (UInt8.ofNat n).toNat = n := fun n hn => by
    rw [UInt8.toNat_ofNat']
    exact Nat.mod_eq_of_lt hn
  have htext := toList_dottedText (UInt8.ofNat (x.toNat / 256)) (UInt8.ofNat (x.toNat % 256))
    (UInt8.ofNat (y.toNat / 256)) (UInt8.ofNat (y.toNat % 256))
  rw [hoctet _ (by omega), hoctet _ (by omega), hoctet _ (by omega), hoctet _ (by omega)] at htext
  exact htext

/-- A dotted address behind the group `ffff` is read as two groups. -/
theorem groups_carried (x y : UInt16) {rest : List Char} (h : AddressEnd rest) :
    groups 7 true (['f', 'f', 'f', 'f', ':'] ++ carried x y ++ rest) =
      ([0xffff, x, y], true, rest) := by
  have hdotted : dottedReader (carried x y ++ rest) = _ :=
    dottedReader_append _ _ _ _ h.closes.ends.ten
  have hrest : groups 6 false (':' :: (carried x y ++ rest)) = ([x, y], true, rest) := by
    simp [groups, separated, character, hdotted, pairGroup_divMod]
  have hends : Ends 16 (':' :: (carried x y ++ rest)) := ends_cons rfl _
  have hgroup := groups_group 0xffff hends (by simp) 6 true
  rw [hrest] at hgroup
  exact hgroup

/-! ## Addresses of hosts -/

/-- A grouped address is read back, and it is no dotted address. -/
theorem groupedReader_append {gs : List UInt16} (height : gs.length = 8) {rest : List Char}
    (hrest : AddressEnd rest) :
    groupedReader ((groupedText gs).toList ++ rest) = some (gs, rest) ∧
      dottedReader (groupedText gs).toList = none := by
  have hcolon : ∀ more, dottedReader (':' :: more) = none := fun more =>
    dottedReader_of_ends (ends_cons rfl _) (by simp)
  have hgroup : ∀ (g : UInt16) more, dottedReader (Text.hexDigits g.toNat ++ ':' :: more) = none :=
    fun g more => dottedReader_digits (isNumeral_hexDigits _).digits (ends_cons rfl _) (by simp)
  rcases groupedText_cases gs with ⟨x, y, rfl, htext⟩ | ⟨head, n, tail, hn, hgs, htext⟩ | htext
  · have hchars : (groupedText [0, 0, 0, 0, 0, 0xffff, x, y]).toList =
        ':' :: ':' :: (['f', 'f', 'f', 'f', ':'] ++ carried x y) := by
      rw [htext, String.toList_append, toList_carried]
      rfl
    have hnone := groups_of_closes
      (closes_colons (['f', 'f', 'f', 'f', ':'] ++ carried x y ++ rest)) 8 true
    refine ⟨?_, by rw [hchars]; exact hcolon _⟩
    have htail := groups_carried x y hrest
    rw [hchars, List.cons_append, List.cons_append]
    generalize ['f', 'f', 'f', 'f', ':'] ++ carried x y ++ rest = text at hnone htail ⊢
    simp only [groupedReader, hnone]
    simp [character, htail]
  · have hlength : head.length + n + tail.length = 8 := by
      rw [← height, hgs]
      simp [Nat.add_assoc]
    have hhead := groups_spelled (closes_colons (spelled true tail ++ rest)) head
      (by omega : head.length ≤ 8) true
    have htail := groups_spelled hrest.closes tail (by omega : tail.length ≤ 7 - head.length) true
    have hne : head.length ≠ 8 := by omega
    have hzeros : 8 - head.length - tail.length = n := by omega
    refine ⟨?_, ?_⟩
    · rw [htext, List.append_assoc, List.cons_append, List.cons_append]
      simp only [groupedReader, hhead]
      simp [hne, character, htail, hzeros, hgs]
    · rw [htext]
      cases head with
      | nil => exact hcolon _
      | cons g head =>
          cases head with
          | nil => simpa [spelled] using hgroup g _
          | cons g' head => simpa [spelled] using hgroup g _
  · have hgroups := groups_spelled hrest.closes gs (by omega : gs.length ≤ 8) true
    refine ⟨?_, ?_⟩
    · rw [htext]
      simp only [groupedReader, hgroups, height, ↓reduceIte]
    · rw [htext]
      match gs, height with
      | g :: g' :: gs, _ => simpa [spelled] using hgroup g _

/-- **The address of a host is read back.** -/
theorem read_renderIp (ip : Ip) : Ip.read ip.render = some ip := by
  cases ip with
  | dotted a b c d =>
      have hread := dottedReader_append a b c d (by simp [Ends] : Ends 10 [])
      rw [List.append_nil, ← toList_dottedText] at hread
      simp only [Ip.read, Ip.render, whole, hread]
  | grouped gs height =>
      obtain ⟨hread, hnone⟩ := groupedReader_append height (by simp [AddressEnd] : AddressEnd [])
      rw [List.append_nil] at hread
      simp [Ip.read, Ip.render, whole, hread, hnone, ofGroups, height]

/-! ## Hosts with a port -/

/-- A dotted address has no scope. -/
def Endpoint.Proper (e : Endpoint) : Prop :=
  match e.ip with
  | .dotted .. => e.scope = 0
  | .grouped .. => True

theorem port_digits (p : UInt16) : port (Text.digits p.toNat) = some (p, []) := by
  have hnumeral := isNumeral_digits p.toNat
  have hlt : p.toNat < 65536 := p.toNat_lt
  have hread := hnumeral.number_append hlt none (by simp) true (by simp [Ends] : Ends 10 [])
  rw [List.append_nil] at hread
  simp [port, hread]

/-- **A host with a port is read back.** -/
theorem read_renderEndpoint {e : Endpoint} (h : e.Proper) : Endpoint.read e.render = some e := by
  obtain ⟨ip, s, p⟩ := e
  cases ip with
  | dotted a b c d =>
      obtain rfl : s = 0 := h
      have hends : Ends 10 (':' :: Text.digits p.toNat) := ends_cons rfl _
      have hread := dottedReader_append a b c d hends
      simp [Endpoint.read, Endpoint.render, Ip.render, whole, dottedEndpoint, toList_dottedText,
        Text.natural, hread, character, port_digits]
  | grouped gs height =>
      have hnone : ∀ more, dottedEndpoint ('[' :: more) = none := fun more => by
        have hends : Ends 16 ('[' :: more) := ends_cons rfl _
        have hbracket := dottedReader_of_ends hends (by simp)
        simp [dottedEndpoint, hbracket]
      by_cases hs : s = 0
      · subst hs
        have hend : AddressEnd (']' :: ':' :: Text.digits p.toNat) := by simp [AddressEnd]
        have hread := (groupedReader_append height hend).1
        simp [Endpoint.read, Endpoint.render, whole, hnone, groupedEndpoint, character, hread,
          Text.natural, ofGroups, height, scope, port_digits]
      · have hend : AddressEnd
            ('%' :: (Text.digits s.toNat ++ ']' :: ':' :: Text.digits p.toNat)) := by
          simp [AddressEnd]
        have hread := (groupedReader_append height hend).1
        have hlt : s.toNat < 4294967296 := s.toNat_lt
        have hends : Ends 10 (']' :: ':' :: Text.digits p.toNat) := ends_cons rfl _
        have hscope := (isNumeral_digits s.toNat).number_append hlt none (by simp) true hends
        simp [Endpoint.read, Endpoint.render, whole, hnone, groupedEndpoint, character, hread,
          Text.natural, ofGroups, height, scope, port_digits, hs, hscope]

/-! ## What is read -/

theorem exists_of_whole {α : Type} {r : Reader α} {s : String} {a : α} (h : whole r s = some a) :
    r s.toList = some (a, []) := by
  unfold whole at h
  split at h
  · rename_i heq
    obtain rfl := Option.some_inj.mp h
    exact heq
  · cases h

theorem proper_of_dottedEndpoint {cs : List Char} {r : Endpoint × List Char}
    (h : dottedEndpoint cs = some r) : r.1.Proper := by
  simp only [dottedEndpoint, Option.bind_eq_bind, Option.bind_eq_some_iff, Option.pure_def,
    Option.some.injEq] at h
  obtain ⟨-, -, -, -, -, -, rfl⟩ := h
  exact rfl

theorem proper_of_groupedEndpoint {cs : List Char} {r : Endpoint × List Char}
    (h : groupedEndpoint cs = some r) : r.1.Proper := by
  simp only [groupedEndpoint, Option.bind_eq_bind, Option.bind_eq_some_iff, Option.pure_def,
    Option.some.injEq] at h
  obtain ⟨-, -, gs, -, ip, hip, -, -, -, -, -, -, -, -, rfl⟩ := h
  -- Groups make a grouped address, whose scope may be any.
  simp only [ofGroups, Option.dite_none_right_eq_some, Option.some.injEq] at hip
  obtain ⟨-, rfl⟩ := hip
  trivial

/-- **What is read as a host with a port is proper.** -/
theorem proper_of_read {s : String} {e : Endpoint} (h : Endpoint.read s = some e) : e.Proper := by
  unfold Endpoint.read at h
  split at h
  · rename_i heq
    obtain rfl := Option.some_inj.mp h
    exact proper_of_dottedEndpoint (exists_of_whole heq)
  · exact proper_of_groupedEndpoint (exists_of_whole h)

end FaultPoints.Net
