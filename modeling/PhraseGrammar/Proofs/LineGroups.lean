/-
Raw lines in groups, and the logical lines that they make. From the left, a
comment where a group starts is a group of its own and is dropped; any other line
starts a group that goes up to the first line that does not go on. A logical line
is what one of these groups gives, each line that goes on without its last
backslash (`logicalLines_of_groups`).

A reader asks whether a line goes on of all that it has joined so far, and the
rule above asks it of the raw line alone. Both come to the same, since what is
left open has lost its last backslash and so ends in an even number of them
(`OpenLine`): before any raw line, an even number does not change the parity
(`joinLines_cons`).
-/
import PhraseGrammar.Proofs.LineFacts

namespace PhraseGrammar

/-- The raw line ends in an odd number of backslashes. -/
def goesOn (raw : Text) : Bool := trailingBackslashes raw % 2 == 1

/-- What a raw line gives to its logical line: all of it, but for the last
backslash if it goes on. -/
def linePart (raw : Text) : Text := if goesOn raw then raw.dropLast else raw

/-- The logical line that a group makes. -/
def joinGroup (group : List Text) : Text := group.flatMap linePart

/-- The group is a comment; no other group opens with one. -/
def opensWithComment (group : List Text) : Bool := group.head?.any isComment

/-- The first group of raw lines, `rest` being the lines after it: a comment, or
lines that go on up to one that does not. The last line of all ends its group even
if it goes on. -/
inductive IsGroup : List Text → List Text → Prop
  | comment {raw : Text} {rest : List Text} : isComment raw = true → IsGroup [raw] rest
  | joined {front : List Text} {last : Text} {rest : List Text} :
      opensWithComment (front ++ [last]) = false → (∀ raw ∈ front, goesOn raw = true) →
      (goesOn last = true → rest = []) → IsGroup (front ++ [last]) rest

/-- Groups of raw lines, each the first one of the lines from there on. -/
inductive Grouped : List (List Text) → Prop
  | nil : Grouped []
  | cons {group : List Text} {groups : List (List Text)} :
      IsGroup group groups.flatten → Grouped groups → Grouped (group :: groups)

/-- A logical line starts after a raw line that does not go on, and after a comment
that stands where one starts. -/
def startsNext (start : Bool) (raw : Text) : Bool := start && isComment raw || !goesOn raw

/-- A logical line starts after these raw lines. -/
def startsLine (before : List Text) : Bool := before.foldl startsNext true

/-! ## Whether a line goes on -/

theorem isContinued_eq_goesOn {l : Text} (h : '\n' ∉ l) : isContinued l = goesOn l :=
  isContinued_of_no_feed h

theorem goesOn_concat (t : Text) (c : Char) : goesOn (t ++ [c]) = (decide (c = '\\') && !goesOn t) := by
  rw [goesOn, goesOn, trailingBackslashes_concat]
  by_cases hc : c = '\\'
  · rw [if_pos hc, Bool.eq_iff_iff]
    simp [hc]
    omega
  · simp [hc]

/-- A line goes on by a backslash after one that does not. -/
theorem goesOn_iff {raw : Text} : goesOn raw = true ↔ ∃ t, raw = t ++ ['\\'] ∧ goesOn t = false := by
  rcases List.eq_nil_or_concat raw with rfl | ⟨t, c, rfl⟩
  · simp [goesOn, trailingBackslashes]
  · rw [List.concat_eq_append, goesOn_concat]
    constructor
    · intro h
      simp only [Bool.and_eq_true, decide_eq_true_eq, Bool.not_eq_true'] at h
      exact ⟨t, by rw [h.1], h.2⟩
    · rintro ⟨u, hu, h⟩
      obtain ⟨rfl, hc⟩ := List.append_inj' hu rfl
      simp [List.singleton_inj.mp hc, h]

theorem goesOn_append {t : Text} (h : goesOn t = false) (raw : Text) : goesOn (t ++ raw) = goesOn raw := by
  induction raw using List.reverseRecOn with
  | nil => rw [List.append_nil, h]; rfl
  | append_singleton raw c ih => rw [← List.append_assoc, goesOn_concat, goesOn_concat, ih]

theorem linePart_subset (raw : Text) : linePart raw ⊆ raw := by
  unfold linePart
  split
  · exact List.dropLast_subset raw
  · exact List.Subset.refl raw

theorem mem_joinGroup {c : Char} {group : List Text} (h : c ∈ joinGroup group) : ∃ raw ∈ group, c ∈ raw := by
  obtain ⟨raw, hraw, hc⟩ := List.mem_flatMap.mp h
  exact ⟨raw, hraw, linePart_subset raw hc⟩

/-! ## Lines left open -/

/-- A line that is left open has lost its last backslash, and does not go on
by itself. -/
structure OpenLine (l : Text) : Prop where
  noFeed : '\n' ∉ l
  complete : isContinued l = false

theorem OpenLine.goesOn_eq {l : Text} (h : OpenLine l) : goesOn l = false :=
  isContinued_eq_goesOn h.noFeed ▸ h.complete

theorem openLine_nil : OpenLine [] := ⟨by simp, by decide⟩

theorem openLine_none : ∀ l ∈ (none : Option Text), OpenLine l := by simp

theorem openLine_some {l : Text} (h : OpenLine l) : ∀ k ∈ some l, OpenLine k := by
  rintro k ⟨⟩
  exact h

theorem openLine_getD {left : Option Text} (h : ∀ l ∈ left, OpenLine l) : OpenLine (left.getD []) := by
  cases left with
  | none => exact openLine_nil
  | some l => exact h l rfl

/-- A raw line, without its last backslash if it goes on, is added to an open line
and leaves one that does not go on. -/
theorem OpenLine.append {p raw : Text} (hp : OpenLine p) (hraw : '\n' ∉ raw) :
    OpenLine (p ++ linePart raw) := by
  have hpart : '\n' ∉ linePart raw := fun h => hraw (linePart_subset raw h)
  have hfeed : '\n' ∉ p ++ linePart raw := by simp [hp.noFeed, hpart]
  refine ⟨hfeed, ?_⟩
  rw [isContinued_eq_goesOn hfeed, goesOn_append hp.goesOn_eq]
  cases h : goesOn raw with
  | false => simp [linePart, h]
  | true =>
    obtain ⟨t, rfl, ht⟩ := goesOn_iff.mp h
    simp [linePart, h, ht]

theorem openLine_joinGroup {p : Text} (hp : OpenLine p) {group : List Text}
    (hgroup : ∀ raw ∈ group, '\n' ∉ raw) : OpenLine (p ++ joinGroup group) := by
  induction group generalizing p with
  | nil => simpa [joinGroup] using hp
  | cons raw group ih =>
    rw [List.forall_mem_cons] at hgroup
    simpa [joinGroup] using ih (hp.append hgroup.1) hgroup.2

/-- **Whether a logical line goes on is decided by its last raw line.** -/
theorem joinLines_cons {left : Option Text} (hleft : ∀ l ∈ left, OpenLine l) {raw : Text}
    (hraw : '\n' ∉ raw) (rest : List Text) :
    joinLines left (raw :: rest) =
      if left.isNone && isComment raw then joinLines none rest
      else if goesOn raw then joinLines (some (left.getD [] ++ linePart raw)) rest
      else (left.getD [] ++ linePart raw) :: joinLines none rest := by
  have hopen := openLine_getD hleft
  have hfeed : '\n' ∉ left.getD [] ++ raw := by simp [hopen.noFeed, hraw]
  have hcont : isContinued (left.getD [] ++ raw) = goesOn raw := by
    rw [isContinued_eq_goesOn hfeed]
    exact goesOn_append hopen.goesOn_eq raw
  simp only [joinLines, hcont]
  cases h : goesOn raw with
  | false => simp [linePart, h]
  | true =>
    obtain ⟨t, rfl, -⟩ := goesOn_iff.mp h
    simp [linePart, h]

/-- Raw lines make logical lines, whatever follows, and leave a line open unless
another one starts after them. -/
theorem joinLines_append {left : Option Text} (hleft : ∀ l ∈ left, OpenLine l) {ls : List Text}
    (hls : ∀ l ∈ ls, '\n' ∉ l) :
    ∃ done left', (∀ l ∈ left', OpenLine l) ∧
      left'.isNone = ls.foldl startsNext left.isNone ∧
      ∀ more, joinLines left (ls ++ more) = done ++ joinLines left' more := by
  induction ls generalizing left with
  | nil => exact ⟨[], left, hleft, rfl, fun _ => rfl⟩
  | cons raw ls ih =>
    have hraw := hls raw List.mem_cons_self
    have hrest := fun l hl => hls l (List.mem_cons_of_mem raw hl)
    have hnext := openLine_some ((openLine_getD hleft).append hraw)
    simp only [List.cons_append, joinLines_cons hleft hraw, List.foldl_cons, startsNext]
    cases hcomment : left.isNone && isComment raw with
    | true => exact ih openLine_none hrest
    | false =>
      cases hon : goesOn raw with
      | true => exact ih hnext hrest
      | false =>
        obtain ⟨done, left', hleft', hstart, hmore⟩ := ih openLine_none hrest
        refine ⟨(left.getD [] ++ linePart raw) :: done, left', hleft', hstart, fun more => ?_⟩
        rw [List.cons_append, ← hmore]
        rfl

/-! ## Groups -/

theorem exists_last (raw : Text) (raws : List Text) :
    ∃ front last rest, raw :: raws = front ++ last :: rest ∧ (∀ r ∈ front, goesOn r = true) ∧
      (goesOn last = true → rest = []) := by
  induction raws generalizing raw with
  | nil => exact ⟨[], raw, [], rfl, by simp, fun _ => rfl⟩
  | cons next raws ih =>
    cases hon : goesOn raw with
    | false => exact ⟨[], raw, next :: raws, rfl, by simp, by simp [hon]⟩
    | true =>
      obtain ⟨front, last, rest, happ, hfront, hlast⟩ := ih next
      refine ⟨raw :: front, last, rest, by rw [happ, List.cons_append], ?_, hlast⟩
      exact List.forall_mem_cons.mpr ⟨hon, hfront⟩

theorem last_unique {front front' rest rest' : List Text} {last last' : Text}
    (hfront : ∀ r ∈ front, goesOn r = true) (hlast : goesOn last = true → rest = [])
    (hfront' : ∀ r ∈ front', goesOn r = true) (hlast' : goesOn last' = true → rest' = [])
    (h : front ++ last :: rest = front' ++ last' :: rest') :
    front = front' ∧ last = last' ∧ rest = rest' := by
  induction front generalizing front' with
  | nil =>
    cases front' with
    | nil =>
      obtain ⟨rfl, rfl⟩ := List.cons.inj h
      exact ⟨rfl, rfl, rfl⟩
    | cons r front' =>
      obtain ⟨rfl, hrest⟩ := List.cons.inj h
      simp [hlast (hfront' last List.mem_cons_self)] at hrest
  | cons r front ih =>
    cases front' with
    | nil =>
      obtain ⟨rfl, hrest⟩ := List.cons.inj h
      simp [hlast' (hfront r List.mem_cons_self)] at hrest
    | cons r' front' =>
      obtain ⟨rfl, htail⟩ := List.cons.inj h
      obtain ⟨rfl, hrest⟩ := ih (fun q hq => hfront q (List.mem_cons_of_mem r hq))
        (fun q hq => hfront' q (List.mem_cons_of_mem r hq)) htail
      exact ⟨rfl, hrest⟩

theorem IsGroup.ne_nil {group rest : List Text} (h : IsGroup group rest) : group ≠ [] := by
  cases h <;> simp

theorem opensWithComment_append {group : List Text} (hne : group ≠ []) (rest : List Text) :
    opensWithComment (group ++ rest) = opensWithComment group := by
  obtain ⟨raw, group, rfl⟩ := List.exists_cons_of_ne_nil hne
  rfl

theorem IsGroup.unique {group rest group' rest' : List Text} (h : IsGroup group rest)
    (h' : IsGroup group' rest') (happ : group ++ rest = group' ++ rest') :
    group = group' ∧ rest = rest' := by
  have hsame : opensWithComment group = opensWithComment group' := by
    rw [← opensWithComment_append h.ne_nil rest, happ, opensWithComment_append h'.ne_nil]
  cases h with
  | comment hcomment =>
    cases h' with
    | comment =>
      obtain ⟨rfl, rfl⟩ := List.cons.inj happ
      exact ⟨rfl, rfl⟩
    | joined hopen' =>
      rw [hopen'] at hsame
      exact absurd (hcomment.symm.trans hsame) (by decide)
  | joined hopen hfront hlast =>
    cases h' with
    | comment hcomment =>
      rw [hopen] at hsame
      exact absurd (hsame.trans hcomment) (by decide)
    | joined _ hfront' hlast' =>
      simp only [List.append_assoc, List.singleton_append] at happ
      obtain ⟨rfl, rfl, rfl⟩ := last_unique hfront hlast hfront' hlast' happ
      exact ⟨rfl, rfl⟩

theorem Grouped.unique {groups groups' : List (List Text)} (h : Grouped groups) (h' : Grouped groups')
    (hflat : groups.flatten = groups'.flatten) : groups = groups' := by
  induction h generalizing groups' with
  | nil =>
    cases h' with
    | nil => rfl
    | cons hgroup _ => simp [hgroup.ne_nil] at hflat
  | cons hgroup _ ih =>
    cases h' with
    | nil => simp [hgroup.ne_nil] at hflat
    | cons hgroup' hgroups' =>
      obtain ⟨rfl, hrest⟩ := hgroup.unique hgroup' hflat
      rw [ih hgroups' hrest]

theorem exists_grouped (raws : List Text) : ∃ groups, groups.flatten = raws ∧ Grouped groups := by
  induction hn : raws.length using Nat.strong_induction_on generalizing raws with
  | _ n ih =>
    cases raws with
    | nil => exact ⟨[], rfl, .nil⟩
    | cons raw raws =>
      cases hcomment : isComment raw with
      | true =>
        obtain ⟨groups, rfl, hgroups⟩ := ih raws.length (by simp [← hn]) raws rfl
        exact ⟨[raw] :: groups, rfl, .cons (.comment hcomment) hgroups⟩
      | false =>
        obtain ⟨front, last, rest, happ, hfront, hlast⟩ := exists_last raw raws
        have hlength : rest.length < n := by
          rw [← hn, happ, List.length_append, List.length_cons]
          omega
        obtain ⟨groups, rfl, hgroups⟩ := ih rest.length hlength rest rfl
        have hall : raw :: raws = (front ++ [last]) ++ groups.flatten := by
          rw [happ, List.append_assoc, List.singleton_append]
        have hopen : opensWithComment (front ++ [last]) = false := by
          rw [← opensWithComment_append (by simp) groups.flatten, ← hall]
          exact hcomment
        exact ⟨(front ++ [last]) :: groups, hall.symm, .cons (.joined hopen hfront hlast) hgroups⟩

/-! ## The logical lines of groups -/

theorem joinLines_front {p : Text} (hp : OpenLine p) {front : List Text}
    (hfeed : ∀ raw ∈ front, '\n' ∉ raw) (hfront : ∀ raw ∈ front, goesOn raw = true) (more : List Text) :
    joinLines (some p) (front ++ more) = joinLines (some (p ++ joinGroup front)) more := by
  induction front generalizing p with
  | nil => simp [joinGroup]
  | cons raw front ih =>
    have hraw := hfeed raw List.mem_cons_self
    have hnext := ih (hp.append hraw) (fun r hr => hfeed r (List.mem_cons_of_mem raw hr))
      fun r hr => hfront r (List.mem_cons_of_mem raw hr)
    rw [List.cons_append, joinLines_cons (openLine_some hp) hraw]
    simpa [hfront raw List.mem_cons_self, joinGroup] using hnext

/-- Where no comment stands, a line may as well be open already, with nothing in
it. -/
theorem joinLines_none {raw : Text} (h : isComment raw = false) (rest : List Text) :
    joinLines none (raw :: rest) = joinLines (some []) (raw :: rest) := by
  simp [joinLines, h]

theorem joinLines_group {group rest : List Text} (h : IsGroup group rest)
    (hfeed : ∀ raw ∈ group, '\n' ∉ raw) :
    joinLines none (group ++ rest) =
      (if opensWithComment group then [] else [joinGroup group]) ++ joinLines none rest := by
  cases h with
  | comment hcomment => simp [joinLines, opensWithComment, hcomment]
  | @joined front last _ hopen hfront hlast =>
    have hfeeds : ∀ raw ∈ front, '\n' ∉ raw := fun r hr => hfeed r (List.mem_append_left _ hr)
    have hleft : OpenLine ([] ++ joinGroup front) := openLine_joinGroup openLine_nil hfeeds
    have hstart : joinLines none (front ++ last :: rest) = joinLines (some []) (front ++ last :: rest) := by
      cases front <;> exact joinLines_none hopen _
    rw [hopen, List.append_assoc, List.singleton_append, hstart, joinLines_front openLine_nil hfeeds hfront,
      joinLines_cons (openLine_some hleft) (hfeed last (by simp))]
    cases hon : goesOn last with
    | false => simp [joinGroup]
    | true =>
      rw [hlast hon]
      simp [joinLines, joinGroup]

theorem joinLines_flatten {groups : List (List Text)} (h : Grouped groups)
    (hfeed : ∀ raw ∈ groups.flatten, '\n' ∉ raw) :
    joinLines none groups.flatten =
      (groups.filter fun group => !opensWithComment group).map joinGroup := by
  induction h with
  | nil => rfl
  | @cons group groups hgroup _ ih =>
    rw [List.flatten_cons, List.forall_mem_append] at hfeed
    rw [List.flatten_cons, joinLines_group hgroup hfeed.1, ih hfeed.2]
    cases hopen : opensWithComment group <;> simp [hopen]

/-- **Logical lines are the groups of raw lines.** The raw lines of a text can be
grouped in exactly one way, and its logical lines are those that the groups make
which are no comments, in order. They hold no line end, and none of them goes on. -/
theorem logicalLines_of_groups (t : Text) :
    ∃ groups, (∀ other, (other.flatten = splitLines t ∧ Grouped other) ↔ other = groups) ∧
      logicalLines t = (groups.filter fun group => !opensWithComment group).map joinGroup ∧
      ∀ l ∈ logicalLines t, '\r' ∉ l ∧ '\n' ∉ l ∧ goesOn l = false := by
  obtain ⟨groups, hflat, hgroups⟩ := exists_grouped (splitLines t)
  have hfeed : ∀ raw ∈ groups.flatten, '\n' ∉ raw := fun raw hraw =>
    not_mem_of_mem_splitLines (hflat ▸ hraw)
  have hlines : logicalLines t = (groups.filter fun group => !opensWithComment group).map joinGroup := by
    rw [logicalLines, ← hflat]
    exact joinLines_flatten hgroups hfeed
  refine ⟨groups, fun other => ?_, hlines, fun l hl => ?_⟩
  · constructor
    · rintro ⟨hflat', hother⟩
      exact hother.unique hgroups (hflat'.trans hflat.symm)
    · rintro rfl
      exact ⟨hflat, hgroups⟩
  · rw [hlines] at hl
    obtain ⟨group, hgroup, rfl⟩ := List.mem_map.mp hl
    have hraw : ∀ raw ∈ group, raw ∈ groups.flatten := fun raw hr =>
      List.mem_flatten_of_mem (List.mem_of_mem_filter hgroup) hr
    have hopen : OpenLine ([] ++ joinGroup group) :=
      openLine_joinGroup openLine_nil fun raw hr => hfeed raw (hraw raw hr)
    refine ⟨fun hret => ?_, hopen.noFeed, hopen.goesOn_eq⟩
    obtain ⟨raw, hr, hc⟩ := mem_joinGroup hret
    exact no_return_of_mem_splitLines (hflat ▸ hraw raw hr) hc

/-- A comment that ends in a backslash, a line that goes on in what would be one,
an empty line, and a backslash where the text ends. -/
example : logicalLines "#a\\\nb\\\\\\\n#c\\\n\\\\\n\n\\".toList =
    ["b\\\\#c\\\\".toList, [], []] := by
  decide

end PhraseGrammar
