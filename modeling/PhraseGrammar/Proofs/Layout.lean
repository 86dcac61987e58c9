/-
Layout that a script does not show: comments, lines of nothing but padding, and
values that are cut into several raw lines. A script reads the same with them and
without (`read_of_layoutEdits`).

A comment or a line of padding may be put where a logical line starts. A raw line
may be cut wherever it has an even number of backslashes before the cut, also
before a `#` or a `*`, or where it goes on from another line itself; the backslash
that is put there is the one that is taken away when the pieces are joined.
-/
import Mathlib.Logic.Relation
import PhraseGrammar.Proofs.LineGroups
import PhraseGrammar.Proofs.ScriptAdditions

namespace PhraseGrammar

/-- A raw line holds no line end. -/
structure RawLine (l : Text) : Prop where
  noReturn : '\r' ∉ l
  noFeed : '\n' ∉ l

/-- The raw line is a comment, and stands where a logical line starts. -/
def isDropped (before : List Text) (raw : Text) : Bool := startsLine before && isComment raw

/-- An edit of raw lines that leaves what they say. -/
inductive LayoutEdit : List Text → List Text → Prop
  | comment (before after : List Text) (line : Text) : startsLine before = true →
      isComment line = true → RawLine line → LayoutEdit (before ++ after) (before ++ line :: after)
  | padding (before after : List Text) (line : Text) : startsLine before = true →
      (∀ c ∈ line, isPadding c = true) → LayoutEdit (before ++ after) (before ++ line :: after)
  | cut (before after : List Text) (x y : Text) : isDropped before (x ++ y) = false →
      goesOn x = false → LayoutEdit (before ++ (x ++ y) :: after) (before ++ (x ++ ['\\']) :: y :: after)

theorem rawLine_of_mem_splitLines {t l : Text} (h : l ∈ splitLines t) : RawLine l :=
  ⟨no_return_of_mem_splitLines h, not_mem_of_mem_splitLines h⟩

/-! ## What an edit does to raw lines -/

theorem rawLine_of_padding {line : Text} (h : ∀ c ∈ line, isPadding c = true) : RawLine line := by
  constructor <;> exact fun hc => absurd (h _ hc) (by decide)

theorem rawLine_append {x y : Text} : RawLine (x ++ y) ↔ RawLine x ∧ RawLine y := by
  constructor
  · rintro ⟨hret, hfeed⟩
    rw [List.mem_append, not_or] at hret hfeed
    exact ⟨⟨hret.1, hfeed.1⟩, ⟨hret.2, hfeed.2⟩⟩
  · rintro ⟨hx, hy⟩
    exact ⟨by simp [hx.noReturn, hy.noReturn], by simp [hx.noFeed, hy.noFeed]⟩

namespace LayoutEdit

theorem ne_nil {raws raws' : List Text} (h : LayoutEdit raws raws') : raws' ≠ [] := by
  cases h <;> simp

theorem rawLines {raws raws' : List Text} (h : LayoutEdit raws raws') (hraws : ∀ l ∈ raws, RawLine l) :
    ∀ l ∈ raws', RawLine l := by
  cases h with
  | comment before after line _ _ hline =>
    rw [List.forall_mem_append] at hraws
    rw [List.forall_mem_append, List.forall_mem_cons]
    exact ⟨hraws.1, hline, hraws.2⟩
  | padding before after line _ hline =>
    rw [List.forall_mem_append] at hraws
    rw [List.forall_mem_append, List.forall_mem_cons]
    exact ⟨hraws.1, rawLine_of_padding hline, hraws.2⟩
  | cut before after x y _ _ =>
    rw [List.forall_mem_append, List.forall_mem_cons, rawLine_append] at hraws
    obtain ⟨hbefore, ⟨hx, hy⟩, hafter⟩ := hraws
    rw [List.forall_mem_append, List.forall_mem_cons, List.forall_mem_cons, rawLine_append]
    exact ⟨hbefore, ⟨hx, by decide, by decide⟩, hy, hafter⟩

end LayoutEdit

/-! ## What it does to logical lines -/

theorem joinLines_comment {raw : Text} (h : isComment raw = true) (rest : List Text) :
    joinLines none (raw :: rest) = joinLines none rest := by
  simp [joinLines, h]

/-- Where a logical line starts, nothing is left open. -/
theorem joinLines_of_startsLine {before : List Text} (hstart : startsLine before = true)
    (hbefore : ∀ l ∈ before, RawLine l) :
    ∃ done, ∀ more, joinLines none (before ++ more) = done ++ joinLines none more := by
  obtain ⟨done, left, -, hleft, hmore⟩ :=
    joinLines_append openLine_none fun l hl => (hbefore l hl).noFeed
  obtain rfl : left = none := Option.isNone_iff_eq_none.mp (hleft.trans hstart)
  exact ⟨done, hmore⟩

theorem joinLines_padding {raw : Text} (h : ∀ c ∈ raw, isPadding c = true) (rest : List Text) :
    joinLines none (raw :: rest) = raw :: joinLines none rest := by
  have hhead : isComment raw = false := by
    cases raw with
    | nil => rfl
    | cons c raw =>
      have hc : c ≠ '#' := by
        rintro rfl
        exact absurd (h _ List.mem_cons_self) (by decide)
      simp [isComment, hc]
  have hlast : goesOn raw = false := by
    refine Bool.eq_false_iff.mpr fun hon => ?_
    obtain ⟨t, rfl, -⟩ := goesOn_iff.mp hon
    exact absurd (h '\\' (by simp)) (by decide)
  rw [joinLines_cons openLine_none (rawLine_of_padding h).noFeed]
  simp [hhead, hlast, linePart]

theorem joinLines_cut {p x y : Text} (hp : OpenLine p) (hx : RawLine x) (hy : RawLine y)
    (heven : goesOn x = false) (rest : List Text) :
    joinLines (some p) ((x ++ ['\\']) :: y :: rest) = joinLines (some p) ((x ++ y) :: rest) := by
  have hfirst : RawLine (x ++ ['\\']) := rawLine_append.mpr ⟨hx, by decide, by decide⟩
  have hon : goesOn (x ++ ['\\']) = true := goesOn_iff.mpr ⟨x, rfl, heven⟩
  have hpart : linePart (x ++ ['\\']) = x := by simp [linePart, hon]
  have hwhole : linePart (x ++ y) = x ++ linePart y := by
    rw [linePart, linePart, goesOn_append heven]
    cases h : goesOn y with
    | false => rfl
    | true =>
      obtain ⟨u, rfl, -⟩ := goesOn_iff.mp h
      simp [← List.append_assoc]
  have hnext : OpenLine (p ++ x) := hpart ▸ hp.append hfirst.noFeed
  rw [joinLines_cons (openLine_some hp) hfirst.noFeed, hon, hpart, joinLines_cons (openLine_some hp)
    (rawLine_append.mpr ⟨hx, hy⟩).noFeed, goesOn_append heven, hwhole]
  simp [joinLines_cons (openLine_some hnext) hy.noFeed]

theorem isComment_cut {x y : Text} (h : isComment (x ++ y) = false) : isComment (x ++ ['\\']) = false := by
  cases x with
  | nil => rfl
  | cons c x => exact h

theorem read_padding {line : Text} (h : ∀ c ∈ line, isPadding c = true) :
    ScriptLine.read line = .ok (.value [] 1) := by
  have hnone : unescape line = [] := by
    have hdrop : line.dropWhile isPadding = [] := List.dropWhile_eq_nil_iff.mpr h
    simp [unescape, trimBoth, hdrop, resolve]
  have hvalue : readValue line = .ok ([], 1) := by
    rw [readValue_of_no_split (by rw [hnone]; rfl), hnone]
  unfold ScriptLine.read
  split
  · exact absurd (h '*' List.mem_cons_self) (by decide)
  · rw [hvalue]
    rfl

theorem lineAdditions_append_congr {more more' : List Text}
    (h : ∀ rule, lineAdditions rule more = lineAdditions rule more') (rule : Text) (ls : List Text) :
    lineAdditions rule (ls ++ more) = lineAdditions rule (ls ++ more') := by
  obtain ⟨rule', happend⟩ := lineAdditions_append rule ls
  rw [happend, happend, h]

/-- **An edit of the layout changes nothing that is asked for.** -/
theorem LayoutEdit.lineAdditions_eq {raws raws' : List Text} (h : LayoutEdit raws raws')
    (hraws : ∀ l ∈ raws, RawLine l) (rule : Text) :
    lineAdditions rule (joinLines none raws') = lineAdditions rule (joinLines none raws) := by
  cases h with
  | comment before after line hstart hcomment _ =>
    obtain ⟨done, hmore⟩ := joinLines_of_startsLine hstart (List.forall_mem_append.mp hraws).1
    rw [hmore, hmore, joinLines_comment hcomment]
  | padding before after line hstart hline =>
    obtain ⟨done, hmore⟩ := joinLines_of_startsLine hstart (List.forall_mem_append.mp hraws).1
    rw [hmore, hmore, joinLines_padding hline]
    exact lineAdditions_append_congr (fun _ => lineAdditions_blank (read_padding hline)) rule done
  | cut before after x y hkept heven =>
    rw [List.forall_mem_append, List.forall_mem_cons, rawLine_append] at hraws
    obtain ⟨hbefore, ⟨hx, hy⟩, -⟩ := hraws
    obtain ⟨done, left, hopen, hleft, hmore⟩ :=
      joinLines_append openLine_none fun l hl => (hbefore l hl).noFeed
    rw [hmore, hmore]
    cases left with
    | some p => rw [joinLines_cut (hopen p rfl) hx hy heven]
    | none =>
      have hstart : startsLine before = true := hleft.symm
      have hcomment : isComment (x ++ y) = false := by simpa [isDropped, hstart] using hkept
      rw [joinLines_none (isComment_cut hcomment), joinLines_cut openLine_nil hx hy heven,
        ← joinLines_none hcomment]

/-! ## Scripts -/

theorem layoutEdits_keep {raws raws' : List Text} (h : Relation.ReflTransGen LayoutEdit raws raws')
    (hne : raws ≠ []) (hraws : ∀ l ∈ raws, RawLine l) :
    raws' ≠ [] ∧ (∀ l ∈ raws', RawLine l) ∧
      lineAdditions [] (joinLines none raws') = lineAdditions [] (joinLines none raws) := by
  induction h with
  | refl => exact ⟨hne, hraws, rfl⟩
  | tail _ hedit ih =>
    obtain ⟨-, hmid, hadds⟩ := ih
    exact ⟨hedit.ne_nil, hedit.rawLines hmid, (hedit.lineAdditions_eq hmid []).trans hadds⟩

/-- **The layout of a script does not show in what it does.** Put comments and lines
of padding where logical lines start, and cut raw lines that are no comments after
an even number of backslashes, as often as you like: there is a text of these raw
lines, and each such text reads as the script did, into any store, with the same
fault if there is one. -/
theorem read_of_layoutEdits {t : Text} {raws : List Text}
    (h : Relation.ReflTransGen LayoutEdit (splitLines t) raws) :
    splitLines (joinWith ['\n'] raws) = raws ∧
      ∀ (t' : Text) (s : Store), splitLines t' = raws → s.read t' = s.read t := by
  obtain ⟨hne, hraws, hadds⟩ := layoutEdits_keep h (cutAtLineFeeds_ne_nil _) fun l hl =>
    rawLine_of_mem_splitLines hl
  refine ⟨splitLines_joinWith hne (fun l hl => (hraws l hl).noReturn) fun l hl => (hraws l hl).noFeed,
    fun t' s ht' => ?_⟩
  have hscript : scriptAdditions t' = scriptAdditions t := by
    rw [scriptAdditions, logicalLines, ht', hadds]
    rfl
  rw [s.read_eq, s.read_eq, hscript]

/-- A comment after one that ends in a backslash; cuts before a star, after two
backslashes, and before a `#` in a line that goes on already; and padding at the end.
The lines of the new text end in three ways. -/
theorem read_of_layoutEdits_in_chain :
    let t : Text := "#\\\n*r\na\\\\b\\\n#".toList
    let t' : Text := "#\\\n#x\\\r\n\\\r*r\na\\\\\\\nb\\\n\\\n#\n \t".toList
    let s : Store := ⟨[(['q'], ⟨['q'], [⟨['x'], 5⟩], 5⟩)], some ['q']⟩
    Relation.ReflTransGen LayoutEdit (splitLines t) (splitLines t') ∧ s.read t' = s.read t := by
  intro t t' s
  let first : Text := ['#', '\\']
  let second : Text := ['#', 'x', '\\']
  let star : Text := ['*', 'r']
  let left : Text := ['a', '\\', '\\']
  let right : Text := ['b', '\\']
  have hraws : splitLines t = [first, star, left ++ right, ['#']] := by decide
  have hraws' : splitLines t' =
      [first, second, ['\\'], star, left ++ ['\\'], right, ['\\'], ['#'], [' ', '\t']] := by decide
  have hcomment := LayoutEdit.comment [first] [star, left ++ right, ['#']] second (by decide)
    (by decide) ⟨by decide, by decide⟩
  have hstar := LayoutEdit.cut [first, second] [left ++ right, ['#']] [] star (by decide) (by decide)
  have hvalue := LayoutEdit.cut [first, second, ['\\'], star] [['#']] left right (by decide) (by decide)
  have hchain := LayoutEdit.cut [first, second, ['\\'], star, left ++ ['\\'], right] [] [] ['#']
    (by decide) (by decide)
  have hpadding := LayoutEdit.padding
    [first, second, ['\\'], star, left ++ ['\\'], right, ['\\'], ['#']] [] [' ', '\t'] (by decide) (by simp [isPadding])
  have hedits : Relation.ReflTransGen LayoutEdit (splitLines t) (splitLines t') := by
    rw [hraws, hraws']
    exact ((((Relation.ReflTransGen.single hcomment).tail hstar).tail hvalue).tail hchain).tail hpadding
  exact ⟨hedits, (read_of_layoutEdits hedits).2 t' s rfl⟩

end PhraseGrammar
