/-
Lines under any mix of line ends. A text that is made of lines, each ended in one of
the three ways, is cut into these lines again, with one exception
(`splitLines_linesText`): where an empty line stands after a carriage return and before
a line feed, there is nothing between the two, and they are one line end. So this
arrangement loses a line, and no other one does (`splitLines_recovers_lines`).

Line ends are made one in a single pass. Two replacements in the whole text come to the
same (`normalizeNewlines_eq_replacements`), that of the pairs first: what it leaves of
the carriage returns are line ends by themselves.
-/
import PhraseGrammar.Proofs.Layout
import PhraseGrammar.Proofs.WrittenForms

namespace PhraseGrammar

/-- How a line ends. -/
inductive LineEnd
  | lineFeed
  | returnFeed
  | carriageReturn
  deriving DecidableEq

/-- What is written at the end of a line. -/
def LineEnd.text : LineEnd → Text
  | .lineFeed => ['\n']
  | .returnFeed => ['\r', '\n']
  | .carriageReturn => ['\r']

/-- A line after another one, with the end of that one. -/
structure NextLine where
  before : LineEnd
  line : Text
  deriving DecidableEq

/-- A line with the line end before it. -/
def NextLine.text (n : NextLine) : Text := n.before.text ++ n.line

/-- The text of lines, of which there is one at least. -/
def linesText (first : Text) (more : List NextLine) : Text := first ++ more.flatMap NextLine.text

/-- A line feed comes next. -/
def opensWithFeed (more : List NextLine) : Bool := more.head?.any (·.before == .lineFeed)

/-- The lines that are not lost: an empty one is lost if it stands after a carriage
return and before a line feed. -/
def keptLines : List NextLine → List Text
  | [] => []
  | n :: more =>
    if n = ⟨.carriageReturn, []⟩ ∧ opensWithFeed more = true then keptLines more
    else n.line :: keptLines more

/-- An empty line stands after a carriage return and before a line feed. -/
def LosesLine (more : List NextLine) : Prop :=
  ∃ front line rest, more = front ++ ⟨.carriageReturn, []⟩ :: ⟨.lineFeed, line⟩ :: rest

/-! ## Line ends made one -/

theorem normalizeNewlines_of_line {l : Text} (h : RawLine l) (t : Text) :
    normalizeNewlines (l ++ t) = l ++ normalizeNewlines t := by
  have hret := h.noReturn
  clear h
  induction l with
  | nil => rfl
  | cons c l ih =>
    simp only [List.mem_cons, not_or] at hret
    rw [List.cons_append, normalizeNewlines_cons (Ne.symm hret.1), ih hret.2, List.cons_append]

theorem normalizeNewlines_lineFeed (t : Text) :
    normalizeNewlines ('\n' :: t) = '\n' :: normalizeNewlines t :=
  normalizeNewlines_cons (by decide) t

theorem normalizeNewlines_returnFeed (t : Text) :
    normalizeNewlines ('\r' :: '\n' :: t) = '\n' :: normalizeNewlines t := by
  simp [normalizeNewlines]

theorem normalizeNewlines_carriageReturn {t : Text} (h : t.head? ≠ some '\n') :
    normalizeNewlines ('\r' :: t) = '\n' :: normalizeNewlines t := by
  cases t with
  | nil => simp [normalizeNewlines]
  | cons d t =>
    have hd : d ≠ '\n' := by simpa using h
    simp [normalizeNewlines, hd]

theorem head?_flatMap_text (more : List NextLine) :
    (more.flatMap NextLine.text).head? = some '\n' ↔ opensWithFeed more = true := by
  cases more with
  | nil => simp [opensWithFeed]
  | cons n more =>
    obtain ⟨e, l⟩ := n
    cases e <;> simp [NextLine.text, opensWithFeed, LineEnd.text]

/-- A line that is kept has one line feed before it, a lost one has nothing. -/
theorem normalizeNewlines_flatMap_text {more : List NextLine} (h : ∀ n ∈ more, RawLine n.line) :
    normalizeNewlines (more.flatMap NextLine.text) = (keptLines more).flatMap ('\n' :: ·) := by
  induction more with
  | nil => rfl
  | cons n more ih =>
    obtain ⟨e, l⟩ := n
    obtain ⟨hl, hmore⟩ := List.forall_mem_cons.mp h
    have ih := ih hmore
    have hrest : normalizeNewlines (l ++ more.flatMap NextLine.text) =
        l ++ (keptLines more).flatMap ('\n' :: ·) := by
      rw [normalizeNewlines_of_line hl, ih]
    rw [List.flatMap_cons, NextLine.text, List.append_assoc, keptLines]
    cases e with
    | lineFeed => simpa [LineEnd.text, normalizeNewlines_lineFeed] using hrest
    | returnFeed => simpa [LineEnd.text, normalizeNewlines_returnFeed] using hrest
    | carriageReturn =>
      by_cases hlost : l = [] ∧ opensWithFeed more = true
      · -- the feed after the return would be a line end without it, too
        obtain ⟨rfl, hfeed⟩ := hlost
        obtain ⟨t, ht⟩ := List.head?_eq_some_iff.mp ((head?_flatMap_text more).mpr hfeed)
        have hone : normalizeNewlines ('\r' :: more.flatMap NextLine.text) =
            normalizeNewlines (more.flatMap NextLine.text) := by
          rw [ht, normalizeNewlines_returnFeed, normalizeNewlines_lineFeed]
        simp [LineEnd.text, hfeed, hone, ih]
      · have hhead : (l ++ more.flatMap NextLine.text).head? ≠ some '\n' := by
          intro hhead
          refine hlost ?_
          cases l with
          | nil => exact ⟨rfl, (head?_flatMap_text more).mp hhead⟩
          | cons c l =>
            obtain rfl : c = '\n' := by simpa using hhead
            exact absurd List.mem_cons_self hl.noFeed
        simpa [LineEnd.text, normalizeNewlines_carriageReturn hhead, hlost] using hrest

/-! ## Lines that are kept -/

theorem keptLines_sublist (more : List NextLine) : (keptLines more).Sublist (more.map (·.line)) := by
  induction more with
  | nil => exact .slnil
  | cons n more ih =>
    rw [keptLines]
    split
    · exact .cons _ ih
    · exact .cons_cons _ ih

theorem losesLine_cons {n : NextLine} {more : List NextLine} :
    LosesLine (n :: more) ↔
      (n = ⟨.carriageReturn, []⟩ ∧ opensWithFeed more = true) ∨ LosesLine more := by
  constructor
  · intro h
    obtain ⟨front, line, rest, h⟩ := h
    cases front with
    | nil =>
      obtain ⟨rfl, rfl⟩ := List.cons.inj h
      exact .inl ⟨rfl, rfl⟩
    | cons _ front =>
      obtain ⟨-, hmore⟩ := List.cons.inj h
      exact .inr ⟨front, line, rest, hmore⟩
  · intro h
    rcases h with ⟨rfl, hfeed⟩ | ⟨front, line, rest, rfl⟩
    · cases more with
      | nil => cases hfeed
      | cons m more =>
        obtain ⟨e, line⟩ := m
        obtain rfl : e = .lineFeed := by simpa [opensWithFeed] using hfeed
        exact ⟨[], line, more, rfl⟩
    · exact ⟨n :: front, line, rest, rfl⟩

theorem keptLines_eq_iff (more : List NextLine) :
    keptLines more = more.map (·.line) ↔ ¬ LosesLine more := by
  induction more with
  | nil => simp [keptLines, LosesLine]
  | cons n more ih =>
    rw [losesLine_cons, keptLines, List.map_cons]
    by_cases hlost : n = ⟨.carriageReturn, []⟩ ∧ opensWithFeed more = true
    · -- too few lines are left
      have hle := (keptLines_sublist more).length_le
      have hne : keptLines more ≠ n.line :: more.map (·.line) := by
        intro heq
        rw [heq, List.length_cons] at hle
        omega
      rw [if_pos hlost]
      exact iff_of_false hne (not_not_intro (.inl hlost))
    · simp [hlost, ih]

theorem cutAtLineFeeds_flatMap {first : Text} (hfirst : '\n' ∉ first) {ls : List Text}
    (hls : ∀ l ∈ ls, '\n' ∉ l) : cutAtLineFeeds (first ++ ls.flatMap ('\n' :: ·)) = first :: ls := by
  induction ls generalizing first with
  | nil => simpa using cutAtLineFeeds_of_not_mem hfirst
  | cons l ls ih =>
    obtain ⟨hl, hls⟩ := List.forall_mem_cons.mp hls
    rw [List.flatMap_cons, List.cons_append, cutAtLineFeeds_append, ih hl hls,
      cutAtLineFeeds_of_not_mem hfirst]
    rfl

/-- The text of lines is cut into the lines that are not lost. -/
theorem splitLines_linesText {first : Text} (hfirst : RawLine first) {more : List NextLine}
    (hmore : ∀ n ∈ more, RawLine n.line) :
    splitLines (linesText first more) = first :: keptLines more := by
  have hkept : ∀ l ∈ keptLines more, '\n' ∉ l := by
    intro l hl
    obtain ⟨n, hn, rfl⟩ := List.mem_map.mp ((keptLines_sublist more).subset hl)
    exact (hmore n hn).noFeed
  rw [splitLines, linesText, normalizeNewlines_of_line hfirst, normalizeNewlines_flatMap_text hmore]
  exact cutAtLineFeeds_flatMap hfirst.noFeed hkept

/-! ## Two replacements -/

/-- Making line ends one is two replacements: of the pairs first, then of every carriage
return that is left. -/
theorem normalizeNewlines_eq_replacements (t : Text) :
    normalizeNewlines t = replaceEach '\r' ['\n'] (replaceReturnFeeds t) := by
  induction t using normalizeNewlines.induct with
  | case1 => rfl
  | case2 => rfl
  | case3 c hc => simp [normalizeNewlines, replaceReturnFeeds, replaceEach, hc]
  | case4 t ih => simp [normalizeNewlines, replaceReturnFeeds, replaceEach, ih]
  | case5 d t hd ih => simp [normalizeNewlines, replaceReturnFeeds, replaceEach, hd, ih]
  | case6 c d t hc ih => simp [normalizeNewlines, replaceReturnFeeds, replaceEach, hc, ih]

/-- **Lines are recovered under any mix of line ends**, but for an empty one between a
carriage return and a line feed, which are one line end then. It does not matter
whether line ends are made one before a text is cut, and to make them one is to replace
every pair and then every carriage return that is left. -/
theorem splitLines_recovers_lines :
    (∀ (first : Text) (more : List NextLine), (∀ l ∈ first :: more.map (·.line), RawLine l) →
      (splitLines (linesText first more) = first :: more.map (·.line) ↔ ¬ LosesLine more)) ∧
    (∀ t, splitLines (normalizeNewlines t) = splitLines t) ∧
    ∀ t, splitLines t = cutAtLineFeeds (replaceEach '\r' ['\n'] (replaceReturnFeeds t)) := by
  refine ⟨fun first more h => ?_, fun t => ?_, fun t => ?_⟩
  · rw [List.forall_mem_cons, List.forall_mem_map] at h
    rw [splitLines_linesText h.1 h.2, List.cons.injEq, keptLines_eq_iff]
    simp
  · have honce := normalizeNewlines_of_not_mem (no_return_normalizeNewlines t)
    rw [splitLines, splitLines, honce]
  · rw [splitLines, normalizeNewlines_eq_replacements]

/-- All three line ends about empty lines that are kept, and the one arrangement in
which one is lost. -/
theorem splitLines_recovers_lines_about_empty_ones :
    let kept : List NextLine :=
      [⟨.carriageReturn, []⟩, ⟨.returnFeed, []⟩, ⟨.lineFeed, []⟩, ⟨.lineFeed, ['b']⟩,
        ⟨.carriageReturn, []⟩, ⟨.carriageReturn, []⟩]
    let lost : List NextLine := [⟨.lineFeed, ['b']⟩, ⟨.carriageReturn, []⟩, ⟨.lineFeed, []⟩]
    (∀ l ∈ ['a'] :: kept.map (·.line), RawLine l) ∧
      splitLines (linesText ['a'] kept) = ['a'] :: kept.map (·.line) ∧
      (∀ l ∈ ['a'] :: lost.map (·.line), RawLine l) ∧
      splitLines (linesText ['a'] lost) ≠ ['a'] :: lost.map (·.line) := by
  intro kept lost
  have hnil : RawLine [] := ⟨by simp, by simp⟩
  have ha : RawLine ['a'] := ⟨by decide, by decide⟩
  have hb : RawLine ['b'] := ⟨by decide, by decide⟩
  have hkept : ∀ l ∈ ['a'] :: kept.map (·.line), RawLine l := by simp [kept, hnil, ha, hb]
  have hlost : ∀ l ∈ ['a'] :: lost.map (·.line), RawLine l := by simp [lost, hnil, ha, hb]
  have hall : ¬ LosesLine kept := (keptLines_eq_iff kept).mp (by decide)
  have hone : LosesLine lost := ⟨[⟨.lineFeed, ['b']⟩], [], [], rfl⟩
  obtain ⟨hrecovers, -, -⟩ := splitLines_recovers_lines
  exact ⟨hkept, (hrecovers _ kept hkept).mpr hall, hlost,
    fun h => (hrecovers _ lost hlost).mp h hone⟩

end PhraseGrammar
