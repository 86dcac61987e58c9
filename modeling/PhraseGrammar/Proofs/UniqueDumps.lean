/-
Two stores with the same dump are the same store (`eq_of_dump_eq`). This is no
matter of reading the dump as a script, which gives less than the store that was
dumped: padding, empty values and empty rules are lost. All of them stand in the
dump.

A dump is cut into its lines at the line feeds, since none stands in a line. A
header begins with a star and the line of an option with a digit, so the lines
fall into rules. What is left is that a line tells what it was written for, and it
does: resolving its escapes without trimming it undoes the writing of a value, and
of a name too, where the backslash before a leading space resolves to nothing more
than the space.
-/
import PhraseGrammar.Proofs.DumpLines
import PhraseGrammar.Proofs.Grouping
import PhraseGrammar.Proofs.PathFacts

namespace PhraseGrammar

/-! ## One line -/

theorem resolve_escapeName (name : Text) : resolve (escapeName name) = name := by
  by_cases hhead : name.head? = some ' '
  · obtain ⟨rest, rfl⟩ := List.head?_eq_some_iff.mp hhead
    rw [escapeName_cons_space]
    exact resolve_backslash_escape (.inr rfl)
  · rw [escapeName_of_head hhead, resolve_escape]

theorem headerLine_injective : Function.Injective headerLine := by
  intro name name' h
  have hwritten : escapeName name = escapeName name' := by simpa [headerLine] using h
  rw [← resolve_escapeName name, hwritten, resolve_escapeName]

theorem splitWeight?_line (o : WeightedValue) :
    splitWeight? o.line = some (numeral o.weight, escape o.value) :=
  splitWeight?_eq_some_iff.mpr ⟨numeral_ne_nil _, fun _ hc => isDigit_of_mem_numeral hc, rfl⟩

theorem WeightedValue.line_injective : Function.Injective WeightedValue.line := by
  intro o o' h
  have hsplit := splitWeight?_line o
  rw [h, splitWeight?_line, Option.some.injEq, Prod.mk.injEq] at hsplit
  obtain ⟨hweight, hvalue⟩ := hsplit
  have hw : o.weight = o'.weight := by
    rw [← digitsValue_numeral o.weight, ← hweight, digitsValue_numeral]
  have hv : o.value = o'.value := by rw [← resolve_escape o.value, ← hvalue, resolve_escape]
  cases o
  cases o'
  simp only at hw hv
  rw [hw, hv]

/-! ## Lines of rules -/

theorem isHeader_headerLine (name : Text) : isHeader (headerLine name) = true := rfl

theorem isHeader_line (o : WeightedValue) : isHeader o.line = false := by
  obtain ⟨c, rest, h, hc⟩ := o.line_head
  have hstar : c ≠ '*' := digit_ne hc (by decide)
  simpa [h, isHeader] using hstar

/-- Nothing stands before the first header. -/
def OpensWithHeader (ls : List Text) : Prop := ∀ l ∈ ls.head?, isHeader l = true

theorem opensWithHeader_lines (es : List (Text × Rule)) :
    OpensWithHeader (es.flatMap fun e => e.2.lines) := by
  cases es with
  | nil => simp [OpensWithHeader]
  | cons e es => simp [OpensWithHeader, Rule.lines, isHeader_headerLine]

/-- The options of a rule are told by their lines, which end before the next
header. -/
theorem options_lines_inj {os os' : List WeightedValue} {ls ls' : List Text} (hls : OpensWithHeader ls)
    (hls' : OpensWithHeader ls') (h : os.map (·.line) ++ ls = os'.map (·.line) ++ ls') :
    os = os' ∧ ls = ls' := by
  induction os generalizing os' with
  | nil =>
    cases os' with
    | nil => exact ⟨rfl, h⟩
    | cons o' os' =>
      have hheader := hls o'.line (by rw [List.map_nil, List.nil_append] at h; simp [h])
      rw [isHeader_line] at hheader
      cases hheader
  | cons o os ih =>
    cases os' with
    | nil =>
      have hheader := hls' o.line (by rw [List.map_nil, List.nil_append] at h; simp [← h])
      rw [isHeader_line] at hheader
      cases hheader
    | cons o' os' =>
      obtain ⟨hline, hrest⟩ := List.cons.inj h
      obtain ⟨rfl, hls⟩ := ih hrest
      exact ⟨by rw [WeightedValue.line_injective hline], hls⟩

/-- What a rule says about itself: its name and its options. -/
def Rule.content (r : Rule) : Text × List WeightedValue := (r.name, r.options)

theorem contents_of_lines_eq {es es' : List (Text × Rule)}
    (h : (es.flatMap fun e => e.2.lines) = es'.flatMap fun e => e.2.lines) :
    es.map (·.2.content) = es'.map (·.2.content) := by
  induction es generalizing es' with
  | nil =>
    cases es' with
    | nil => rfl
    | cons e' es' => simp [Rule.lines] at h
  | cons e es ih =>
    cases es' with
    | nil => simp [Rule.lines] at h
    | cons e' es' =>
      simp only [List.flatMap_cons, Rule.lines, List.cons_append] at h
      obtain ⟨hheader, hrest⟩ := List.cons.inj h
      obtain ⟨hoptions, hrest⟩ :=
        options_lines_inj (opensWithHeader_lines es) (opensWithHeader_lines es') hrest
      rw [List.map_cons, List.map_cons, ih hrest, Rule.content, Rule.content,
        headerLine_injective hheader, hoptions]

/-! ## Stores -/

/-- The rule with a name and options, as a store files it. -/
def filedRule (content : Text × List WeightedValue) : Text × Rule :=
  (content.1, ⟨content.1, content.2, weightSum content.2⟩)

theorem Store.WellFormed.rules_eq {s : Store} (h : s.WellFormed) :
    s.rules = (s.rules.map (·.2.content)).map filedRule := by
  rw [List.map_map]
  refine ((List.map_congr_left fun e he => ?_).trans (List.map_id' s.rules)).symm
  obtain ⟨key, name, options, totalWeight⟩ := e
  obtain rfl : name = key := h.filed _ he
  obtain rfl : totalWeight = weightSum options := (h.balanced _ he).total
  rfl

/-- All else in a store follows from the names and the options of its rules. -/
theorem Store.WellFormed.eq_of_contents {s t : Store} (hs : s.WellFormed) (ht : t.WellFormed)
    (h : s.rules.map (·.2.content) = t.rules.map (·.2.content)) : s = t := by
  have hrules : s.rules = t.rules := by rw [hs.rules_eq, ht.rules_eq, h]
  have hstart : s.start = t.start := by rw [hs.start, ht.start, names, names, hrules]
  cases s
  cases t
  simp only at hrules hstart
  rw [hrules, hstart]

/-- A text that was joined tells what it was joined of, if none of it is empty or
has the sign that stands between. -/
theorem eq_of_joinWith_eq {c : Char} {ts us : List Text} (hts : ∀ t ∈ ts, t ≠ [] ∧ c ∉ t)
    (hus : ∀ u ∈ us, u ≠ [] ∧ c ∉ u) (h : joinWith [c] ts = joinWith [c] us) : ts = us := by
  have hnil : ts = [] ↔ us = [] := by
    constructor
    · rintro rfl
      exact by_contra fun hne => joinWith_ne_nil (fun u hu => (hus u hu).1) hne h.symm
    · rintro rfl
      exact by_contra fun hne => joinWith_ne_nil (fun t ht => (hts t ht).1) hne h
  by_cases hempty : ts = []
  · rw [hempty, hnil.mp hempty]
  · rw [← cutAtEach_joinWith hempty fun t ht => (hts t ht).2, h,
      cutAtEach_joinWith (mt hnil.mpr hempty) fun u hu => (hus u hu).2]

theorem line_ne_nil {s : Store} {l : Text} (h : l ∈ s.lines) : l ≠ [] := by
  simp only [Store.lines, List.mem_flatMap, Rule.lines, List.mem_cons, List.mem_map] at h
  obtain ⟨e, -, rfl | ⟨o, -, rfl⟩⟩ := h
  · simp [headerLine]
  · simp [WeightedValue.line]

/-- **A dump tells its store.** Whatever was done to two stores, if they have the
same dump they are the same: their rules in order, with names, options and totals,
and the starting rule. -/
theorem eq_of_dump_eq {s t : Store} (hs : s.Reachable) (ht : t.Reachable) {d : Text}
    (h : s.dump = .ok d) (h' : t.dump = .ok d) : s = t := by
  obtain ⟨-, hjoined⟩ := Store.dump_eq_ok_iff.mp h
  obtain ⟨-, hjoined'⟩ := Store.dump_eq_ok_iff.mp h'
  have hlines : s.lines = t.lines :=
    eq_of_joinWith_eq (fun l hl => ⟨line_ne_nil hl, (plainLine_storeLines hl).noFeed⟩)
      (fun l hl => ⟨line_ne_nil hl, (plainLine_storeLines hl).noFeed⟩) (hjoined.trans hjoined'.symm)
  exact hs.wellFormed.eq_of_contents ht.wellFormed (contents_of_lines_eq hlines)

/-- Spaces and backslashes about a name, a value like a weight, an empty value and a
rule without options, put there by a script and by additions in another order. -/
theorem eq_of_dump_eq_of_other_order :
    let s : Store :=
      ((((Store.empty.read "*\\ \\\\\n4:  \\ 2\\:".toList).store.ensure ['e']).addWeighted ['n'] []
        (.whole 3)).1.addWeighted [' ', '\\'] [' '] (.whole 2)).1
    let t : Store :=
      ((((Store.empty.addWeighted [' ', '\\'] "   2:".toList (.whole 4)).1.addWeighted [' ', '\\'] [' ']
        (.whole 2)).1.ensure ['e']).addWeighted ['n'] [] (.whole 3)).1
    let d : Text := "* \\ \\\\\n4:   2:\n2: \n* e\n* n\n3:".toList
    s.Reachable ∧ t.Reachable ∧ s.dump = .ok d ∧ t.dump = .ok d ∧ s = t := by
  intro s t d
  have hs : s.Reachable := .add _ _ _ (.add _ _ _ (.ensure _ (.read _ .empty)))
  have ht : t.Reachable := .add _ _ _ (.ensure _ (.add _ _ _ (.add _ _ _ .empty)))
  have hd : s.dump = .ok d := by decide +kernel
  have hd' : t.dump = .ok d := by decide +kernel
  exact ⟨hs, ht, hd, hd', eq_of_dump_eq hs ht hd hd'⟩

end PhraseGrammar
