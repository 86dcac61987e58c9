/-
What stops the reading of sources, and what it leaves. A script has a fault
exactly if one of its lines has a weight of too many digits (`overlong_iff`),
whatever the store is that it is read into. So whether one of several sources
stops the reading does not depend on their order, nor on what was read before
(`readSources_fault_iff`).

A source that cannot be read is counted and reported instead
(`readSources_failures_iff`). What was read has weights that can be written
(`writable_readSources`), since they were written in a script.
-/
import PhraseGrammar.Log
import PhraseGrammar.Proofs.RoundTrip

namespace PhraseGrammar

/-! ## Weights of too many digits -/

/-- A value line with a weight that has too many digits. -/
def LongWeight (line : Text) : Prop :=
  line.head? ≠ some '*' ∧ ∃ digits value, unescape line = digits ++ ':' :: value ∧
    (∀ c ∈ digits, c.isDigit = true) ∧ digitLimit < digits.length

/-- The script has a value line with a weight that has too many digits. -/
def Overlong (script : Text) : Prop := ∃ line ∈ logicalLines script, LongWeight line

theorem readNumeral_error_iff {ds : Text} : (∃ e, readNumeral ds = .error e) ↔ digitLimit < ds.length := by
  unfold readNumeral
  split
  · next h => exact ⟨fun _ => h, fun _ => ⟨_, rfl⟩⟩
  · next h => simp [h]

theorem readValue_of_long_weight {line digits value : Text} (hline : unescape line = digits ++ ':' :: value)
    (hdigits : ∀ c ∈ digits, c.isDigit = true) (hlong : digitLimit < digits.length) :
    readValue line = .error (.reading digits.length) := by
  have hne : digits ≠ [] := by
    rintro rfl
    exact absurd hlong (Nat.not_lt_zero _)
  rw [readValue_of_split (splitWeight?_eq_some_iff.mpr ⟨hne, hdigits, hline⟩), readNumeral, if_pos hlong]
  rfl

theorem readValue_error_iff {line : Text} :
    (∃ e, readValue line = .error e) ↔ ∃ digits value, unescape line = digits ++ ':' :: value ∧
      (∀ c ∈ digits, c.isDigit = true) ∧ digitLimit < digits.length := by
  constructor
  · rintro ⟨e, h⟩
    cases hsplit : splitWeight? (unescape line) with
    | none =>
      rw [readValue_of_no_split hsplit] at h
      cases h
    | some p =>
      obtain ⟨digits, value⟩ := p
      rw [readValue_of_split hsplit] at h
      obtain ⟨-, hdigits, hline⟩ := splitWeight?_eq_some_iff.mp hsplit
      cases hn : readNumeral digits with
      | ok n =>
        rw [hn] at h
        cases h
      | error e' => exact ⟨digits, value, hline, hdigits, readNumeral_error_iff.mp ⟨e', hn⟩⟩
  · rintro ⟨digits, value, hline, hdigits, hlong⟩
    exact ⟨_, readValue_of_long_weight hline hdigits hlong⟩

theorem read_error_iff {line : Text} : (∃ e, ScriptLine.read line = .error e) ↔ LongWeight line := by
  rw [LongWeight, ← readValue_error_iff]
  unfold ScriptLine.read
  split
  · simp
  · next hstar =>
    have hhead : line.head? ≠ some '*' := by
      intro h
      obtain ⟨rest, rfl⟩ := List.head?_eq_some_iff.mp h
      exact hstar rest rfl
    cases readValue line with
    | error e => simp [hhead, Except.map]
    | ok p => simp [Except.map]

theorem lineAdditions_fault_iff {rule : Text} {ls : List Text} :
    (lineAdditions rule ls).2.isSome = true ↔ ∃ line ∈ ls, LongWeight line := by
  induction ls generalizing rule with
  | nil => simp [lineAdditions]
  | cons line ls ih =>
    have hline : LongWeight line ↔ ∃ e, ScriptLine.read line = .error e := read_error_iff.symm
    rw [List.exists_mem_cons_iff, hline]
    cases hread : ScriptLine.read line with
    | error e => simp [lineAdditions_error hread]
    | ok l =>
      cases l with
      | header name => simp [lineAdditions_header hread, ih]
      | value value weight =>
        by_cases hne : value = []
        · subst hne
          simp [lineAdditions_blank hread, ih]
        · simp [lineAdditions_value hne hread, ih]

/-- **A script is not read to its end exactly if one of its weights has too
many digits.** -/
theorem overlong_iff {s : Store} {script : Text} :
    (s.read script).fault.isSome = true ↔ Overlong script := by
  rw [Store.read_eq]
  exact lineAdditions_fault_iff

theorem read_of_long_weight {line digits value : Text} (hstar : line.head? ≠ some '*')
    (hline : unescape line = digits ++ ':' :: value) (hdigits : ∀ c ∈ digits, c.isDigit = true)
    (hlong : digitLimit < digits.length) :
    ScriptLine.read line = .error (.reading digits.length) := by
  unfold ScriptLine.read
  split
  · exact absurd rfl hstar
  · rw [readValue_of_long_weight hline hdigits hlong]
    rfl

/-- **Reading stops at the first weight of too many digits.** A script has a fault
exactly if a line that is no header starts with too many digits and a colon, once
its escapes are resolved. For the first such line the fault tells the number of its
digits, and the store is what the lines before it make of the given one. -/
theorem read_stops_at_long_weight (s : Store) (script : Text) :
    ((s.read script).fault.isSome = true ↔ ∃ line ∈ logicalLines script, LongWeight line) ∧
      ∀ before line after digits value, logicalLines script = before ++ line :: after →
        (∀ l ∈ before, ¬ LongWeight l) → line.head? ≠ some '*' →
        unescape line = digits ++ ':' :: value → (∀ c ∈ digits, c.isDigit = true) →
        digitLimit < digits.length →
          (readLines s [] 0 before).fault = none ∧
            s.read script = { readLines s [] 0 before with fault := some (.reading digits.length) } := by
  refine ⟨overlong_iff, ?_⟩
  intro before line after digits value hlines hbefore hstar hline hdigits hlong
  have hshort : (lineAdditions [] before).2 = none := by
    rw [← Option.not_isSome_iff_eq_none, lineAdditions_fault_iff]
    rintro ⟨l, hl, h⟩
    exact hbefore l hl h
  have hadds : scriptAdditions script = ((lineAdditions [] before).1, some (.reading digits.length)) := by
    obtain ⟨rule, happend⟩ := lineAdditions_append [] before
    rw [scriptAdditions, hlines, happend, hshort,
      lineAdditions_error (read_of_long_weight hstar hline hdigits hlong), List.append_nil]
  rw [readLines_eq, s.read_eq, hadds]
  exact ⟨hshort, by simp⟩

/-- The digits of a weight, the first of them escaped, go past the limit by one; the
line has no value, and a line after it is not read. -/
theorem read_stops_at_escaped_digit :
    let zeros : Text := List.replicate 4300 '0'
    let line : Text := '\\' :: '0' :: (zeros ++ [':'])
    let script : Text := joinWith ['\n'] ["*r".toList, "x".toList, line, "y".toList]
    let s : Store := ⟨[(['q'], ⟨['q'], [⟨['z'], 5⟩], 5⟩)], some ['q']⟩
    logicalLines script = ["*r".toList, "x".toList, line, "y".toList] ∧
      unescape line = '0' :: zeros ++ [':'] ∧
      s.read script = ⟨⟨s.rules ++ [(['r'], ⟨['r'], [⟨['x'], 1⟩], 1⟩)], some ['q']⟩, 1,
        some (.reading 4301)⟩ := by
  intro zeros line script s
  have hlength : zeros.length = 4300 := List.length_replicate
  have hzeros : ∀ c ∈ zeros, c = '0' := fun c hc => (List.mem_replicate.mp hc).2
  clear_value zeros
  have happ : line = ('\\' :: '0' :: zeros) ++ [':'] := rfl
  have hmem : ∀ c ∈ line, c ∈ ['\\', '0', ':'] := by
    intro c hc
    simp only [line, List.mem_cons, List.mem_append, List.not_mem_nil, or_false] at hc ⊢
    rcases hc with hc | hc | hc | hc
    · exact .inl hc
    · exact .inr (.inl hc)
    · exact .inr (.inl (hzeros c hc))
    · exact .inr (.inr hc)
  have hplain : PlainLine line := by
    have hret : '\r' ∉ line := fun h => absurd (hmem _ h) (by decide)
    have hfeed : '\n' ∉ line := fun h => absurd (hmem _ h) (by decide)
    refine ⟨hret, hfeed, rfl, ?_⟩
    rw [isContinued_of_no_feed hfeed, happ, trailingBackslashes_concat]
    rfl
  have hlines : logicalLines script = ["*r".toList, "x".toList, line, "y".toList] := by
    refine logicalLines_joinWith (by simp) ?_
    simp only [List.forall_mem_cons, List.not_mem_nil, false_implies, implies_true, and_true]
    exact ⟨⟨by decide, by decide, by decide, by decide⟩, ⟨by decide, by decide, by decide, by decide⟩,
      hplain, by decide, by decide, by decide, by decide⟩
  have hline : unescape line = ('0' :: zeros) ++ [':'] := by
    have htrim : trimBoth isPadding line = line := trimBoth_eq_self fun c hc => by
      have hpad : ∀ c ∈ ['\\', '0', ':'], isPadding c = false := by simp [isPadding]
      exact hpad c (hmem c hc)
    have hpair : resolve line = '0' :: resolve (zeros ++ [':']) := rfl
    have hback : '\\' ∉ zeros ++ [':'] := by
      rw [List.mem_append]
      rintro (h | h)
      · exact absurd (hzeros _ h) (by decide)
      · exact absurd h (by decide)
    rw [unescape, htrim, hpair, resolve_eq_self hback]
    rfl
  have hbefore : ∀ l ∈ ["*r".toList, "x".toList], ¬ LongWeight l := by
    have hx : unescape "x".toList = "x".toList := by decide
    simp only [List.forall_mem_cons, List.not_mem_nil, false_implies, implies_true, and_true]
    refine ⟨fun h => h.1 rfl, ?_⟩
    rintro ⟨-, digits, value, h, -⟩
    have hcolon : ':' ∈ unescape "x".toList := by rw [h]; simp
    exact absurd (hx ▸ hcolon) (by decide)
  have hdigits : ∀ c ∈ '0' :: zeros, c.isDigit = true := by
    intro c hc
    rcases List.mem_cons.mp hc with rfl | hc
    · decide
    · rw [hzeros c hc]
      decide
  have hlong : digitLimit < ('0' :: zeros).length := by
    rw [List.length_cons, hlength]
    decide
  obtain ⟨-, hread⟩ := (read_stops_at_long_weight s script).2 _ line ["y".toList] _ [] hlines hbefore
    (by simp [line]) hline hdigits hlong
  refine ⟨hlines, hline, ?_⟩
  rw [hread, List.length_cons, hlength]
  have hstore : readLines s [] 0 ["*r".toList, "x".toList] =
      ⟨⟨s.rules ++ [(['r'], ⟨['r'], [⟨['x'], 1⟩], 1⟩)], some ['q']⟩, 1, none⟩ := by decide
  rw [hstore]

theorem not_overlong_nil : ¬ Overlong [] := by
  have hfault : (Store.empty.read []).fault = none := rfl
  rw [← overlong_iff (s := .empty), hfault]
  simp

/-! ## One source -/

/-- A source that stops the reading: a name that no file can have, or a text
that cannot be read to its end. -/
inductive StopsReading (tree : FileTree) (stdin : Text) : Text → Prop
  | stdin : Overlong stdin → StopsReading tree stdin stdinName
  | name {name : Text} : name ≠ stdinName → (Path.ofText name).hasNul = true →
      StopsReading tree stdin name
  | file {name text : Text} : name ≠ stdinName → tree.readText (Path.ofText name) = .ok text →
      Overlong text → StopsReading tree stdin name

/-- A source that can be opened: the standard input, or a file that holds text. -/
def Readable (tree : FileTree) (name : Text) : Prop :=
  name = stdinName ∨ ∃ text, tree.readText (Path.ofText name) = .ok text

theorem readText_of_nul {tree : FileTree} {p : Path} (h : p.hasNul = true) :
    tree.readText p = .error .nulInPath := by
  rw [FileTree.readText, if_pos h]

theorem hasNul_of_readText {tree : FileTree} {p : Path} (h : tree.readText p = .error .nulInPath) :
    p.hasNul = true := by
  cases hnul : p.hasNul with
  | true => rfl
  | false =>
    rw [FileTree.readText, if_neg (by simp [hnul])] at h
    split at h
    · cases h
    · split at h <;> cases h

theorem stopsReading_stdin_iff {tree : FileTree} {stdin : Text} :
    StopsReading tree stdin stdinName ↔ Overlong stdin := by
  constructor
  · intro h
    cases h with
    | stdin h => exact h
    | name hne | file hne => exact absurd rfl hne
  · exact .stdin

theorem stopsReading_file_iff {tree : FileTree} {stdin name : Text} (hne : name ≠ stdinName) :
    StopsReading tree stdin name ↔
      tree.readText (Path.ofText name) = .error .nulInPath ∨
        ∃ text, tree.readText (Path.ofText name) = .ok text ∧ Overlong text := by
  constructor
  · intro h
    cases h with
    | stdin => exact absurd rfl hne
    | name _ hnul => exact .inl (readText_of_nul hnul)
    | file _ htext hlong => exact .inr ⟨_, htext, hlong⟩
  · rintro (h | ⟨text, htext, hlong⟩)
    · exact .name hne (hasNul_of_readText h)
    · exact .file hne htext hlong

/-- Once the standard input is used up it stops nothing, so if it did not
before, the same sources stop the reading. -/
theorem stopsReading_nil_iff {tree : FileTree} {stdin : Text} (h : ¬ Overlong stdin) (name : Text) :
    StopsReading tree [] name ↔ StopsReading tree stdin name := by
  by_cases hne : name = stdinName
  · subst hne
    simp only [stopsReading_stdin_iff, h, not_overlong_nil]
  · rw [stopsReading_file_iff hne, stopsReading_file_iff hne]

/-! ## Several sources -/

section Sources

variable {tree : FileTree} {s : Store} {stdin name : Text}

/-- A text stops the reading, or adds to the store. -/
theorem readSources_of_text (s : Store) (rest : List Text) {text stdin' : Text}
    (h : readSource tree stdin name = (.ok text, stdin')) :
    let t := s.addAll (scriptAdditions text).1
    let after := readSources tree t stdin' rest
    (Overlong text ∧ ∃ reports e,
        readSources tree s stdin (name :: rest) = ⟨t, stdin', 0, reports, some e⟩) ∨
      (¬ Overlong text ∧ ∃ reports,
        readSources tree s stdin (name :: rest) = { after with reports := reports ++ after.reports }) := by
  have hstore : (s.read text).store = s.addAll (scriptAdditions text).1 := by rw [Store.read_eq]
  rw [readSources, h, ← overlong_iff (s := s), ← hstore]
  simp only
  cases hf : (s.read text).fault with
  | some e => exact .inl ⟨rfl, _, _, rfl⟩
  | none => exact .inr ⟨by simp, [_, _], rfl⟩

/-- What the first of several sources does: it stops the reading, or it is
counted and reported, or it adds to the store. -/
theorem readSources_cons_cases (tree : FileTree) (s : Store) (stdin name : Text) (rest : List Text) :
    (StopsReading tree stdin name ∧ ∃ as stdin' reports e, (∀ a ∈ as, Addition.Scripted a) ∧
        readSources tree s stdin (name :: rest) = ⟨s.addAll as, stdin', 0, reports, some e⟩) ∨
      (¬ StopsReading tree stdin name ∧ ¬ Readable tree name ∧ ∃ e,
        let after := readSources tree s stdin rest
        readSources tree s stdin (name :: rest) =
          { after with
            failures := after.failures + 1
            reports := .unreadable name e :: after.reports }) ∨
      (¬ StopsReading tree stdin name ∧ Readable tree name ∧ ∃ as stdin' reports,
        (∀ a ∈ as, Addition.Scripted a) ∧
          (∀ n, StopsReading tree stdin' n ↔ StopsReading tree stdin n) ∧
          let after := readSources tree (s.addAll as) stdin' rest
          readSources tree s stdin (name :: rest) =
            { after with reports := reports ++ after.reports }) := by
  have hscripted (text : Text) : ∀ a ∈ (scriptAdditions text).1, a.Scripted :=
    fun a ha => scripted_of_mem_lineAdditions ha
  by_cases hname : name = stdinName
  · subst hname
    rw [stopsReading_stdin_iff]
    have hsource : readSource tree stdin stdinName = (.ok stdin, []) := if_pos rfl
    rcases readSources_of_text s rest hsource with
      ⟨hlong, reports, e, h⟩ | ⟨hshort, reports, h⟩
    · exact .inl ⟨hlong, _, [], reports, e, hscripted stdin, h⟩
    · exact .inr (.inr ⟨hshort, .inl rfl, _, [], reports, hscripted stdin,
        stopsReading_nil_iff hshort, h⟩)
  · rw [stopsReading_file_iff hname]
    have hsource : readSource tree stdin name = (tree.readText (Path.ofText name), stdin) :=
      if_neg hname
    cases htext : tree.readText (Path.ofText name) with
    | ok text =>
      rw [htext] at hsource
      have hstops : ((Except.ok text : Except ReadError Text) = .error .nulInPath ∨
          ∃ t, (Except.ok text : Except ReadError Text) = .ok t ∧ Overlong t) ↔ Overlong text := by
        simp
      rw [hstops]
      rcases readSources_of_text s rest hsource with
        ⟨hlong, reports, e, h⟩ | ⟨hshort, reports, h⟩
      · exact .inl ⟨hlong, _, stdin, reports, e, hscripted text, h⟩
      · exact .inr (.inr ⟨hshort, .inr ⟨text, htext⟩, _, stdin, reports, hscripted text,
          fun _ => Iff.rfl, h⟩)
    | error e =>
      rw [htext] at hsource
      have hclosed : ¬ Readable tree name := by simp [Readable, hname, htext]
      by_cases hnul : e = .nulInPath
      · subst hnul
        refine .inl ⟨.inl rfl, [], stdin, [], .read .nulInPath, by simp, ?_⟩
        rw [readSources, hsource]
        rfl
      · refine .inr (.inl ⟨by simp [hnul], hclosed, e, ?_⟩)
        rw [readSources, hsource]
        cases e with
        | nulInPath => exact absurd rfl hnul
        | file _ | encoding _ => rfl

/-- **Sources stop the reading exactly if one of them does**, wherever it
stands among them. -/
theorem readSources_fault_iff {names : List Text} :
    (readSources tree s stdin names).fault.isSome = true ↔ ∃ n ∈ names, StopsReading tree stdin n := by
  induction names generalizing s stdin with
  | nil => simp [readSources]
  | cons name rest ih =>
    rw [List.exists_mem_cons_iff]
    rcases readSources_cons_cases tree s stdin name rest with
      ⟨hstop, as, stdin', reports, e, -, h⟩ | ⟨hstop, -, e, h⟩ |
      ⟨hstop, -, as, stdin', reports, -, hsame, h⟩
    · simp [h, hstop]
    · simp [h, hstop, ih]
    · simp [h, hstop, ih, hsame]

/-- If nothing stops the reading, there are failures exactly if a source cannot
be opened. -/
theorem readSources_failures_iff {names : List Text}
    (hfault : (readSources tree s stdin names).fault = none) :
    (readSources tree s stdin names).failures = 0 ↔ ∀ n ∈ names, Readable tree n := by
  induction names generalizing s stdin with
  | nil => simp [readSources]
  | cons name rest ih =>
    rw [List.forall_mem_cons]
    rcases readSources_cons_cases tree s stdin name rest with
      ⟨-, as, stdin', reports, e, -, h⟩ | ⟨-, hclosed, e, h⟩ | ⟨-, hopen, as, stdin', reports, -, -, h⟩
    · rw [h] at hfault
      cases hfault
    · simp [h, hclosed]
    · rw [h] at hfault ⊢
      simpa [hopen] using ih hfault

theorem reported_of_failures {names : List Text} (verbose : Bool)
    (hfail : 0 < (readSources tree s stdin names).failures) :
    "Error".toList <:+: (readSources tree s stdin names).reports.flatMap (·.line verbose) := by
  induction names generalizing s stdin with
  | nil => cases hfail
  | cons name rest ih =>
    rcases readSources_cons_cases tree s stdin name rest with
      ⟨-, as, stdin', reports, e, -, h⟩ | ⟨-, -, e, h⟩ | ⟨-, -, as, stdin', reports, -, -, h⟩
    · rw [h] at hfail
      cases hfail
    · rw [h, List.flatMap_cons]
      exact List.IsInfix.trans ⟨[], _, rfl⟩ (List.prefix_append _ _).isInfix
    · rw [h] at hfail ⊢
      rw [List.flatMap_append]
      exact (ih hfail).trans (List.suffix_append _ _).isInfix

theorem exists_additions_readSources (tree : FileTree) (s : Store) (stdin : Text) (names : List Text) :
    ∃ as, (∀ a ∈ as, Addition.Scripted a) ∧ (readSources tree s stdin names).store = s.addAll as := by
  induction names generalizing s stdin with
  | nil => exact ⟨[], by simp, rfl⟩
  | cons name rest ih =>
    rcases readSources_cons_cases tree s stdin name rest with
      ⟨-, as, stdin', reports, e, has, h⟩ | ⟨-, -, e, h⟩ | ⟨-, -, as, stdin', reports, has, -, h⟩
    · exact ⟨as, has, by rw [h]⟩
    · rw [h]
      exact ih s stdin
    · obtain ⟨bs, hbs, hstore⟩ := ih (s.addAll as) stdin'
      refine ⟨as ++ bs, fun a ha => ?_, ?_⟩
      · exact (List.mem_append.mp ha).elim (has a) (hbs a)
      · rw [h, Store.addAll_append]
        exact hstore

theorem writable_readSources (tree : FileTree) (stdin : Text) (names : List Text) :
    (readSources tree .empty stdin names).store.Writable := by
  obtain ⟨as, has, h⟩ := exists_additions_readSources tree .empty stdin names
  rw [h]
  exact Store.writable_addAll fun a ha => (has a ha).weight

end Sources

end PhraseGrammar
