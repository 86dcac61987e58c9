/-
Where the two ways of filling a store from files agree. One goes past the files that
cannot be read, and reports each; the other stops at the first. So the one does with
some names what the other does with those of them that can be read
(`loaders_agree`), and a fault of a script stops both in the same state.

The other way stops at the first file that is not read to its end, if there is one.
`FileTree.StopsAt` says what it leaves then: what the files before it made of the
store, and what the lines before the fault made of that.
-/
import PhraseGrammar.Log
import PhraseGrammar.Proofs.PathFacts
import PhraseGrammar.Proofs.SourceFaults

namespace PhraseGrammar

/-! ## Names of files -/

/-- A name that a file may have: not that of the standard input, and without a NUL. -/
structure NamesFile (name : Text) : Prop where
  file : name ≠ stdinName
  noNul : '\x00' ∉ name

theorem NamesFile.hasNul_eq {name : Text} (h : NamesFile name) : (Path.ofText name).hasNul = false := by
  rw [← Bool.not_eq_true, Path.hasNul_ofText]
  exact h.noNul

theorem NamesFile.readSource_eq {name : Text} (h : NamesFile name) (tree : FileTree) (stdin : Text) :
    readSource tree stdin name = (tree.readText (.ofText name), stdin) := if_neg h.file

theorem NamesFile.readText_ne_nul {name : Text} (h : NamesFile name) (tree : FileTree) :
    tree.readText (.ofText name) ≠ .error .nulInPath := by
  intro hread
  have hnul := hasNul_of_readText hread
  rw [h.hasNul_eq] at hnul
  cases hnul

/-- There is a file of this name that holds text. -/
def FileTree.opens (tree : FileTree) (name : Text) : Bool := (tree.readText (.ofText name)).isOk

theorem FileTree.opens_iff {tree : FileTree} {name : Text} :
    tree.opens name = true ↔ ∃ text, tree.readText (.ofText name) = .ok text := by
  rw [opens]
  cases tree.readText (.ofText name) <;> simp [Except.isOk, Except.toBool]

/-- What is written about a file that cannot be read. -/
def FileTree.complaint (tree : FileTree) (name : Text) : Text :=
  match tree.readText (.ofText name) with
  | .ok _ => []
  | .error e => (SourceReport.unreadable name e).line false

/-! ## Complaints are lines -/

theorem not_mem_toDigits {b : Nat} (hb : 1 < b) (n : Nat) : '\n' ∉ Nat.toDigits b n := by
  induction n using Nat.strongRecOn with
  | ind n ih =>
    have hdigit (d : Nat) : '\n' ≠ d.digitChar := (Nat.digitChar_ne '\n' (by decide)).symm
    rw [Nat.toDigits_eq_if hb]
    split
    · simp [hdigit n]
    · next hn =>
      have hsmaller : n / b < n := Nat.div_lt_self (by omega) hb
      rw [List.mem_append, List.mem_singleton]
      exact fun h => h.elim (ih (n / b) hsmaller) (hdigit _)

theorem not_mem_hexDigits (width n : Nat) : '\n' ∉ hexDigits width n := by
  rw [hexDigits, List.mem_append, List.mem_replicate]
  rintro (⟨-, h⟩ | h)
  · cases h
  · exact not_mem_toDigits (by decide) n h

theorem not_mem_quotedChar {quote : Char} (hquote : quote ≠ '\n') (c : Char) : '\n' ∉ quotedChar quote c := by
  unfold quotedChar
  split
  · next hc =>
    rcases hc with rfl | rfl
    · simpa using hquote.symm
    · decide
  split
  · decide
  split
  · decide
  split
  · decide
  next hfeed _ _ =>
  split
  · simpa using Ne.symm hfeed
  · unfold numberedChar
    simp only
    split
    · simp [not_mem_hexDigits]
    split
    · simp [not_mem_hexDigits]
    · simp [not_mem_hexDigits]

theorem not_mem_quoted (t : Text) : '\n' ∉ quoted t := by
  have hquote : quoteFor t ≠ '\n' := by
    unfold quoteFor
    split <;> decide
  rw [quoted, List.mem_append, List.mem_cons, List.mem_flatMap, List.mem_singleton]
  rintro ((h | ⟨c, -, h⟩) | h)
  · exact hquote h.symm
  · exact not_mem_quotedChar hquote c h
  · exact hquote h.symm

theorem not_mem_fileError (e : FileError) : '\n' ∉ e.message := by
  obtain ⟨reason, p, hmessage, hreason⟩ :
      ∃ reason p, e.message = reason ++ quoted (Path.text p) ∧ '\n' ∉ reason := by
    cases e with
    | missing p => exact ⟨"[Errno 2] No such file or directory: ".toList, p, rfl, by simp⟩
    | notADirectory p => exact ⟨"[Errno 20] Not a directory: ".toList, p, rfl, by simp⟩
    | isADirectory p => exact ⟨"[Errno 21] Is a directory: ".toList, p, rfl, by simp⟩
    | nameTooLong p => exact ⟨"[Errno 36] File name too long: ".toList, p, rfl, by simp⟩
  rw [hmessage, List.mem_append]
  exact fun h => h.elim hreason (not_mem_quoted _)

theorem not_mem_utf8Fault (fault : Utf8Fault) : '\n' ∉ fault.message := by
  cases fault with
  | badStart => exact (by simp : '\n' ∉ "invalid start byte".toList)
  | badContinuation => exact (by simp : '\n' ∉ "invalid continuation byte".toList)
  | endOfData => exact (by simp : '\n' ∉ "unexpected end of data".toList)

theorem not_mem_utf8Error (e : Utf8Error) : '\n' ∉ e.message := by
  have hnumeral (n : Nat) : '\n' ∉ numeral n := not_mem_toDigits (by decide) n
  obtain ⟨place, hmessage, hplace⟩ : ∃ place,
      e.message = "'utf-8' codec can't decode ".toList ++ place ++ ": ".toList ++ e.fault.message ∧
        '\n' ∉ place := by
    refine ⟨_, rfl, ?_⟩
    split <;> simp [not_mem_hexDigits, hnumeral]
  rw [hmessage]
  simp [hplace, not_mem_utf8Fault]

theorem not_mem_readError (e : ReadError) : '\n' ∉ e.message := by
  cases e with
  | nulInPath => exact (by simp : '\n' ∉ "embedded null byte".toList)
  | file e => exact not_mem_fileError e
  | encoding e => exact not_mem_utf8Error e

/-- A complaint is a line, but for the line feeds of the name. -/
theorem complaint_line {tree : FileTree} {name : Text} (hclosed : tree.opens name = false) :
    ∃ t, tree.complaint name = t ++ ['\n'] ∧ t.count '\n' = name.count '\n' := by
  rw [FileTree.opens] at hclosed
  rw [FileTree.complaint]
  cases hread : tree.readText (.ofText name) with
  | ok text => simp [hread, Except.isOk, Except.toBool] at hclosed
  | error e =>
    have hmessage : e.message.count '\n' = 0 := List.count_eq_zero.mpr (not_mem_readError e)
    refine ⟨"Error reading ".toList ++ name ++ ":  ".toList ++ e.message, rfl, ?_⟩
    simp [hmessage]

/-! ## One file after the other -/

/-- Reads texts into a store, one after the other. -/
def Store.readEach (s : Store) (texts : List Text) : Store := texts.foldl (fun s t => (s.read t).store) s

/-- The texts of files, all of which are read to their ends. -/
structure FileTree.Texts (tree : FileTree) (files : List Path) (texts : List Text) : Prop where
  read : files.map tree.readText = texts.map .ok
  short : ∀ text ∈ texts, ¬ Overlong text

/-- A file stops the loading into a store: it cannot be read, and nothing is added; or
a line of it has a weight of too many digits, and the lines before it have been read. -/
inductive FileTree.StopsAt (tree : FileTree) (s : Store) (p : Path) : Store → LoadError → Prop
  | unreadable {e : ReadError} : tree.readText p = .error e → StopsAt tree s p s (.read e)
  | line {text line digits value : Text} {before after : List Text} :
      tree.readText p = .ok text → logicalLines text = before ++ line :: after →
      (∀ l ∈ before, ¬ LongWeight l) → line.head? ≠ some '*' →
      unescape line = digits ++ ':' :: value → (∀ c ∈ digits, c.isDigit = true) →
      digitLimit < digits.length →
      StopsAt tree s p (readLines s [] 0 before).store (.numeral (.reading digits.length))

theorem readLines_of_error {before : List Text} (hbefore : ∀ l ∈ before, ¬ LongWeight l) {line : Text}
    {e : NumeralError} (hline : ScriptLine.read line = .error e) (after : List Text) (s : Store)
    (rule : Text) (added : Nat) :
    readLines s rule added (before ++ line :: after) =
      { readLines s rule added before with fault := some e } := by
  have hshort : (lineAdditions rule before).2 = none := by
    rw [← Option.not_isSome_iff_eq_none, lineAdditions_fault_iff]
    rintro ⟨l, hl, h⟩
    exact hbefore l hl h
  obtain ⟨rule', happend⟩ := lineAdditions_append rule before
  rw [readLines_eq, readLines_eq, happend, hshort, lineAdditions_error hline]
  simp

theorem Overlong.exists_first {text : Text} (h : Overlong text) : ∃ before line after,
    logicalLines text = before ++ line :: after ∧ (∀ l ∈ before, ¬ LongWeight l) ∧ LongWeight line := by
  classical
  obtain ⟨line, hline, hlong⟩ := h
  obtain ⟨first, hfirst⟩ := Option.isSome_iff_exists.mp
    (List.find?_isSome (p := fun l => decide (LongWeight l)).mpr ⟨line, hline, decide_eq_true hlong⟩)
  obtain ⟨hfound, before, after, hsplit, hbefore⟩ := List.find?_eq_some_iff_append.mp hfirst
  exact ⟨before, first, after, hsplit, fun l hl => by simpa using hbefore l hl, by simpa using hfound⟩

theorem stopsAt_of_overlong {tree : FileTree} {p : Path} {text : Text} (htext : tree.readText p = .ok text)
    (hlong : Overlong text) (s : Store) :
    ∃ e, (s.read text).fault = some e ∧ tree.StopsAt s p (s.read text).store (.numeral e) := by
  obtain ⟨before, line, after, hlines, hbefore, hstar, digits, value, hline, hdigits, hlimit⟩ :=
    hlong.exists_first
  have hread : s.read text = { readLines s [] 0 before with fault := some (.reading digits.length) } := by
    rw [Store.read, hlines,
      readLines_of_error hbefore (read_of_long_weight hstar hline hdigits hlimit)]
  rw [hread]
  exact ⟨_, rfl, .line htext hlines hbefore hstar hline hdigits hlimit⟩

theorem FileTree.StopsAt.overlong {tree : FileTree} {s t : Store} {p : Path} {e : LoadError}
    (h : tree.StopsAt s p t e) {text : Text} (htext : tree.readText p = .ok text) : Overlong text := by
  cases h with
  | unreadable herror => simp [htext] at herror
  | line hread hlines _ hstar hline hdigits hlimit =>
    obtain rfl := Except.ok.inj (htext.symm.trans hread)
    exact ⟨_, hlines ▸ by simp, hstar, _, _, hline, hdigits, hlimit⟩

/-- Files are loaded to their ends, or up to the first that stops the loading. -/
theorem loadFiles_cases (tree : FileTree) (s : Store) (files : List Path) :
    (∃ texts, tree.Texts files texts ∧ loadFiles tree s files = (s.readEach texts, none)) ∨
      ∃ before p after texts t e, files = before ++ p :: after ∧ tree.Texts before texts ∧
        tree.StopsAt (s.readEach texts) p t e ∧ loadFiles tree s files = (t, some e) := by
  induction files generalizing s with
  | nil => exact .inl ⟨[], ⟨rfl, by simp⟩, rfl⟩
  | cons p files ih =>
    cases hread : tree.readText p with
    | error e =>
      exact .inr ⟨[], p, files, [], s, .read e, rfl, ⟨rfl, by simp⟩, .unreadable hread, by
        rw [loadFiles, hread]⟩
    | ok text =>
      by_cases hlong : Overlong text
      · obtain ⟨e, hfault, hstop⟩ := stopsAt_of_overlong hread hlong s
        exact .inr ⟨[], p, files, [], _, _, rfl, ⟨rfl, by simp⟩, hstop, by
          simp only [loadFiles, hread, hfault]⟩
      have hfault : (s.read text).fault = none := by
        rw [← Option.not_isSome_iff_eq_none, overlong_iff]
        exact hlong
      have hnext : loadFiles tree s (p :: files) = loadFiles tree (s.read text).store files := by
        simp only [loadFiles, hread, hfault]
      have htexts {ps : List Path} {texts : List Text} (h : tree.Texts ps texts) :
          tree.Texts (p :: ps) (text :: texts) :=
        ⟨by rw [List.map_cons, List.map_cons, hread, h.read], List.forall_mem_cons.mpr ⟨hlong, h.short⟩⟩
      rw [hnext]
      rcases ih (s.read text).store with ⟨texts, hall, hload⟩ | ⟨before, q, after, texts, t, e, rfl, hbefore, hstop, hload⟩
      · exact .inl ⟨text :: texts, htexts hall, hload⟩
      · exact .inr ⟨p :: before, q, after, text :: texts, t, e, rfl, htexts hbefore, hstop, hload⟩

/-! ## Going past what cannot be read -/

section Sources

variable {tree : FileTree} {s : Store} {stdin : Text} {names : List Text}

theorem loadFiles_opened (hnames : ∀ n ∈ names, NamesFile n) :
    loadFiles tree s ((names.filter tree.opens).map .ofText) =
      ((readSources tree s stdin names).store, (readSources tree s stdin names).fault) := by
  induction names generalizing s with
  | nil => rfl
  | cons name names ih =>
    obtain ⟨hname, hnames⟩ := List.forall_mem_cons.mp hnames
    have hsource := hname.readSource_eq tree stdin
    cases hread : tree.readText (.ofText name) with
    | ok text =>
      have hopen : tree.opens name = true := FileTree.opens_iff.mpr ⟨text, hread⟩
      rw [List.filter_cons_of_pos hopen, List.map_cons, loadFiles, readSources, hsource, hread]
      simp only
      cases (s.read text).fault with
      | some e => rfl
      | none => exact ih hnames
    | error e =>
      have hclosed : ¬ tree.opens name = true := by simp [FileTree.opens_iff, hread]
      rw [List.filter_cons_of_neg hclosed, readSources, hsource, hread]
      cases e with
      | nulInPath => exact absurd hread (hname.readText_ne_nul tree)
      | file _ | encoding _ => exact ih hnames

/-- If nothing stops the reading, each name that cannot be read is counted and
complained about. -/
theorem failures_of_named (hnames : ∀ n ∈ names, NamesFile n)
    (hfault : (readSources tree s stdin names).fault = none) :
    (readSources tree s stdin names).failures + (names.filter tree.opens).length = names.length ∧
      (readSources tree s stdin names).reports.flatMap (·.line false) =
        (names.filter (!tree.opens ·)).flatMap tree.complaint := by
  induction names generalizing s with
  | nil => exact ⟨rfl, rfl⟩
  | cons name names ih =>
    obtain ⟨hname, hnames⟩ := List.forall_mem_cons.mp hnames
    have hsource := hname.readSource_eq tree stdin
    cases hread : tree.readText (.ofText name) with
    | ok text =>
      have hopen : tree.opens name = true := FileTree.opens_iff.mpr ⟨text, hread⟩
      rw [readSources, hsource, hread] at hfault ⊢
      rw [List.filter_cons_of_pos hopen, List.filter_cons_of_neg (by simp [hopen])]
      simp only at hfault ⊢
      cases hf : (s.read text).fault with
      | some e => simp [hf] at hfault
      | none =>
        rw [hf] at hfault
        obtain ⟨hcount, hlines⟩ := ih hnames hfault
        refine ⟨?_, hlines⟩
        rw [List.length_cons, List.length_cons, ← hcount]
        exact (Nat.add_assoc _ _ _).symm
    | error e =>
      have hclosed : tree.opens name = false := by simp [← Bool.not_eq_true, FileTree.opens_iff, hread]
      have hcomplaint : tree.complaint name = (SourceReport.unreadable name e).line false := by
        rw [FileTree.complaint, hread]
      rw [readSources, hsource, hread] at hfault ⊢
      rw [List.filter_cons_of_neg (by simp [hclosed]), List.filter_cons_of_pos (by simp [hclosed]),
        List.flatMap_cons, hcomplaint]
      cases e with
      | nulInPath => exact absurd hread (hname.readText_ne_nul tree)
      | file _ | encoding _ =>
        obtain ⟨hcount, hlines⟩ := ih hnames hfault
        refine ⟨?_, ?_⟩
        · rw [List.length_cons, ← hcount]
          simp only
          omega
        · rw [List.flatMap_cons, hlines]

end Sources

theorem loadFiles_fault_iff {tree : FileTree} {s : Store} {names : List Text} :
    (loadFiles tree s (names.map .ofText)).2 = none ↔
      names.filter tree.opens = names ∧
        ∀ n ∈ names, ∀ text, tree.readText (.ofText n) = .ok text → ¬ Overlong text := by
  rcases loadFiles_cases tree s (names.map .ofText) with
    ⟨texts, hall, hload⟩ | ⟨before, p, after, texts, t, e, hsplit, -, hstop, hload⟩
  · have hread {n : Text} (hn : n ∈ names) : ∃ text ∈ texts, tree.readText (.ofText n) = .ok text := by
      have hmem : tree.readText (.ofText n) ∈ texts.map .ok := by
        rw [← hall.read]
        exact List.mem_map_of_mem (List.mem_map_of_mem hn)
      obtain ⟨text, htext, h⟩ := List.mem_map.mp hmem
      exact ⟨text, htext, h.symm⟩
    rw [hload]
    refine iff_of_true rfl ⟨List.filter_eq_self.mpr fun n hn => ?_, fun n hn text h => ?_⟩
    · obtain ⟨text, -, h⟩ := hread hn
      exact FileTree.opens_iff.mpr ⟨text, h⟩
    · obtain ⟨text', htext', h'⟩ := hread hn
      obtain rfl := Except.ok.inj (h.symm.trans h')
      exact hall.short text htext'
  · have hp : p ∈ names.map .ofText := hsplit ▸ by simp
    obtain ⟨n, hn, rfl⟩ := List.mem_map.mp hp
    rw [hload]
    refine iff_of_false (by simp) ?_
    rintro ⟨hopen, hshort⟩
    obtain ⟨text, htext⟩ := FileTree.opens_iff.mp (List.filter_eq_self.mp hopen n hn)
    exact hshort n hn text htext (hstop.overlong htext)

/-- **The two loaders agree.** With the names of files, the one that goes past what it
cannot read ends as the other does with the files that can be read: in the same store,
and with the same fault if a script has one. If none has, it counts the names that are
left and complains about each, in their order, and no line feed stands before the end of
a complaint but those of the name. The other comes to its end exactly if no name is left
and no script has a fault, and else stops at the first file that is not read to its end. -/
theorem loaders_agree (tree : FileTree) (s : Store) (stdin : Text) {names : List Text}
    (hnames : ∀ n ∈ names, NamesFile n) :
    let opened := names.filter tree.opens
    let r := readSources tree s stdin names
    loadFiles tree s (opened.map .ofText) = (r.store, r.fault) ∧
      (r.fault = none →
        r.failures = names.length - opened.length ∧
        r.reports.flatMap (·.line false) = (names.filter (!tree.opens ·)).flatMap tree.complaint ∧
        ∀ n, tree.opens n = false →
          ∃ t, tree.complaint n = t ++ ['\n'] ∧ t.count '\n' = n.count '\n') ∧
      ((loadFiles tree s (names.map .ofText)).2 = none ↔ opened = names ∧
        ∀ n ∈ names, ∀ text, tree.readText (.ofText n) = .ok text → ¬ Overlong text) ∧
      ∀ t e, loadFiles tree s (names.map .ofText) = (t, some e) →
        ∃ before name after texts, names = before ++ name :: after ∧
          tree.Texts (before.map .ofText) texts ∧
          tree.StopsAt (s.readEach texts) (.ofText name) t e := by
  intro opened r
  refine ⟨loadFiles_opened hnames, fun hfault => ?_, loadFiles_fault_iff, fun t e hload => ?_⟩
  · obtain ⟨hcount, hlines⟩ := failures_of_named hnames hfault
    exact ⟨Nat.eq_sub_of_add_eq hcount, hlines, fun _ hclosed => complaint_line hclosed⟩
  · rcases loadFiles_cases tree s (names.map .ofText) with
      ⟨texts, -, hall⟩ | ⟨before, p, after, texts, t', e', hsplit, hbefore, hstop, hload'⟩
    · rw [hload] at hall
      cases hall
    · obtain ⟨rfl, hfault⟩ := Prod.mk.inj (hload.symm.trans hload')
      obtain rfl := Option.some.inj hfault
      obtain ⟨before, rest, rfl, rfl, hrest⟩ := List.map_eq_append_iff.mp hsplit
      obtain ⟨name, after, rfl, rfl, rfl⟩ := List.map_eq_cons_iff.mp hrest
      exact ⟨before, name, after, texts, rfl, hbefore, hstop⟩

/-- A name with nothing there, a script, and a file that is not text. -/
theorem loaders_agree_past_unreadable :
    let tree : FileTree :=
      ⟨[([['w'], ['g']], .file [42, 114, 10, 120]), ([['w'], ['b']], .file [255])], [['w']]⟩
    let names : List Text := [['m'], ['g'], ['b']]
    let r := readSources tree .empty [] names
    let s : Store := ⟨[(['r'], ⟨['r'], [⟨['x'], 1⟩], 1⟩)], some ['r']⟩
    (∀ n ∈ names, NamesFile n) ∧ r.store = s ∧ r.fault = none ∧ r.failures = 2 ∧
      (loadFiles tree .empty (names.map .ofText)).2 ≠ none := by
  intro tree names r s
  have hnames : ∀ n ∈ names, NamesFile n := by
    have hplain : ∀ n ∈ names, n ≠ stdinName ∧ '\x00' ∉ n := by simp [names, stdinName]
    exact fun n hn => ⟨(hplain n hn).1, (hplain n hn).2⟩
  have hopened : names.filter tree.opens = [['g']] := by decide
  obtain ⟨hload, hcount, hall, -⟩ := loaders_agree tree .empty [] hnames
  have hread : loadFiles tree .empty [.ofText ['g']] = (s, none) := by decide
  simp only [hopened, List.map_cons, List.map_nil, hread, Prod.mk.injEq] at hload
  have hfailures := (hcount hload.2.symm).1
  rw [hopened] at hfailures
  refine ⟨hnames, hload.1.symm, hload.2.symm, hfailures, fun hnone => ?_⟩
  have hsame := (hall.mp hnone).1
  rw [hopened] at hsame
  exact absurd hsame (by decide)

/-- One name, and one file that cannot be read, but two lines about it. -/
theorem two_lines_about_one_name :
    let tree : FileTree := ⟨[], [['w']]⟩
    let names : List Text := ["no\nfile".toList]
    let r := readSources tree .empty [] names
    (∀ n ∈ names, NamesFile n) ∧ names.filter tree.opens = [] ∧ r.fault = none ∧ r.failures = 1 ∧
      (r.reports.flatMap (·.line false)).count '\n' = 2 := by
  intro tree names r
  have hnames : ∀ n ∈ names, NamesFile n := by
    intro n hn
    obtain rfl : n = "no\nfile".toList := List.mem_singleton.mp hn
    exact ⟨by decide, by decide⟩
  exact ⟨hnames, by decide, by decide, by decide, by decide +kernel⟩

end PhraseGrammar
