/-
The lines of a dump. Each is a logical line as it stands (`plainLine_header`,
`plainLine_option`) and reads back as what it was written for, but for the
spaces that end a name or a value (`read_header`, `read_option`). So reading
the lines of a store asks for the additions of the store, trimmed
(`lineAdditions_storeLines`).
-/
import PhraseGrammar.Proofs.LineFacts
import PhraseGrammar.Proofs.ScriptAdditions

namespace PhraseGrammar

/-- The line that opens a rule. -/
def headerLine (name : Text) : Text := '*' :: ' ' :: escapeName name

/-- The line of an option. -/
def WeightedValue.line (o : WeightedValue) : Text := numeral o.weight ++ ':' :: escape o.value

/-- The lines of a rule. -/
def Rule.lines (r : Rule) : List Text := headerLine r.name :: r.options.map (·.line)

/-- The lines of a store. -/
def Store.lines (s : Store) : List Text := s.rules.flatMap fun e => e.2.lines

/-- Every weight of the store can be written. -/
def Store.Writable (s : Store) : Prop :=
  ∀ e ∈ s.rules, ∀ o ∈ e.2.options, tooLongToWrite o.weight = false

/-! ## When a dump is there -/

theorem mapM_ok {ε α β : Type} {f : α → Except ε β} {g : α → β} {l : List α}
    (h : ∀ a ∈ l, f a = .ok (g a)) : l.mapM f = .ok (l.map g) := by
  induction l with
  | nil => rfl
  | cons a l ih =>
    rw [List.mapM_cons, h a (by simp), ih fun b hb => h b (by simp [hb])]
    rfl

theorem ok_of_mapM_ok {ε α β : Type} {f : α → Except ε β} {l : List α} {bs : List β}
    (h : l.mapM f = .ok bs) : ∀ a ∈ l, ∃ b, f a = .ok b := by
  induction l generalizing bs with
  | nil => simp
  | cons a l ih =>
    rw [List.mapM_cons] at h
    cases ha : f a with
    | error e => rw [ha] at h; cases h
    | ok b =>
      rw [ha] at h
      cases hl : l.mapM f with
      | error e => rw [hl] at h; cases h
      | ok bs' =>
        intro c hc
        rcases List.mem_cons.mp hc with rfl | hc
        · exact ⟨b, ha⟩
        · exact ih hl c hc

theorem writeNumeral_of_long {n : Nat} (h : tooLongToWrite n = true) :
    writeNumeral n = .error .writing := by
  rw [writeNumeral, h]
  rfl

theorem Rule.dumpLines_of_writable {r : Rule} (h : ∀ o ∈ r.options, tooLongToWrite o.weight = false) :
    r.dumpLines = .ok r.lines := by
  rw [dumpLines, mapM_ok (g := (·.line)) fun o ho => by rw [writeNumeral_of_short (h o ho)]; rfl]
  rfl

theorem Rule.writable_of_dumpLines {r : Rule} {ls : List Text} (h : r.dumpLines = .ok ls) :
    ∀ o ∈ r.options, tooLongToWrite o.weight = false := by
  intro o ho
  rw [dumpLines] at h
  cases hm : r.options.mapM fun o =>
      (writeNumeral o.weight).map fun digits => digits ++ ':' :: escape o.value with
  | error e => rw [hm] at h; cases h
  | ok bs =>
    obtain ⟨b, hb⟩ := ok_of_mapM_ok hm o ho
    cases hw : tooLongToWrite o.weight with
    | false => rfl
    | true => rw [writeNumeral_of_long hw] at hb; cases hb

/-- A store has a dump exactly if its weights can be written: its lines, with
line feeds between them. -/
theorem Store.dump_eq_ok_iff {s : Store} {d : Text} :
    s.dump = .ok d ↔ s.Writable ∧ joinWith ['\n'] s.lines = d := by
  have hok (h : s.Writable) : s.dump = .ok (joinWith ['\n'] s.lines) := by
    have hm : (s.rules.mapM fun e : Text × Rule => e.2.dumpLines) =
        .ok (s.rules.map fun e => e.2.lines) :=
      mapM_ok fun e he => Rule.dumpLines_of_writable (h e he)
    rw [dump, hm]
    rfl
  constructor
  · intro h
    have hw : s.Writable := by
      intro e he
      rw [dump] at h
      cases hm : s.rules.mapM fun e : Text × Rule => e.2.dumpLines with
      | error e => rw [hm] at h; cases h
      | ok bs =>
        obtain ⟨ls, hls⟩ := ok_of_mapM_ok hm e he
        exact Rule.writable_of_dumpLines hls
    exact ⟨hw, Except.ok.inj ((hok hw).symm.trans h)⟩
  · rintro ⟨hw, rfl⟩
    exact hok hw

/-! ## Dumped lines are plain -/

theorem mem_escapeName {name : Text} {c : Char} (h : c ∈ escapeName name) : c = '\\' ∨ c ∈ escape name := by
  unfold escapeName at h
  split at h
  · next rest he =>
    rw [he]
    exact List.mem_cons.mp h
  · exact .inr h

theorem not_mem_headerLine {c : Char} (hc : c ∈ ['\n', '\r', '\t']) (name : Text) :
    c ∉ headerLine name := by
  have hmark : ∀ c ∈ ['\n', '\r', '\t'], c ≠ '*' ∧ c ≠ ' ' ∧ c ≠ '\\' := by simp
  obtain ⟨hstar, hspace, hback⟩ := hmark c hc
  intro h
  rcases List.mem_cons.mp h with h | h
  · exact hstar h
  rcases List.mem_cons.mp h with h | h
  · exact hspace h
  rcases mem_escapeName h with h | h
  · exact hback h
  · exact not_mem_escape hc name h

theorem trailingBackslashes_headerLine (name : Text) :
    trailingBackslashes (headerLine name) % 2 = 0 := by
  by_cases hhead : name.head? = some ' '
  · obtain ⟨rest, rfl⟩ := List.head?_eq_some_iff.mp hhead
    exact trailingBackslashes_escape (u := ['*', ' ', '\\', ' ']) (by decide) rest
  · rw [headerLine, escapeName_of_head hhead]
    exact trailingBackslashes_escape (u := ['*', ' ']) (by decide) name

theorem plainLine_header (name : Text) : PlainLine (headerLine name) where
  noReturn := not_mem_headerLine (by simp) name
  noFeed := not_mem_headerLine (by simp) name
  noComment := rfl
  complete := by
    rw [isContinued_of_no_feed (not_mem_headerLine (by simp) name), trailingBackslashes_headerLine]
    rfl

theorem digit_ne {c d : Char} (hc : c.isDigit = true) (hd : d.isDigit = false) : c ≠ d := by
  rintro rfl
  simp [hc] at hd

/-- A numeral and a colon are written as themselves, so the line of an option
is a written text. -/
theorem WeightedValue.line_eq (o : WeightedValue) :
    o.line = escape (numeral o.weight ++ ':' :: o.value) := by
  have hdigits : escape (numeral o.weight) = numeral o.weight := by
    refine escape_eq_self fun c hc hmem => ?_
    have hspecial : ∀ c ∈ ['\\', '\n', '\r', '\t'], c.isDigit = false := by simp [Char.isDigit]
    exact digit_ne (isDigit_of_mem_numeral hc) (hspecial c hmem) rfl
  rw [escape_append, hdigits, escape_cons]
  rfl

theorem WeightedValue.line_head (o : WeightedValue) : ∃ c rest, o.line = c :: rest ∧ c.isDigit = true := by
  obtain ⟨c, ds, h, hc⟩ := numeral_head o.weight
  exact ⟨c, ds ++ ':' :: escape o.value, by rw [line, h]; rfl, hc⟩

theorem not_mem_optionLine {c : Char} (hc : c ∈ ['\n', '\r', '\t']) (o : WeightedValue) :
    c ∉ o.line := by
  rw [o.line_eq]
  exact not_mem_escape hc _

theorem plainLine_option (o : WeightedValue) : PlainLine o.line where
  noReturn := not_mem_optionLine (by simp) o
  noFeed := not_mem_optionLine (by simp) o
  noComment := by
    obtain ⟨c, rest, h, hc⟩ := o.line_head
    simpa [h, isComment] using digit_ne hc (by decide)
  complete := by
    rw [isContinued_of_no_feed (not_mem_optionLine (by simp) o), o.line_eq]
    have heven := trailingBackslashes_escape (u := []) (by decide) (numeral o.weight ++ ':' :: o.value)
    rw [List.nil_append] at heven
    rw [heven]
    rfl

theorem plainLine_storeLines {s : Store} {l : Text} (h : l ∈ s.lines) : PlainLine l := by
  simp only [Store.lines, List.mem_flatMap, Rule.lines, List.mem_cons, List.mem_map] at h
  obtain ⟨e, -, rfl | ⟨o, -, rfl⟩⟩ := h
  · exact plainLine_header _
  · exact plainLine_option o

/-! ## Reading dumped lines -/

theorem read_header (name : Text) : ScriptLine.read (headerLine name) = .ok (.header (trimEnd name)) := by
  rw [← unescape_escapeName]
  rfl

theorem read_of_digit {c : Char} (hc : c.isDigit = true) (rest : Text) :
    ScriptLine.read (c :: rest) =
      (readValue (c :: rest)).map fun (text, weight) => .value text weight := by
  unfold ScriptLine.read
  split
  · next he =>
    obtain ⟨rfl, -⟩ := List.cons.inj he
    exact absurd hc (by decide)
  · rfl

theorem unescape_line (o : WeightedValue) :
    unescape o.line = numeral o.weight ++ ':' :: trimEnd o.value := by
  have hfirst : (numeral o.weight ++ ':' :: o.value).dropWhile (· == ' ') =
      numeral o.weight ++ ':' :: o.value := by
    obtain ⟨c, ds, h, hc⟩ := numeral_head o.weight
    have hspace : c ≠ ' ' := digit_ne hc (by decide)
    rw [h, List.cons_append]
    exact List.dropWhile_cons_of_neg (by simpa using hspace)
  rw [o.line_eq, unescape_escape, hfirst, trimEnd_append_cons (by decide)]

theorem read_option {o : WeightedValue} (h : tooLongToWrite o.weight = false) :
    ScriptLine.read o.line = .ok (.value (trimEnd o.value) o.weight) := by
  have hsplit : splitWeight? (unescape o.line) = some (numeral o.weight, trimEnd o.value) :=
    splitWeight?_eq_some_iff.mpr
      ⟨numeral_ne_nil _, fun c hc => isDigit_of_mem_numeral hc, unescape_line o⟩
  have hvalue : readValue o.line = .ok (trimEnd o.value, o.weight) := by
    rw [readValue_of_split hsplit, readNumeral_numeral h]
    rfl
  obtain ⟨c, rest, hline, hc⟩ := o.line_head
  rw [hline] at hvalue ⊢
  rw [read_of_digit hc, hvalue]
  rfl

/-! ## What dumped lines ask for -/

/-- An addition without the spaces that end its rule's name and its value. -/
def Addition.trim (a : Addition) : Addition := ⟨trimEnd a.rule, trimEnd a.value, a.weight⟩

/-- Additions trimmed, those left out that have no value then. -/
def trimAdditions (as : List Addition) : List Addition :=
  (as.map Addition.trim).filter fun a => !a.value.isEmpty

theorem trimAdditions_append (as bs : List Addition) :
    trimAdditions (as ++ bs) = trimAdditions as ++ trimAdditions bs := by
  simp [trimAdditions]

theorem lineAdditions_options {name : Text} {os : List WeightedValue}
    (h : ∀ o ∈ os, tooLongToWrite o.weight = false) (rest : List Text) :
    lineAdditions (trimEnd name) (os.map (·.line) ++ rest) =
      (trimAdditions (os.map fun o => ⟨name, o.value, o.weight⟩) ++
        (lineAdditions (trimEnd name) rest).1, (lineAdditions (trimEnd name) rest).2) := by
  induction os with
  | nil => rfl
  | cons o os ih =>
    have hread := read_option (h o (by simp))
    have hos := ih fun o' ho' => h o' (by simp [ho'])
    rw [List.map_cons, List.cons_append, List.map_cons]
    by_cases hv : trimEnd o.value = []
    · rw [hv] at hread
      rw [lineAdditions_blank hread, hos]
      simp [trimAdditions, Addition.trim, hv]
    · rw [lineAdditions_value hv hread, hos]
      simp [trimAdditions, Addition.trim, hv]

theorem lineAdditions_storeLines {s : Store} (h : s.Writable) (rule : Text) :
    lineAdditions rule s.lines = (trimAdditions s.additions, none) := by
  obtain ⟨rules, start⟩ := s
  simp only [Store.Writable] at h
  simp only [Store.lines, Store.additions]
  -- each header sets the rule anew, so the one that is current before is any
  induction rules generalizing rule with
  | nil => rfl
  | cons e rules ih =>
    have hrest := ih (trimEnd e.2.name) fun e' he' => h e' (by simp [he'])
    rw [List.flatMap_cons, List.flatMap_cons, Rule.lines, List.cons_append,
      lineAdditions_header (read_header e.2.name), lineAdditions_options (h e (by simp)), hrest,
      trimAdditions_append]
    rfl

/-- A dump asks for the additions of its store, trimmed. -/
theorem scriptAdditions_dump {s : Store} {d : Text} (h : s.dump = .ok d) :
    scriptAdditions d = (trimAdditions s.additions, none) := by
  obtain ⟨hw, rfl⟩ := Store.dump_eq_ok_iff.mp h
  rw [scriptAdditions]
  by_cases hne : s.lines = []
  · -- The empty text has a line too, an empty one, which asks for nothing.
    have hnone := lineAdditions_storeLines hw []
    rw [hne] at hnone ⊢
    exact hnone
  · rw [logicalLines_joinWith hne fun l hl => plainLine_storeLines hl, lineAdditions_storeLines hw]

end PhraseGrammar
