/-
What a script adds, told by where its lines stand. A line that is no header adds
its value to the rule of the nearest header before it, in the order of the text;
lines without a value add nothing, and so does a header by itself. So the values
of a rule after reading are those it had and one for each of its lines, and the
new rules stand in the order of their first values (`read_groups_lines`).

A reader goes through the lines once and carries the last header along. That
this comes to the same is shown for what is left of the lines at any place, with
the lines before it as the carried state (`entries_from`).
-/
import Mathlib
import PhraseGrammar.Proofs.ScriptAdditions

namespace PhraseGrammar

/-! ## Lines by their place -/

/-- A header is a line that starts with a star. -/
def isHeader (line : Text) : Bool := line.head? == some '*'

/-- The name in the last header of some lines, or the empty name. -/
def nearestHeader (before : List Text) : Text :=
  match before.reverse.find? isHeader with
  | some header => unescape header.tail
  | none => []

/-- The option that a line writes: its weight is the number in front, but at
least one, and one where there is no number. -/
def lineOption (line : Text) : WeightedValue :=
  match splitWeight? (unescape line) with
  | some (digits, value) => ⟨value, max 1 (digitsValue digits)⟩
  | none => ⟨unescape line, 1⟩

/-- What the line at a place adds, if it is no header and has a value. -/
def entryAt (lines : List Text) (i : Nat) : Option Addition :=
  match lines[i]? with
  | none => none
  | some line =>
    let o := lineOption line
    if isHeader line ∨ o.value = [] then none
    else some ⟨nearestHeader (lines.take i), o.value, o.weight⟩

/-- What lines add, one place after the other. -/
def entries (lines : List Text) : List Addition := (List.range lines.length).filterMap (entryAt lines)

/-- The option that is added. -/
def Addition.option (a : Addition) : WeightedValue := ⟨a.value, a.weight⟩

/-- The options under a name: none without a rule. -/
def Store.optionsOf (s : Store) (name : Text) : List WeightedValue :=
  ((s.get? name).map (·.options)).getD []

/-! ## One line -/

theorem nearestHeader_concat (before : List Text) (line : Text) :
    nearestHeader (before ++ [line]) =
      if isHeader line then unescape line.tail else nearestHeader before := by
  unfold nearestHeader
  rw [List.reverse_append, List.reverse_singleton, List.singleton_append, List.find?_cons]
  cases isHeader line <;> rfl

theorem header_of_read {line name : Text} (h : ScriptLine.read line = .ok (.header name)) :
    isHeader line = true ∧ name = unescape line.tail := by
  unfold ScriptLine.read at h
  split at h
  · cases h
    exact ⟨rfl, rfl⟩
  · cases hv : readValue line <;> simp [hv, Except.map] at h

theorem lineOption_of_readValue {line value : Text} {weight : Nat}
    (h : readValue line = .ok (value, weight)) : lineOption line = ⟨value, max 1 weight⟩ := by
  unfold lineOption
  cases hsplit : splitWeight? (unescape line) with
  | none =>
    rw [readValue_of_no_split hsplit] at h
    cases h
    rfl
  | some p =>
    obtain ⟨digits, rest⟩ := p
    rw [readValue_of_split hsplit, readNumeral] at h
    split at h
    · cases h
    · cases h
      rfl

theorem option_of_read {line value : Text} {weight : Nat}
    (h : ScriptLine.read line = .ok (.value value weight)) :
    isHeader line = false ∧ lineOption line = ⟨value, max 1 weight⟩ := by
  unfold ScriptLine.read at h
  split at h
  · cases h
  · next hstar =>
    have hhead : isHeader line = false := by
      cases line with
      | nil => rfl
      | cons c rest =>
        have hc : c ≠ '*' := fun hc => hstar rest (hc ▸ rfl)
        simpa [isHeader] using hc
    cases hv : readValue line with
    | error e => simp [hv, Except.map] at h
    | ok p =>
      rw [hv] at h
      cases h
      exact ⟨hhead, lineOption_of_readValue hv⟩

/-! ## All lines -/

/-- The addition with the weight that is kept. -/
def Addition.kept (a : Addition) : Addition := { a with weight := max 1 a.weight }

theorem entryAt_length (before rest : List Text) (line : Text) :
    entryAt (before ++ line :: rest) before.length =
      if isHeader line ∨ (lineOption line).value = [] then none
      else some ⟨nearestHeader before, (lineOption line).value, (lineOption line).weight⟩ := by
  simp [entryAt]

/-- The lines from a place on add what a reader adds that comes there with the
name in the nearest header. -/
theorem entries_from (before lines : List Text)
    (h : (lineAdditions (nearestHeader before) lines).2 = none) :
    (List.range' before.length lines.length).filterMap (entryAt (before ++ lines)) =
      (lineAdditions (nearestHeader before) lines).1.map Addition.kept := by
  induction lines generalizing before with
  | nil => rfl
  | cons line rest ih =>
    have happ : before ++ line :: rest = (before ++ [line]) ++ rest := by simp
    have hlength : before.length + 1 = (before ++ [line]).length := by simp
    have ih := ih (before ++ [line])
    rw [nearestHeader_concat] at ih
    rw [List.length_cons, List.range'_succ, List.filterMap_cons, entryAt_length, happ, hlength]
    cases hread : ScriptLine.read line with
    | error e => simp [lineAdditions_error hread] at h
    | ok l =>
      cases l with
      | header name =>
        obtain ⟨hheader, rfl⟩ := header_of_read hread
        rw [lineAdditions_header hread] at h ⊢
        simp only [hheader, if_true, true_or] at ih ⊢
        exact ih h
      | value value weight =>
        obtain ⟨hheader, hoption⟩ := option_of_read hread
        simp only [hheader, hoption, Bool.false_eq_true, if_false, false_or] at ih ⊢
        by_cases hne : value = []
        · subst hne
          rw [lineAdditions_blank hread] at h ⊢
          simpa using ih h
        · rw [lineAdditions_value hne hread] at h ⊢
          simp only [hne, if_false]
          rw [ih h]
          rfl

theorem entries_eq {lines : List Text} (h : (lineAdditions [] lines).2 = none) :
    entries lines = (lineAdditions [] lines).1.map Addition.kept := by
  have hfrom := entries_from [] lines h
  rwa [List.nil_append, List.length_nil, ← List.range_eq_range'] at hfrom

/-! ## What additions do to a store -/

theorem keptWeight_eq_max (n : Nat) : keptWeight n = max 1 n := by
  unfold keptWeight
  split <;> omega

namespace Store

theorem optionsOf_add (s : Store) (rule value : Text) (weight : Int) (name : Text) :
    (s.add rule value weight).optionsOf name =
      s.optionsOf name ++ if rule = name then [⟨value, keptWeight weight⟩] else [] := by
  unfold optionsOf add
  rw [get?_update]
  by_cases h : rule = name
  · subst h
    rw [if_pos rfl, if_pos rfl, get?_ensure_self]
    cases s.get? rule <;> rfl
  · have h' : ¬ name = rule := fun he => h he.symm
    rw [if_neg h', if_neg h, get?_ensure_other h', List.append_nil]

theorem optionsOf_addAll (s : Store) (as : List Addition) (name : Text) :
    (s.addAll as).optionsOf name =
      s.optionsOf name ++ ((as.map Addition.kept).filter (·.rule = name)).map Addition.option := by
  induction as generalizing s with
  | nil => simp [addAll_nil]
  | cons a as ih =>
    rw [addAll_cons, ih, optionsOf_add, keptWeight_eq_max, List.append_assoc, List.map_cons,
      List.filter_cons]
    by_cases h : a.rule = name <;> simp [h, Addition.kept, Addition.option]

/-- New rules stand after the old ones, in the order of their first additions. -/
theorem names_addAll (s : Store) (as : List Addition) :
    (s.addAll as).names = s.names ++ ((as.map (·.rule)).filter (· ∉ s.names)).eraseDups := by
  induction as generalizing s with
  | nil => simp [addAll_nil]
  | cons a as ih =>
    rw [addAll_cons, ih, names_add, List.map_cons, List.filter_cons]
    by_cases h : a.rule ∈ s.names
    · simp [h]
    · have hrest : ((as.map (·.rule)).filter (· ∉ s.names)).filter (fun n => !n == a.rule) =
          (as.map (·.rule)).filter (· ∉ s.names ++ [a.rule]) := by
        rw [List.filter_filter]
        refine List.filter_congr fun n _ => ?_
        by_cases hn : n = a.rule <;> simp [hn]
      simp only [h, if_false, not_false_eq_true, decide_true, if_true, List.eraseDups_cons, hrest,
        List.append_assoc, List.singleton_append]

theorem head?_eraseDups (names : List Text) : names.eraseDups.head? = names.head? := by
  cases names with
  | nil => rfl
  | cons name names => rw [List.eraseDups_cons]; rfl

theorem WellFormed.start_addAll {s : Store} (h : s.WellFormed) (as : List Addition) :
    (s.addAll as).start = if s.rules = [] then as.head?.map (·.rule) else s.start := by
  rw [(h.addAll as).start, names_addAll]
  split
  · next hnone =>
    have hnames : s.names = [] := by rw [names, hnone]; rfl
    simp [hnames, head?_eraseDups]
  · next hsome =>
    have hnames : s.names ≠ [] := by simpa [names] using hsome
    rw [h.start, List.head?_append_of_ne_nil _ hnames]

end Store

/-! ## Reading -/

/-- **Reading loses, doubles and moves nothing.** If a script is read to its end,
every rule has the options that it had and then one for each line with a value
under a header of its name, in the order of the text; the rules that were there
stay where they are, and the new ones follow in the order of their first values;
and only a store without rules gets another start, the rule of the first value. -/
theorem read_groups_lines (s : Store) (script : Text) (h : (s.read script).fault = none) :
    let t := (s.read script).store
    let added := entries (logicalLines script)
    (∀ name, t.optionsOf name =
        s.optionsOf name ++ (added.filter (·.rule = name)).map Addition.option) ∧
      t.names = s.names ++ ((added.map (·.rule)).filter (· ∉ s.names)).eraseDups ∧
      (s.Reachable → t.start = if s.rules = [] then added.head?.map (·.rule) else s.start) := by
  intro t added
  have hread := s.read_eq script
  have ht : t = s.addAll (scriptAdditions script).1 := congrArg Reading.store hread
  have hadded : added = (scriptAdditions script).1.map Addition.kept := by
    refine entries_eq ?_
    rw [hread] at h
    exact h
  have hrules : added.map (·.rule) = (scriptAdditions script).1.map (·.rule) := by
    rw [hadded, List.map_map]
    rfl
  have hhead : added.head?.map (·.rule) = (scriptAdditions script).1.head?.map (·.rule) := by
    rw [← List.head?_map, ← List.head?_map, hrules]
  refine ⟨fun name => ?_, ?_, fun hs => ?_⟩
  · rw [ht, hadded, Store.optionsOf_addAll]
  · rw [ht, hrules, Store.names_addAll]
  · rw [ht, hhead, hs.wellFormed.start_addAll]

/-- A value before all headers, two headers that are written apart and name one
rule, a weight of zero, a line with nothing but a weight, and a header by itself,
read into a store with a rule and into one without. -/
theorem read_groups_lines_of_two_headers :
    let s : Store := (Store.empty.read "*q\n5:x".toList).store
    let script : Text := "y\n* \\q\n0:z\n3:\n*e\n*q\n2:w".toList
    let t := (s.read script).store
    s.Reachable ∧ (s.read script).fault = none ∧
      t.optionsOf ['q'] = [⟨['x'], 5⟩, ⟨['z'], 1⟩, ⟨['w'], 2⟩] ∧ t.names = [['q'], []] ∧
      t.start = some ['q'] ∧ (Store.empty.read script).store.start = some [] := by
  intro s script t
  have hs : s.Reachable := .read _ .empty
  have hfault : (s.read script).fault = none := by decide
  have hadded : entries (logicalLines script) =
      [⟨[], ['y'], 1⟩, ⟨['q'], ['z'], 1⟩, ⟨['q'], ['w'], 2⟩] := by decide
  obtain ⟨hoptions, hnames, hstart⟩ := read_groups_lines s script hfault
  obtain ⟨-, -, hfirst⟩ := read_groups_lines .empty script (by decide)
  have hstart := hstart hs
  have hfirst := hfirst .empty
  rw [hadded] at hoptions hnames hstart hfirst
  refine ⟨hs, hfault, ?_, ?_, ?_, ?_⟩
  · rw [hoptions]
    decide
  · rw [hnames]
    decide
  · rw [hstart]
    decide
  · rw [hfirst]
    decide

end PhraseGrammar
