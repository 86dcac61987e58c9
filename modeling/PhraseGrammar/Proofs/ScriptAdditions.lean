/-
A script as the additions that it asks for. Reading logical lines is adding
what they ask for, in order, up to the first line that cannot be read
(`readLines_eq`), so a statement about reading is one about `lineAdditions`,
in which no store occurs.

What is added has a value, and a weight that can be written; both are facts
about one line.
-/
import Mathlib.Data.List.TakeWhile
import PhraseGrammar.Proofs.NumeralFacts
import PhraseGrammar.Proofs.StoreAdditions

namespace PhraseGrammar

/-- What logical lines ask to be added, `rule` being the name in the last
header, and the fault of the line that cannot be read. -/
def lineAdditions (rule : Text) : List Text → List Addition × Option NumeralError
  | [] => ([], none)
  | line :: rest =>
    match ScriptLine.read line with
    | .error e => ([], some e)
    | .ok (.header name) => lineAdditions name rest
    | .ok (.value text weight) =>
      let after := lineAdditions rule rest
      if text.isEmpty then after else (⟨rule, text, weight⟩ :: after.1, after.2)

/-- What a script asks to be added, and its fault. -/
def scriptAdditions (script : Text) : List Addition × Option NumeralError :=
  lineAdditions [] (logicalLines script)

section Line

variable {rule line : Text} {rest : List Text}

theorem lineAdditions_error {e : NumeralError} (h : ScriptLine.read line = .error e) :
    lineAdditions rule (line :: rest) = ([], some e) := by
  rw [lineAdditions, h]

theorem lineAdditions_header {name : Text} (h : ScriptLine.read line = .ok (.header name)) :
    lineAdditions rule (line :: rest) = lineAdditions name rest := by
  rw [lineAdditions, h]

theorem lineAdditions_blank {weight : Nat} (h : ScriptLine.read line = .ok (.value [] weight)) :
    lineAdditions rule (line :: rest) = lineAdditions rule rest := by
  rw [lineAdditions, h]
  rfl

theorem lineAdditions_value {value : Text} {weight : Nat} (hne : value ≠ [])
    (h : ScriptLine.read line = .ok (.value value weight)) :
    lineAdditions rule (line :: rest) =
      (⟨rule, value, weight⟩ :: (lineAdditions rule rest).1, (lineAdditions rule rest).2) := by
  rw [lineAdditions, h]
  exact if_neg (by simpa using hne)

end Line

/-- Lines are read on from where others end: under the last header, and not at all
if one of them cannot be read. -/
theorem lineAdditions_append (rule : Text) (ls : List Text) :
    ∃ rule', ∀ more, lineAdditions rule (ls ++ more) =
      match (lineAdditions rule ls).2 with
      | some e => ((lineAdditions rule ls).1, some e)
      | none => ((lineAdditions rule ls).1 ++ (lineAdditions rule' more).1, (lineAdditions rule' more).2) := by
  induction ls generalizing rule with
  | nil => exact ⟨rule, fun more => by simp [lineAdditions]⟩
  | cons line ls ih =>
    simp only [List.cons_append]
    cases hread : ScriptLine.read line with
    | error e => exact ⟨rule, fun more => by simp only [lineAdditions_error hread]⟩
    | ok l =>
      cases l with
      | header name =>
        simp only [lineAdditions_header hread]
        exact ih name
      | value value weight =>
        obtain ⟨rule', hrule'⟩ := ih rule
        refine ⟨rule', fun more => ?_⟩
        by_cases hne : value = []
        · subst hne
          rw [lineAdditions_blank hread, lineAdditions_blank hread, hrule']
        · rw [lineAdditions_value hne hread, lineAdditions_value hne hread, hrule']
          cases h : (lineAdditions rule ls).2 <;> simp

/-- **Reading is adding.** -/
theorem readLines_eq (s : Store) (rule : Text) (added : Nat) (lines : List Text) :
    readLines s rule added lines =
      ⟨s.addAll (lineAdditions rule lines).1, added + (lineAdditions rule lines).1.length,
        (lineAdditions rule lines).2⟩ := by
  induction lines generalizing s rule added with
  | nil => rfl
  | cons line rest ih =>
    rw [readLines]
    split
    · next e h => rw [lineAdditions_error h]; rfl
    · next name h => rw [lineAdditions_header h, ih]
    · next value weight h =>
      split
      · next hempty =>
        obtain rfl := List.isEmpty_iff.mp hempty
        rw [lineAdditions_blank h, ih]
      · next hne =>
        rw [lineAdditions_value (by simpa using hne) h, ih, Store.addAll_cons, List.length_cons]
        congr 1
        omega

theorem Store.read_eq (s : Store) (script : Text) :
    s.read script =
      ⟨s.addAll (scriptAdditions script).1, (scriptAdditions script).1.length,
        (scriptAdditions script).2⟩ := by
  rw [read, readLines_eq, Nat.zero_add]
  rfl

theorem Store.ofScript_eq_ok_iff {script : Text} {s : Store} :
    Store.ofScript script = .ok s ↔
      (scriptAdditions script).2 = none ∧ Store.empty.addAll (scriptAdditions script).1 = s := by
  rw [ofScript, read_eq]
  cases (scriptAdditions script).2 <;> simp

/-! ## What can be added -/

/-- An addition that a script can ask for: it has a value, and its weight was
read. -/
structure Addition.Scripted (a : Addition) : Prop where
  value : a.value ≠ []
  weight : tooLongToWrite a.weight = false

/-- The weight of a value is its digits before the first colon, if nothing else
stands there. -/
theorem splitWeight?_eq_some_iff {value digits rest : Text} :
    splitWeight? value = some (digits, rest) ↔
      digits ≠ [] ∧ (∀ c ∈ digits, c.isDigit = true) ∧ value = digits ++ ':' :: rest := by
  constructor
  · intro h
    simp only [splitWeight?] at h
    split at h
    · next d ds tail htake hdrop =>
      simp only [Option.some.injEq, Prod.mk.injEq] at h
      obtain ⟨rfl, rfl⟩ := h
      refine ⟨by simp [htake], fun c hc => List.mem_takeWhile_imp hc, ?_⟩
      rw [← hdrop, List.takeWhile_append_dropWhile]
    · cases h
  · rintro ⟨hne, hdigits, rfl⟩
    have hcolon : ¬ Char.isDigit ':' = true := by decide
    have htake : (digits ++ ':' :: rest).takeWhile Char.isDigit = digits := by
      rw [List.takeWhile_append_of_pos hdigits, List.takeWhile_cons_of_neg hcolon, List.append_nil]
    have hdrop : (digits ++ ':' :: rest).dropWhile Char.isDigit = ':' :: rest := by
      rw [List.dropWhile_append_of_pos hdigits, List.dropWhile_cons_of_neg hcolon]
    obtain ⟨d, ds, rfl⟩ := List.exists_cons_of_ne_nil hne
    simp only [splitWeight?, htake, hdrop]

theorem readValue_of_split {line digits rest : Text}
    (h : splitWeight? (unescape line) = some (digits, rest)) :
    readValue line = (readNumeral digits).map fun weight => (rest, weight) := by
  simp only [readValue, h]

theorem readValue_of_no_split {line : Text} (h : splitWeight? (unescape line) = none) :
    readValue line = .ok (unescape line, 1) := by
  simp only [readValue, h]

theorem short_of_readValue {line value : Text} {weight : Nat} (h : readValue line = .ok (value, weight)) :
    tooLongToWrite weight = false := by
  cases hsplit : splitWeight? (unescape line) with
  | none =>
    rw [readValue_of_no_split hsplit] at h
    cases h
    exact length_numeral_le_iff.mp (by decide)
  | some p =>
    obtain ⟨digits, rest⟩ := p
    rw [readValue_of_split hsplit] at h
    cases hn : readNumeral digits with
    | error e => simp [hn, Except.map] at h
    | ok n =>
      rw [hn] at h
      cases h
      exact short_of_readNumeral (splitWeight?_eq_some_iff.mp hsplit).2.1 hn

theorem short_of_read {line value : Text} {weight : Nat}
    (h : ScriptLine.read line = .ok (.value value weight)) : tooLongToWrite weight = false := by
  unfold ScriptLine.read at h
  split at h
  · cases h
  · cases hv : readValue line with
    | error e => simp [hv, Except.map] at h
    | ok p =>
      rw [hv] at h
      cases h
      exact short_of_readValue hv

/-- Whatever a script asks to be added has a value, and a weight that can be
written. -/
theorem scripted_of_mem_lineAdditions {rule : Text} {lines : List Text} {a : Addition}
    (h : a ∈ (lineAdditions rule lines).1) : a.Scripted := by
  induction lines generalizing rule with
  | nil => simp [lineAdditions] at h
  | cons line rest ih =>
    cases hread : ScriptLine.read line with
    | error e => simp [lineAdditions_error hread] at h
    | ok l =>
      cases l with
      | header name =>
        rw [lineAdditions_header hread] at h
        exact ih h
      | value value weight =>
        by_cases hne : value = []
        · subst hne
          rw [lineAdditions_blank hread] at h
          exact ih h
        · rw [lineAdditions_value hne hread] at h
          rcases List.mem_cons.mp h with rfl | h
          · exact ⟨hne, short_of_read hread⟩
          · exact ih h

end PhraseGrammar
