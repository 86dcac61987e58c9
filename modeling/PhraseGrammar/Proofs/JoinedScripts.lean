/-
Scripts read one after the other are one script: the texts with a line between
them that names the rule of the empty name, and an empty line before it
(`read_joined_scripts`).

The empty line takes whatever the text before leaves open. A line that goes on
ends with it; a lone carriage return makes one line end with the first line
feed, so the empty line is the one that was there; otherwise it is a line of
its own, which has no value. The header after it sets the rule back to what it
is at the start of a script, so nothing of the text before is left but the
store, or the fault that stops the reading.
-/
import PhraseGrammar.Sources
import PhraseGrammar.Proofs.LineGroups
import PhraseGrammar.Proofs.ScriptAdditions

namespace PhraseGrammar

/-- What stands between scripts that are read as one: the end of a line, an
empty line, and a header that names the empty name. -/
def scriptSeparator : Text := ['\n', '\n', '*', '\n']

/-- Goes on with another script where the reading of one has ended, unless a
fault has stopped it. -/
def Reading.readOn (r : Reading) (script : Text) : Reading :=
  match r.fault with
  | some _ => r
  | none =>
    let after := r.store.read script
    { after with added := r.added + after.added }

/-! ## The lines of joined scripts -/

theorem joinLines_separator {left : Option Text} (hleft : ∀ l ∈ left, OpenLine l) (more : List Text) :
    joinLines left ([] :: ['*'] :: more) = left.getD [] :: ['*'] :: joinLines none more := by
  have hstar : joinLines none (['*'] :: more) = ['*'] :: joinLines none more := rfl
  cases left with
  | none => rfl
  | some l =>
    have hl := (hleft l rfl).complete
    simp [joinLines, hl] at hstar ⊢
    exact hstar

theorem splitLines_separator (t rest : Text) :
    ∃ ls, (splitLines t = ls ∨ splitLines t = ls ++ [[]]) ∧
      splitLines (t ++ scriptSeparator ++ rest) = ls ++ [] :: ['*'] :: splitLines rest := by
  have happ : t ++ scriptSeparator ++ rest = t ++ '\n' :: ('\n' :: '*' :: '\n' :: rest) := by
    simp [scriptSeparator]
  have hrest : splitLines ('\n' :: '*' :: '\n' :: rest) = [] :: ['*'] :: splitLines rest := by
    simp [splitLines, normalizeNewlines_cons, cutAtLineFeeds]
  rw [happ, ← hrest]
  exact splitLines_append t _

/-- The logical lines of joined scripts are those of the first, perhaps an
empty line, the header and those of the second. -/
theorem logicalLines_separator (t rest : Text) :
    ∃ blank, (blank = [] ∨ blank = [[]]) ∧
      logicalLines (t ++ scriptSeparator ++ rest) =
        logicalLines t ++ (blank ++ ['*'] :: logicalLines rest) := by
  obtain ⟨ls, ht, hall⟩ := splitLines_separator t rest
  have hfeed : ∀ l ∈ ls, '\n' ∉ l := by
    intro l hl
    refine not_mem_of_mem_splitLines (t := t) ?_
    rcases ht with ht | ht <;> rw [ht]
    · exact hl
    · exact List.mem_append_left _ hl
  obtain ⟨done, left, hleft, -, hdone⟩ := joinLines_append openLine_none hfeed
  have hjoined : logicalLines (t ++ scriptSeparator ++ rest) =
      done ++ left.getD [] :: ['*'] :: logicalLines rest := by
    rw [logicalLines, hall, hdone, joinLines_separator hleft]
    rfl
  rcases ht with ht | ht
  · -- the empty line ends the line that is left open, or is one of its own
    have hfirst : logicalLines t = done ++ left.toList := by
      rw [logicalLines, ht]
      simpa [joinLines] using hdone []
    cases left with
    | none => exact ⟨[[]], .inr rfl, by rw [hjoined, hfirst]; simp⟩
    | some l => exact ⟨[], .inl rfl, by rw [hjoined, hfirst]; simp⟩
  · -- the first text has the empty line itself
    have hfirst : logicalLines t = done ++ [left.getD []] := by
      rw [logicalLines, ht, hdone]
      cases left with
      | none => rfl
      | some l => simp [joinLines, (hleft l rfl).complete]
    exact ⟨[], .inl rfl, by rw [hjoined, hfirst]; simp⟩

/-! ## What joined scripts ask for -/

theorem scriptAdditions_separator (t rest : Text) :
    scriptAdditions (t ++ scriptSeparator ++ rest) =
      match (scriptAdditions t).2 with
      | some e => ((scriptAdditions t).1, some e)
      | none => ((scriptAdditions t).1 ++ (scriptAdditions rest).1, (scriptAdditions rest).2) := by
  obtain ⟨blank, hblank, hlines⟩ := logicalLines_separator t rest
  have hheader : ScriptLine.read ['*'] = .ok (.header []) := rfl
  have hempty : ScriptLine.read [] = .ok (.value [] 1) := rfl
  have hmore (rule : Text) :
      lineAdditions rule (blank ++ ['*'] :: logicalLines rest) = scriptAdditions rest := by
    rcases hblank with rfl | rfl
    · exact lineAdditions_header hheader
    · exact (lineAdditions_blank hempty).trans (lineAdditions_header hheader)
  obtain ⟨rule, happend⟩ := lineAdditions_append [] (logicalLines t)
  rw [scriptAdditions, hlines, happend, hmore]
  rfl

/-! ## Reading joined scripts -/

theorem Store.read_separator (s : Store) (t rest : Text) :
    s.read (t ++ scriptSeparator ++ rest) = (s.read t).readOn rest := by
  rw [read_eq, scriptAdditions_separator, Reading.readOn]
  simp only [read_eq]
  cases h : (scriptAdditions t).2 with
  | some e => rfl
  | none => simp [addAll_append]

/-- The files of a list, read one after the other, are one script. -/
theorem loadFiles_eq_read {tree : FileTree} {files : List Path} {texts : List Text}
    (h : files.map tree.readText = texts.map .ok) (s : Store) :
    loadFiles tree s files =
      ((s.read (joinWith scriptSeparator texts)).store,
        (s.read (joinWith scriptSeparator texts)).fault.map .numeral) := by
  induction files generalizing s texts with
  | nil =>
    obtain rfl : texts = [] := by simpa using h.symm
    rfl
  | cons p files ih =>
    cases texts with
    | nil => simp at h
    | cons t texts =>
      obtain ⟨ht, hrest⟩ := List.cons.inj h
      rw [loadFiles, ht]
      cases texts with
      | nil =>
        obtain rfl : files = [] := by simpa using hrest
        rw [joinWith]
        cases hf : (s.read t).fault <;> simp [hf, loadFiles]
      | cons u texts =>
        rw [joinWith, Store.read_separator, Reading.readOn]
        cases hf : (s.read t).fault with
        | some e => simp [hf]
        | none => simp [hf, ih hrest]

/-- **Scripts that are read one after the other are one script**, in which a
separator stands between each two. The store is the same, and so is the fault,
if there is one, with the store that it leaves; files that can be read are
loaded as the script that their texts make. -/
theorem read_joined_scripts :
    (∀ (s : Store) (t₁ t₂ : Text),
      s.read (t₁ ++ scriptSeparator ++ t₂) = (s.read t₁).readOn t₂) ∧
    ∀ (tree : FileTree) (files : List Path) (texts : List Text),
      files.map tree.readText = texts.map .ok →
      let joined := joinWith scriptSeparator texts
      (∀ s : Store, loadFiles tree s files =
          ((s.read joined).store, (s.read joined).fault.map .numeral)) ∧
        (∀ s, Store.ofScript joined = .ok s ↔ loadFiles tree .empty files = (s, none)) ∧
        ∀ e, Store.ofScript joined = .error e ↔
          (loadFiles tree .empty files).2 = some (.numeral e) := by
  refine ⟨Store.read_separator, ?_⟩
  intro tree files texts h joined
  have hload (s : Store) : loadFiles tree s files =
      ((s.read joined).store, (s.read joined).fault.map .numeral) := loadFiles_eq_read h s
  refine ⟨hload, fun s => ?_, fun e => ?_⟩
  · rw [hload, Store.ofScript]
    cases (Store.empty.read joined).fault <;> simp
  · rw [hload, Store.ofScript]
    cases (Store.empty.read joined).fault <;> simp

/-- A file that ends in the middle of a line, and one that has no header. -/
theorem read_joined_scripts_at_open_line :
    let tree : FileTree := ⟨[([['w'], ['a']], .file [42, 114, 10, 120, 92]), ([['w'], ['b']], .file [121])],
      [['w']]⟩
    let files : List Path := [⟨[], [['a']]⟩, ⟨[], [['b']]⟩]
    let texts : List Text := ["*r\nx\\".toList, "y".toList]
    let s : Store :=
      ⟨[(['r'], ⟨['r'], [⟨['x'], 1⟩], 1⟩), ([], ⟨[], [⟨['y'], 1⟩], 1⟩)], some ['r']⟩
    files.map tree.readText = texts.map .ok ∧
      Store.ofScript (joinWith scriptSeparator texts) = .ok s ∧ loadFiles tree .empty files = (s, none) := by
  intro tree files texts s
  have htexts : files.map tree.readText = texts.map .ok := by decide
  have hscript : Store.ofScript (joinWith scriptSeparator texts) = .ok s := by decide
  exact ⟨htexts, hscript, ((read_joined_scripts.2 tree files texts htexts).2.1 s).mp hscript⟩

end PhraseGrammar
