/-
What settings that were loaded are like: the limit on nesting is at least one,
and every grammar file is an absolute path that is read back from its text
(`Settings.load_sound`). So the texts of these paths name the same files as
sources of the command, none of them is the standard input, and reading them
fills a store as loading the files does (`readSources_files`).
-/
import Mathlib
import PhraseGrammar.Expansion
import PhraseGrammar.Settings
import PhraseGrammar.Proofs.PathFacts
import PhraseGrammar.Proofs.SourceFaults

namespace PhraseGrammar

/-- The working directory is a place that a path can lead to. -/
def FileTree.Placed (tree : FileTree) : Prop := ∀ part ∈ tree.cwd, IsComponent part

/-- A path of a file that can be handed on as a text. -/
structure Path.Handed (p : Path) : Prop where
  plain : p.Plain
  absolute : p.isAbsolute = true

/-- Settings for generation that can be used. -/
structure GenerationSettings.Sound (g : GenerationSettings) : Prop where
  files : ∀ p ∈ g.files, p.Handed
  limit : ∀ n, g.limit = some n → 1 ≤ n

/-! ## Checked settings -/

theorem ok_of_bind {ε α β : Type} {x : Except ε α} {f : α → Except ε β} {b : β}
    (h : (x >>= f) = .ok b) : ∃ a, x = .ok a ∧ f a = .ok b := by
  cases x with
  | error e => cases h
  | ok a => exact ⟨a, rfl, h⟩

section Checks

variable {tree : FileTree} {base : Path} {table : Toml.Table}

theorem handed_of_grammarPath (htree : tree.Placed) (hbase : base.Plain) {name : Text} {p : Path}
    (h : grammarPath tree base name = .ok p) : p.Handed := by
  unfold grammarPath at h
  simp only at h
  split at h
  · next habsolute =>
    cases h
    exact ⟨Path.plain_ofText name, habsolute⟩
  · split at h
    · cases h
    · cases h
      exact ⟨(hbase.join (Path.plain_ofText name)).resolve htree, rfl⟩

theorem handed_of_fileSetting (htree : tree.Placed) (hbase : base.Plain) {v : Toml.Value} {p : Path}
    (h : fileSetting tree base v = .ok p) : p.Handed := by
  unfold fileSetting at h
  split at h
  · split at h
    · cases h
    · split at h
      · cases h
      · next q hq =>
        split at h
        · cases h
          exact handed_of_grammarPath htree hbase hq
        · cases h
        · cases h
  · cases h

theorem handed_of_fileSettings (htree : tree.Placed) (hbase : base.Plain) {vs : List Toml.Value}
    {ps : List Path} (h : fileSettings tree base vs = .ok ps) : ∀ p ∈ ps, p.Handed := by
  induction vs generalizing ps with
  | nil =>
    cases h
    simp
  | cons v vs ih =>
    rw [fileSettings] at h
    cases hv : fileSetting tree base v with
    | error e => simp [hv] at h
    | ok p =>
      cases hvs : fileSettings tree base vs with
      | error e => simp [hv, hvs, Except.map] at h
      | ok qs =>
        obtain rfl : p :: qs = ps := by simpa [hv, hvs, Except.map] using h
        exact List.forall_mem_cons.mpr ⟨handed_of_fileSetting htree hbase hv, ih hvs⟩

theorem handed_of_filesSetting (htree : tree.Placed) (hbase : base.Plain) {ps : List Path}
    (h : filesSetting tree base table = .ok ps) : ∀ p ∈ ps, p.Handed := by
  unfold filesSetting at h
  split at h
  · cases h
    simp
  · exact handed_of_fileSettings htree hbase h
  · exact handed_of_fileSettings htree hbase h
  · cases h

theorem one_le_of_positiveSetting {s : NumberSetting} {value : Option Nat}
    (h : positiveSetting s table = .ok value) : ∀ n, value = some n → 1 ≤ n := by
  rintro n rfl
  unfold positiveSetting at h
  split at h
  · cases h
  · cases h
  · next m _ =>
    split at h
    · cases h
    · next hm =>
      obtain rfl : m.toNat = n := by simpa using h
      omega

theorem GenerationSettings.checked_of_ofTable {g : GenerationSettings}
    (h : GenerationSettings.ofTable tree base table = .ok g) :
    filesSetting tree base table = .ok g.files ∧ positiveSetting .limit table = .ok g.limit := by
  obtain ⟨rule, -, h⟩ := ok_of_bind h
  obtain ⟨count, -, h⟩ := ok_of_bind h
  obtain ⟨files, hfiles, h⟩ := ok_of_bind h
  obtain ⟨seed, -, h⟩ := ok_of_bind h
  obtain ⟨limit, hlimit, h⟩ := ok_of_bind h
  cases h
  exact ⟨hfiles, hlimit⟩

theorem GenerationSettings.ofTable_sound (htree : tree.Placed) (hbase : base.Plain)
    {g : GenerationSettings} (h : GenerationSettings.ofTable tree base table = .ok g) : g.Sound := by
  obtain ⟨hfiles, hlimit⟩ := GenerationSettings.checked_of_ofTable h
  exact ⟨handed_of_filesSetting htree hbase hfiles, one_le_of_positiveSetting hlimit⟩

theorem GenerationSettings.default_sound : GenerationSettings.default.Sound :=
  ⟨by simp [GenerationSettings.default], by simp [GenerationSettings.default]⟩

theorem Settings.generation_of_ofTable {c : Settings} (h : Settings.ofTable tree base table = .ok c) :
    c.generation = .default ∨ ∃ t, GenerationSettings.ofTable tree base t = .ok c.generation := by
  have hserving {g : GenerationSettings} {x : Except SettingsFault ServingSettings}
      (h : (x >>= fun serving => pure ⟨g, serving⟩) = Except.ok c) : c.generation = g := by
    obtain ⟨serving, -, h⟩ := ok_of_bind h
    cases h
    rfl
  obtain ⟨generation?, -, h⟩ := ok_of_bind h
  cases generation? with
  | none =>
    obtain ⟨g, hg, h⟩ := ok_of_bind h
    obtain ⟨serving?, -, h⟩ := ok_of_bind h
    cases hg
    left
    cases serving? <;> exact hserving h
  | some t =>
    obtain ⟨g, hg, h⟩ := ok_of_bind h
    obtain ⟨serving?, -, h⟩ := ok_of_bind h
    have hsame : c.generation = g := by cases serving? <;> exact hserving h
    exact .inr ⟨t, by rw [hsame]; exact hg⟩

theorem Settings.ofTable_sound (htree : tree.Placed) (hbase : base.Plain) {c : Settings}
    (h : Settings.ofTable tree base table = .ok c) : c.generation.Sound := by
  rcases Settings.generation_of_ofTable h with hdefault | ⟨t, ht⟩
  · rw [hdefault]
    exact GenerationSettings.default_sound
  · exact GenerationSettings.ofTable_sound htree hbase ht

end Checks

theorem Settings.ofTable_of_load {tree : FileTree} {p : Path} {c : Settings}
    (h : Settings.load tree p = .ok c) : ∃ table, Settings.ofTable tree p.parent table = .ok c := by
  unfold Settings.load at h
  split at h
  · cases h
  · next table _ =>
    cases htable : Settings.ofTable tree p.parent table with
    | error e => simp [htable, Except.mapError] at h
    | ok c' =>
      obtain rfl : c' = c := by simpa [htable, Except.mapError] using h
      exact ⟨table, htable⟩

/-- **Settings that were loaded can be used.** -/
theorem Settings.load_sound {tree : FileTree} (htree : tree.Placed) {p : Path} (hp : p.Plain)
    {c : Settings} (h : Settings.load tree p = .ok c) : c.generation.Sound := by
  obtain ⟨table, htable⟩ := Settings.ofTable_of_load h
  exact Settings.ofTable_sound htree hp.parent htable

/-- The limit is at least one, wherever the configuration is and whatever files it names. -/
theorem Settings.one_le_limit_of_load {tree : FileTree} {p : Path} {c : Settings}
    (h : Settings.load tree p = .ok c) : ∀ n, c.generation.limit = some n → 1 ≤ n := by
  obtain ⟨table, htable⟩ := Settings.ofTable_of_load h
  rcases Settings.generation_of_ofTable htable with hdefault | ⟨t, ht⟩
  · rw [hdefault]
    simp [GenerationSettings.default]
  · exact one_le_of_positiveSetting (GenerationSettings.checked_of_ofTable ht).2

theorem Generator.of_positive {limit : Option Nat} (h : ∀ n, limit = some n → 1 ≤ n) (store : Store) :
    Generator.of store (limit.map Int.ofNat) = .ok ⟨store, limit, stackLevels⟩ := by
  cases limit with
  | none => rfl
  | some n =>
    have hone : ¬ Int.ofNat n < 1 := by
      have := h n rfl
      simp
      omega
    rw [Option.map_some, Generator.of, if_neg hone]
    rfl

/-! ## Reading the files of settings -/

theorem Path.Handed.ne_stdin {p : Path} (h : p.Handed) : p.text ≠ stdinName := by
  intro hstdin
  have hhead := Path.text_head h.plain h.absolute
  rw [hstdin] at hhead
  cases hhead

theorem read_fault_of_short {s : Store} {text : Text} (h : ¬ Overlong text) : (s.read text).fault = none := by
  cases hf : (s.read text).fault with
  | none => rfl
  | some e =>
    have hsome : (s.read text).fault.isSome = true := by rw [hf]; rfl
    exact absurd (overlong_iff.mp hsome) h

/-- The file can be read to its end. -/
def FileTree.Parses (tree : FileTree) (p : Path) : Prop :=
  ∃ text, tree.readText p = .ok text ∧ ¬ Overlong text

/-- **Sources by the texts of paths fill a store as the files do**, without a
word unless progress is to be shown. -/
theorem readSources_files {tree : FileTree} {files : List Path} (hfiles : ∀ p ∈ files, p.Handed)
    (hparse : ∀ p ∈ files, tree.Parses p) (s : Store) (stdin : Text) :
    ∃ t reports, loadFiles tree s files = (t, none) ∧
      readSources tree s stdin (files.map Path.text) = ⟨t, stdin, 0, reports, none⟩ ∧
      reports.flatMap (·.line false) = [] := by
  induction files generalizing s with
  | nil => exact ⟨s, [], rfl, rfl, rfl⟩
  | cons p files ih =>
    have hp := hfiles p (by simp)
    obtain ⟨text, htext, hshort⟩ := hparse p (by simp)
    have hfault := read_fault_of_short (s := s) hshort
    have hsource : readSource tree stdin p.text = (.ok text, stdin) := by
      rw [readSource, if_neg hp.ne_stdin, Path.ofText_text hp.plain, htext]
    obtain ⟨t, reports, hload, hread, hlines⟩ :=
      ih (fun q hq => hfiles q (by simp [hq])) (fun q hq => hparse q (by simp [hq])) (s.read text).store
    refine ⟨t, .parsing (sourceLabel p.text) ::
      .parsed (s.read text).added (s.read text).store.rules.length :: reports, ?_, ?_, ?_⟩
    · simp only [loadFiles, htext, hfault, hload]
    · simp only [List.map_cons, readSources, hsource, hfault, hread]
    · rw [List.flatMap_cons, List.flatMap_cons, hlines]
      rfl

/-- Without files, the standard input is read instead; if it is empty nothing
is added. -/
theorem readSources_empty_stdin (tree : FileTree) (s : Store) :
    ∃ reports, readSources tree s [] [stdinName] = ⟨s, [], 0, reports, none⟩ ∧
      reports.flatMap (·.line false) = [] := by
  have hread : (s.read []).store = s ∧ (s.read []).fault = none := ⟨rfl, rfl⟩
  have hsource : readSource tree [] stdinName = (.ok [], []) := if_pos rfl
  refine ⟨[.parsing (sourceLabel stdinName), .parsed (s.read []).added (s.read []).store.rules.length],
    ?_, rfl⟩
  simp only [readSources, hsource, hread.1, hread.2]

/-! ## A configuration of one grammar file -/

/-- A file of ASCII text. -/
def Entry.ascii (t : Text) : Entry := .file (t.map fun c => c.toNat.toUInt8)

/-- The place of the configuration `c`, as seen from the working directory. -/
def configurationPath : Path := ⟨[], [['c']]⟩

/-- The place of the grammar file `g`. -/
def grammarFile : Path := ⟨['/'], [['w'], ['g']]⟩

/-- A configuration that names `g`, and what stands there. -/
def FileTree.withGrammar (grammar : Entry) : FileTree :=
  ⟨[([['w'], ['c']], .ascii "[psr]\nfiles=\"g\"".toList), ([['w'], ['g']], grammar)], [['w']]⟩

/-- The settings with nothing but grammar files. -/
def Settings.ofFiles (files : List Path) : Settings := ⟨⟨files, none, 1, none, none⟩, .default⟩

theorem Settings.load_withGrammar (grammar : Entry) :
    Settings.load (.withGrammar grammar) configurationPath = .ok (.ofFiles [grammarFile]) := by
  have hread : readConfiguration (.withGrammar grammar) configurationPath =
      .ok [("psr".toList, .table [("files".toList, .string ['g'])])] := by cbv
  rw [Settings.load_of_read hread]
  rfl

end PhraseGrammar
