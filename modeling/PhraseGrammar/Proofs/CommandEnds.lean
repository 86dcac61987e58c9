/-
How the command ends. It reports what goes wrong, by a complaint or by the
usage for a misuse, but for what these lead to (`runCommand_reported_iff`):
- a configuration that is not text, holds a number of too many digits or is
  nested too deep, or whose values are a file name with a NUL or a host that
  has no text;
- a source that has a weight of too many digits, or a NUL in its name;
- a switch that is given a blank where its value is used.

They end it in a fault of its own. Everything else is reported, which for the
dump rests on what was read: weights that were read can be written
(`writable_readSources`).
-/
import Mathlib
import PhraseGrammar.CommandLine
import PhraseGrammar.Proofs.SourceFaults

namespace PhraseGrammar

/-! ## Reported ends -/

/-- The command ended well, or with a complaint, or with its usage. -/
def CommandResult.Reported (r : CommandResult) : Prop :=
  r.exit = .code 0 ∨ (r.exit = .code 1 ∧ "Error".toList <:+: r.stderr) ∨
    (r.exit = .code 2 ∧ ∃ message, phraseCommand.misuseText message <:+ r.stderr)

/-- The result is a fault if `c` holds, and is reported if not. -/
def CommandResult.FaultIff (r : CommandResult) (c : Prop) : Prop :=
  (r.Reported ∧ ¬ c) ∨ ((∃ f, r.exit = .fault f) ∧ c)

namespace CommandResult

variable {r : CommandResult} {c c' : Prop}

theorem Reported.no_fault (h : r.Reported) : ¬ ∃ f, r.exit = .fault f := by
  rintro ⟨f, hf⟩
  rcases h with h | ⟨h, -⟩ | ⟨h, -⟩ <;> rw [hf] at h <;> cases h

theorem FaultIff.reported_iff (h : r.FaultIff c) : r.Reported ↔ ¬ c := by
  rcases h with ⟨hr, hc⟩ | ⟨hf, hc⟩
  · simp [hr, hc]
  · simp only [hc, not_true_eq_false, iff_false]
    exact fun hr => hr.no_fault hf

theorem FaultIff.fault_iff (h : r.FaultIff c) : (∃ f, r.exit = .fault f) ↔ c := by
  rcases h with ⟨hr, hc⟩ | ⟨hf, hc⟩
  · simp only [hc, iff_false]
    exact hr.no_fault
  · simp [hf, hc]

theorem FaultIff.congr (h : r.FaultIff c) (hc : c ↔ c') : r.FaultIff c' := by
  rwa [← propext hc]

theorem Reported.after (h : r.Reported) (before : Text) :
    { r with stderr := before ++ r.stderr }.Reported := by
  have hsuffix : r.stderr <:+ before ++ r.stderr := List.suffix_append _ _
  rcases h with h | ⟨h, hmessage⟩ | ⟨h, message, husage⟩
  · exact .inl h
  · exact .inr (.inl ⟨h, hmessage.trans hsuffix.isInfix⟩)
  · exact .inr (.inr ⟨h, message, husage.trans hsuffix⟩)

theorem FaultIff.after (h : r.FaultIff c) (before : Text) :
    { r with stderr := before ++ r.stderr }.FaultIff c :=
  h.imp (fun ⟨hr, hc⟩ => ⟨hr.after before, hc⟩) id

end CommandResult

open CommandResult (FaultIff)

/-! ## Settings -/

/-- The file is there, but it is not text, or its text cannot be read for
another reason than its grammar. -/
def UnreadableUnreported (tree : FileTree) (p : Path) : Prop :=
  tree.holds p = .ok true ∧ ∃ octets, tree.readOctets p = .ok octets ∧
    ((∃ e, decodeUtf8 octets = .error e) ∨
      ∃ text fault, decodeUtf8 octets = .ok text ∧ Toml.read text = .error fault ∧ fault ≠ .malformed)

/-- A configuration that the command does not report: it cannot be read, or
one of its values has a NUL in a file name or is a host without a text. -/
def UnreportedSettings (tree : FileTree) (p : Path) : Prop :=
  UnreadableUnreported tree p ∨
    ∃ table fault, readConfiguration tree p = .ok table ∧
      Settings.ofTable tree p.parent table = .error fault ∧
      (fault = .nulInPath ∨ ∃ e, fault = .hostWithoutText e)

theorem ofToml_unreported_iff {p : Path} {fault : Toml.Fault} :
    (SettingsError.ofToml p fault).isReported = false ↔ fault ≠ .malformed := by
  cases fault <;> simp [SettingsError.ofToml, SettingsError.isReported]

theorem values_unreported_iff {fault : SettingsFault} :
    (SettingsError.values fault).isReported = false ↔
      fault = .nulInPath ∨ ∃ e, fault = .hostWithoutText e := by
  cases fault <;> simp [SettingsError.isReported]

theorem readConfiguration_unreported_iff {tree : FileTree} {p : Path} :
    (∃ e, readConfiguration tree p = .error e ∧ e.isReported = false) ↔ UnreadableUnreported tree p := by
  unfold readConfiguration UnreadableUnreported
  cases tree.holds p with
  | error e => simp [SettingsError.isReported]
  | ok there =>
    cases there with
    | false => simp [SettingsError.isReported]
    | true =>
      cases tree.readOctets p with
      | error e => simp [SettingsError.isReported]
      | ok octets =>
        cases hdecode : decodeUtf8 octets with
        | error e => simp [hdecode, SettingsError.isReported]
        | ok text => cases htoml : Toml.read text <;>
            simp [hdecode, htoml, Except.mapError, ofToml_unreported_iff]

theorem load_unreported_iff {tree : FileTree} {p : Path} :
    (∃ e, Settings.load tree p = .error e ∧ e.isReported = false) ↔ UnreportedSettings tree p := by
  rw [UnreportedSettings, ← readConfiguration_unreported_iff]
  unfold Settings.load
  cases readConfiguration tree p with
  | error e => simp
  | ok table => cases hvalues : Settings.ofTable tree p.parent table <;>
      simp [hvalues, Except.mapError, values_unreported_iff]

/-- A switch for the configuration that is given a blank, or a configuration
that the command does not report. -/
def Arguments.SettingsFail (a : Arguments) (tree : FileTree) : Prop :=
  a.config = .blank ∨ ∃ p, a.config = .value p ∧ UnreportedSettings tree p

theorem settings_unreported_iff {a : Arguments} {tree : FileTree} :
    (∃ f, a.settings tree = .error f ∧ f.isReported = false) ↔ a.SettingsFail tree := by
  rw [Arguments.SettingsFail]
  unfold Arguments.settings
  cases hconfig : a.config with
  | absent => simp
  | blank => simp [CommandFault.isReported]
  | value p =>
    simp only [reduceCtorEq, Given.value.injEq, false_or, exists_eq_left', ← load_unreported_iff]
    cases Settings.load tree p with
    | ok s => simp
    | error e => simp [CommandFault.isReported]

/-! ## Generating -/

section Given

variable {α : Type} {g : Given α}

theorem Given.resolve_eq_none_iff {fallback : Option α} : g.resolve fallback = none ↔ g = .blank := by
  cases g <;> simp [Given.resolve]

theorem Given.getD_eq_none_iff {default : α} : g.getD default = none ↔ g = .blank := by
  cases g <;> simp [Given.getD]

theorem Given.ne_blank_of_resolve {fallback v : Option α} (h : g.resolve fallback = some v) :
    g ≠ .blank := by
  rintro rfl
  cases h

theorem Given.ne_blank_of_getD {default v : α} (h : g.getD default = some v) : g ≠ .blank := by
  rintro rfl
  cases h

end Given

theorem Generator.of_cases (store : Store) (limit : Option Int) :
    (∃ e n, Generator.of store limit = .error e ∧ limit = some n ∧ n < 1) ∨
      ∃ g, Generator.of store limit = .ok g ∧ ∀ n, limit = some n → 1 ≤ n := by
  cases limit with
  | none => exact .inr ⟨_, rfl, by simp⟩
  | some n =>
    rw [Generator.of]
    split
    · next h => exact .inl ⟨_, n, rfl, rfl, h⟩
    · next h =>
      refine .inr ⟨_, rfl, ?_⟩
      rintro _ ⟨⟩
      omega

/-- A switch is given a blank where its value is used: that of the count
always, those of the seed and the limit if the count is at least one, and that
of the rule if so is the limit, too. -/
def Arguments.BlankUsed (a : Arguments) (settings : GenerationSettings) : Prop :=
  a.count = .blank ∨ ∃ count, a.count.getD settings.count = some count ∧ 1 ≤ count ∧
    (a.seed = .blank ∨ a.limit = .blank ∨ a.rule = .blank ∧
      ∀ limit, a.limit.resolve (settings.limit.map Int.ofNat) = some (some limit) → 1 ≤ limit)

theorem reported_session {σ : Type} (s : Session σ) (verbose : Bool) : (s.result verbose).Reported := by
  unfold Session.result
  split
  · next e _ => exact .inr (.inl ⟨rfl, s.notices.flatMap (·.line verbose), ": ".toList ++ complaintAbout e ++ ['\n'],
      by simp⟩)
  · exact .inl rfl

theorem faultIff_print (a : Arguments) (settings : GenerationSettings) (g : Generator) (source : Source)
    (count : Nat) : (a.print settings g source count).FaultIff (a.rule = .blank) := by
  unfold Arguments.print
  cases h : a.rule.resolve settings.rule with
  | none => exact .inr ⟨⟨_, rfl⟩, Given.resolve_eq_none_iff.mp h⟩
  | some rule => exact .inl ⟨reported_session _ _, Given.ne_blank_of_resolve h⟩

/-- Generating ends in a fault exactly if a blank is used. -/
theorem faultIff_generate (a : Arguments) (settings : GenerationSettings) (entropy : Int)
    (store : Store) : (a.generate settings entropy store).FaultIff (a.BlankUsed settings) := by
  unfold Arguments.generate
  cases hcount : a.count.getD (settings.count : Int) with
  | none => exact .inr ⟨⟨_, rfl⟩, .inl (Given.getD_eq_none_iff.mp hcount)⟩
  | some count =>
    have hgiven : a.count ≠ .blank := Given.ne_blank_of_getD hcount
    have hused : a.BlankUsed settings ↔ 1 ≤ count ∧ (a.seed = .blank ∨ a.limit = .blank ∨
        a.rule = .blank ∧
          ∀ limit, a.limit.resolve (settings.limit.map Int.ofNat) = some (some limit) → 1 ≤ limit) := by
      simp [Arguments.BlankUsed, hgiven, hcount]
    refine FaultIff.congr ?_ hused.symm
    simp only
    split
    · next hlow =>
      exact .inl ⟨.inr (.inr ⟨rfl, _, List.suffix_refl _⟩), fun h => absurd h.1 (by omega)⟩
    next hhigh =>
    have hone : 1 ≤ count := by omega
    split
    · next hseed => exact .inr ⟨⟨_, rfl⟩, hone, .inl (Given.resolve_eq_none_iff.mp hseed)⟩
    · next hlimit _ => exact .inr ⟨⟨_, rfl⟩, hone, .inr (.inl (Given.resolve_eq_none_iff.mp hlimit))⟩
    next seed limit hseed hlimit =>
    have hseed' : a.seed ≠ .blank := Given.ne_blank_of_resolve hseed
    have hlimit' : a.limit ≠ .blank := Given.ne_blank_of_resolve hlimit
    simp only [hone, hseed', hlimit', false_or, true_and, hlimit, Option.some.injEq]
    rcases Generator.of_cases store limit with ⟨e, n, hg, rfl, hn⟩ | ⟨g, hg, hkept⟩
    · rw [hg]
      refine .inl ⟨.inr (.inl ⟨rfl, [], _, rfl⟩), fun h => ?_⟩
      have := h.2 n rfl
      omega
    · rw [hg]
      exact (faultIff_print a settings g _ _).congr ⟨fun h => ⟨h, hkept⟩, And.left⟩

/-! ## The whole command -/

theorem reported_dumpResult {store : Store} (h : store.Writable) : (dumpResult store).Reported := by
  rw [dumpResult, Store.dump_eq_ok_iff.mpr ⟨h, rfl⟩]
  exact .inl rfl

/-- A source stops the reading, or else they are all read and then a blank is
used to generate. -/
def Arguments.ProcessFail (a : Arguments) (env : Environment) (settings : GenerationSettings) : Prop :=
  (∃ name ∈ a.sources settings, StopsReading env.tree env.stdin name) ∨
    (∀ name ∈ a.sources settings, Readable env.tree name) ∧ a.dump = false ∧ a.BlankUsed settings

theorem faultIff_process (a : Arguments) (env : Environment) (settings : GenerationSettings) :
    (a.process env settings).FaultIff (a.ProcessFail env settings) := by
  have hstops : (readSources env.tree .empty env.stdin (a.sources settings)).fault.isSome = true ↔
      ∃ name ∈ a.sources settings, StopsReading env.tree env.stdin name := readSources_fault_iff
  unfold Arguments.process Arguments.ProcessFail
  rw [← hstops]
  simp only
  split
  · next e hfault => exact .inr ⟨⟨_, rfl⟩, .inl (by rw [hfault]; rfl)⟩
  next hfault =>
  rw [← readSources_failures_iff hfault]
  simp only [hfault, Option.isSome_none, Bool.false_eq_true, false_or]
  split
  · next hfail => exact .inl ⟨.inr (.inl ⟨rfl, reported_of_failures _ hfail⟩), fun h => by omega⟩
  next hfail =>
  have hzero : (readSources env.tree .empty env.stdin (a.sources settings)).failures = 0 := by omega
  cases hdump : a.dump with
  | true =>
    have hreported := reported_dumpResult (writable_readSources env.tree env.stdin (a.sources settings))
    exact .inl ⟨hreported.after _, by simp⟩
  | false =>
    exact ((faultIff_generate a settings env.entropy _).after _).congr (by simp [hzero])

/-- The configuration fails unreported, or the sources that it leads to do, or
a blank is used. -/
def Arguments.Fail (a : Arguments) (env : Environment) : Prop :=
  a.SettingsFail env.tree ∨
    ∃ settings, a.settings env.tree = .ok settings ∧ a.ProcessFail env settings

theorem faultIff_run (a : Arguments) (env : Environment) : (a.run env).FaultIff (a.Fail env) := by
  unfold Arguments.run Arguments.Fail
  rw [← settings_unreported_iff]
  cases hsettings : a.settings env.tree with
  | ok settings => exact (faultIff_process a env settings).congr (by simp)
  | error f =>
    simp only
    split
    · next hf => exact .inl ⟨.inr (.inl ⟨rfl, [], _, rfl⟩), by simp [hf]⟩
    · next hf => exact .inr ⟨⟨f, rfl⟩, by simp [hf]⟩

theorem faultIff_runCommand (env : Environment) (argv : List Text) :
    (runCommand env argv).FaultIff (∃ a, phraseCommand.read .none argv = .ok a ∧ a.Fail env) := by
  unfold runCommand
  cases hread : phraseCommand.read .none argv with
  | ok a => exact (faultIff_run a env).congr (by simp)
  | error refusal =>
    cases refusal with
    | help => exact .inl ⟨.inl rfl, by simp⟩
    | misuse message => exact .inl ⟨.inr (.inr ⟨rfl, message, List.suffix_refl _⟩), by simp⟩

/-- **The command reports how it ends**, but for arguments that fail: it ends
in a fault exactly with these. -/
theorem runCommand_reported_iff (env : Environment) (argv : List Text) :
    ((runCommand env argv).Reported ↔
        ∀ a, phraseCommand.read .none argv = .ok a → ¬ a.Fail env) ∧
      ((∃ f, (runCommand env argv).exit = .fault f) ↔
        ∃ a, phraseCommand.read .none argv = .ok a ∧ a.Fail env) := by
  have h := faultIff_runCommand env argv
  refine ⟨?_, h.fault_iff⟩
  rw [h.reported_iff]
  simp

/-- A configuration that is not text ends the command in a fault. -/
theorem undecodable_configuration_escapes :
    let env : Environment := ⟨⟨[([['w'], ['c']], .file [255])], [['w']]⟩, [], 0⟩
    let r := runCommand env ["--config".toList, ['c']]
    r.exit = .fault (.settings (.encoding ⟨.badStart, 0, 255, 1⟩)) ∧ r.stderr = [] ∧ ¬ r.Reported := by
  intro env r
  have hr : r = ⟨.fault (.settings (.encoding ⟨.badStart, 0, 255, 1⟩)), [], []⟩ := by cbv
  rw [hr]
  exact ⟨rfl, rfl, fun h => h.no_fault ⟨_, rfl⟩⟩

end PhraseGrammar
