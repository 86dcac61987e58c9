/-
The two front ends. The service and the command come to their phrases in ways of
their own: each finds the configuration, reads its files, takes the rule, the
seed and the limit, generates, and tells what failed. For the same configuration
they agree (`frontEnds_agree_iff`), and so do their dumps, with one exception: a
value `--` does not arrive at the command, which is left with a blank for the
rule, or for the configuration itself.

Each way is followed to the phrases before the first failure: that of the
service is straight, and that of the command leads through the texts of its
arguments and of the paths of the files, which are read back.
-/
import Mathlib
import PhraseGrammar.Proofs.Language
import PhraseGrammar.Proofs.CommandEnds
import PhraseGrammar.Proofs.AttachedValues
import PhraseGrammar.Proofs.SignedNumerals
import PhraseGrammar.Proofs.LoadedSettings
import PhraseGrammar.Proofs.FirstFailure

namespace PhraseGrammar

/-! ## Asking for phrases -/

/-- The parameters of a request for phrases. -/
def phraseQuery (seed : Int) (count : Nat) (rule : Option Text) : Query :=
  ("seed".toList, signedNumeral seed) :: ("count".toList, signedNumeral count) ::
    (rule.map fun r => ("rule".toList, r)).toList

/-- The command line that asks for phrases. -/
def phraseLine (config : Text) (seed : Int) (count : Nat) (rule : Option Text) : List Text :=
  attachedWord "--config".toList config :: attachedWord "--seed".toList (signedNumeral seed) ::
    attachedWord "--count".toList (signedNumeral count) ::
      (rule.map (attachedWord "--rule".toList)).toList

/-- The command line that asks for the rules as a script. -/
def dumpLine (config : Text) : List Text := [attachedWord "--config".toList config, "--debug".toList]

theorem short_count {count : Nat} (h : count ≤ 1000) : tooLongToWrite count = false :=
  short_of_natAbs_le (by rwa [Int.natAbs_natCast])

/-! ### As a query -/

theorem generateQuery_read {seed : Int} (hseed : tooLongToWrite seed = false) {count : Nat}
    (hcount : 1 ≤ count ∧ count ≤ 1000) (rule : Option Text) :
    GenerateQuery.read (phraseQuery seed count rule) = .ok ⟨rule, count, some seed, false⟩ := by
  have hrule : (phraseQuery seed count rule).get? "rule".toList = rule := by cases rule <;> rfl
  have hseedText : (phraseQuery seed count rule).get? "seed".toList = some (signedNumeral seed) := by
    cases rule <;> rfl
  have hcountText : (phraseQuery seed count rule).get? "count".toList = some (signedNumeral count) := by
    cases rule <;> rfl
  have hreload : (phraseQuery seed count rule).get? "reload".toList = none := by cases rule <;> rfl
  have hwithin : within 1 1000 count = .ok count := by
    rw [within, if_neg (by omega), if_neg (by omega)]
  have hseedRead := readQueryInteger_signedNumeral hseed
  have hcountRead := readQueryInteger_signedNumeral (short_count hcount.2)
  simp only [GenerateQuery.read, Query.reload, Query.whole?, hrule, hseedText, hcountText, hreload,
    hseedRead, hcountRead, Except.map, Except.bind, Option.getD_some, hwithin]
  rfl

/-! ### As a command line -/

theorem phraseCommand_wellNamed : phraseCommand.WellNamed := by
  have hnames : phraseCommand.named.map (·.1) =
      ["-h".toList, "--help".toList, "-d".toList, "--debug".toList, "-r".toList, "--rule".toList,
        "-n".toList, "--count".toList, "--seed".toList, "--recursion-limit".toList,
        "--config".toList, "-v".toList, "--verbose".toList] := rfl
  constructor <;> rw [hnames] <;> simp [twoDashes]

theorem signedNumeral_ne_dashes {n : Int} (h : tooLongToWrite n = false) : signedNumeral n ≠ twoDashes := by
  intro hdashes
  have hread := readTypedInteger?_signedNumeral h
  rw [hdashes] at hread
  cases hread

section Sets

variable {σ : Type} {c : Command σ} {name : Text} {names argv : List Text} {a b : σ}

theorem sets_text {α : Type} {read : Text → α} {set : Given α → σ → σ} {value : Text}
    (hfind : c.find? name = some ⟨names, textValue read set⟩) (hlong : isShortName name = false)
    (h : c.Sets argv (set (.ofAttached read value) a) b) :
    c.Sets (attachedWord name value :: argv) a b := by
  refine .value hfind hlong rfl ?_ h
  by_cases hvalue : value = twoDashes
  · simp only [Command.attachedValue, Given.ofAttached, if_pos hvalue]
  · simp only [Command.attachedValue, Given.ofAttached, if_neg hvalue]

theorem sets_whole {set : Given Int → σ → σ} {n : Int} (hn : tooLongToWrite n = false)
    (hfind : c.find? name = some ⟨names, wholeValue set⟩) (hlong : isShortName name = false)
    (h : c.Sets argv (set (.value n) a) b) :
    c.Sets (attachedWord name (signedNumeral n) :: argv) a b := by
  refine .value hfind hlong rfl ?_ h
  rw [Command.attachedValue, if_neg (signedNumeral_ne_dashes hn)]
  simp only [readTypedInteger?_signedNumeral hn]

end Sets

/-- A value that may be left out, as a command line gives it. -/
def Given.ofOption (value : Option Text) : Given Text :=
  match value with
  | none => .absent
  | some t => .ofAttached id t

theorem phraseCommand_read_phraseLine (config : Text) {seed : Int} (hseed : tooLongToWrite seed = false)
    {count : Nat} (hcount : count ≤ 1000) (rule : Option Text) :
    phraseCommand.read .none (phraseLine config seed count rule) =
      .ok { Arguments.none with
        config := .ofAttached Path.ofText config
        seed := .value seed
        count := .value count
        rule := .ofOption rule } := by
  have hsets : phraseCommand.Sets (phraseLine config seed count rule) .none
      { Arguments.none with
        config := .ofAttached Path.ofText config
        seed := .value seed
        count := .value count
        rule := .ofOption rule } := by
    refine sets_text rfl rfl ?_
    refine sets_whole hseed rfl rfl ?_
    refine sets_whole (short_count hcount) rfl rfl ?_
    cases rule with
    | none => exact .nil _
    | some r => exact sets_text rfl rfl (.nil _)
  exact hsets.read phraseCommand_wellNamed

theorem phraseCommand_read_dumpLine (config : Text) :
    phraseCommand.read .none (dumpLine config) =
      .ok { Arguments.none with config := .ofAttached Path.ofText config, dump := true } := by
  have hsets : phraseCommand.Sets (dumpLine config) .none
      { Arguments.none with config := .ofAttached Path.ofText config, dump := true } :=
    sets_text rfl rfl (.flag rfl rfl (.nil _))
  exact hsets.read phraseCommand_wellNamed

/-! ## What a configuration leads to -/

/-- The generator that the settings ask for. -/
def GenerationSettings.generator (g : GenerationSettings) (store : Store) : Generator :=
  ⟨store, g.limit, stackLevels⟩

theorem Generator.of_sound {g : GenerationSettings} (h : g.Sound) (store : Store) :
    Generator.of store (g.limit.map Int.ofNat) = .ok (g.generator store) :=
  Generator.of_positive h.limit store

/-- A configuration that loads, with files that fill a store however they are
read. -/
structure Ready (tree : FileTree) (config : Text) (settings : Settings) (store : Store) : Prop where
  load : Settings.load tree (Path.ofText config) = .ok settings
  sound : settings.generation.Sound
  files : loadFiles tree .empty settings.generation.files = (store, none)
  sources : ∃ reports,
    readSources tree .empty [] (Arguments.none.sources settings.generation) =
      ⟨store, [], 0, reports, none⟩ ∧ reports.flatMap (·.line false) = []

theorem exists_ready {tree : FileTree} (htree : tree.Placed) {config : Text} {settings : Settings}
    (hload : Settings.load tree (Path.ofText config) = .ok settings)
    (hparse : ∀ p ∈ settings.generation.files, tree.Parses p) :
    ∃ store, Ready tree config settings store := by
  have hsound := Settings.load_sound htree (Path.plain_ofText config) hload
  by_cases hnone : settings.generation.files = []
  · obtain ⟨reports, hread, hlines⟩ := readSources_empty_stdin tree .empty
    refine ⟨.empty, hload, hsound, by rw [hnone]; rfl, reports, ?_, hlines⟩
    have hsources : Arguments.none.sources settings.generation = [stdinName] := by
      simp [Arguments.sources, Arguments.none, hnone]
    rw [hsources, hread]
  · obtain ⟨store, reports, hfiles, hread, hlines⟩ := readSources_files hsound.files hparse .empty []
    refine ⟨store, hload, hsound, hfiles, reports, ?_, hlines⟩
    have hsources : Arguments.none.sources settings.generation =
        settings.generation.files.map Path.text := by
      simp [Arguments.sources, Arguments.none, hnone]
    rw [hsources, hread]

namespace Ready

variable {tree : FileTree} {config : Text} {settings : Settings} {store : Store}

theorem writable (h : Ready tree config settings store) : store.Writable := by
  obtain ⟨reports, hread, -⟩ := h.sources
  have hwritable := writable_readSources tree [] (Arguments.none.sources settings.generation)
  rwa [hread] at hwritable

/-! ## The way of the service -/

theorem currentStore (h : Ready tree config settings store) :
    (Service.start (Path.ofText config)).currentStore tree false =
      (.ok store, ⟨Path.ofText config, some settings, some store⟩) := by
  simp only [Service.currentStore, Service.start, Service.reload, h.load, h.files]

theorem answerAt_generate (h : Ready tree config settings store) {seed : Int}
    (hseed : tooLongToWrite seed = false) {count : Nat} (hcount : 1 ≤ count ∧ count ≤ 1000)
    (rule : Option Text) (entropy : Int) :
    ((Service.start (Path.ofText config)).answerAt tree entropy (phraseQuery seed count rule)
        .generate).1 =
      .ok (replyOf ((rule.or settings.generation.rule).or store.start)
        ((settings.generation.generator store).phrases Source.next (rule.or settings.generation.rule)
          count (.ofSeed seed))) := by
  have hquery := generateQuery_read hseed hcount rule
  simp only [Service.answerAt, hquery, h.currentStore, Service.currentSettings,
    generateReply_eq (Generator.of_sound h.sound store), Option.some_or, Option.getD_some]

theorem answerAt_dump (h : Ready tree config settings store) (entropy : Int) :
    ((Service.start (Path.ofText config)).answerAt tree entropy [] .dump).1 =
      .ok (.content 200 .plain (joinWith ['\n'] store.lines)) := by
  have hdump : store.dump = .ok (joinWith ['\n'] store.lines) := Store.dump_eq_ok_iff.mpr ⟨h.writable, rfl⟩
  have hreload : Query.reload [] = .ok false := rfl
  simp only [Service.answerAt, hreload, Service.withStore, h.currentStore, dumpReply, hdump]

/-! ## The way of the command -/

/-- Arguments that name the configuration lead on to its settings and its store. -/
theorem run_eq (h : Ready tree config settings store) {a : Arguments}
    (hconfig : a.config = .ofAttached Path.ofText config) (hfiles : a.files = [])
    (hverbose : a.verbose = false) (entropy : Int) :
    a.run ⟨tree, [], entropy⟩ =
      if config = twoDashes then .ofFault (.blank .path) []
      else if a.dump then dumpResult store
      else a.generate settings.generation entropy store := by
  obtain ⟨reports, hread, hlines⟩ := h.sources
  have hsources : a.sources settings.generation = Arguments.none.sources settings.generation := by
    unfold Arguments.sources
    rw [hfiles]
    rfl
  unfold Arguments.run Arguments.settings
  rw [hconfig, Given.ofAttached]
  by_cases hdashes : config = twoDashes
  · simp only [if_pos hdashes]
    rfl
  · simp only [if_neg hdashes, h.load, Arguments.process, hsources, hread, hverbose, hlines]
    rfl

theorem runCommand_dumpLine (h : Ready tree config settings store) (entropy : Int) :
    runCommand ⟨tree, [], entropy⟩ (dumpLine config) =
      if config = twoDashes then .ofFault (.blank .path) []
      else ⟨.code 0, joinWith ['\n'] store.lines ++ ['\n'], []⟩ := by
  have hdump : store.dump = .ok (joinWith ['\n'] store.lines) := Store.dump_eq_ok_iff.mpr ⟨h.writable, rfl⟩
  rw [runCommand, phraseCommand_read_dumpLine]
  simp only
  rw [h.run_eq rfl rfl rfl, dumpResult, hdump]
  rfl

theorem generate_eq (h : Ready tree config settings store) {a : Arguments} {seed : Int} {count : Nat}
    {rule : Option Text} (hcount : 1 ≤ count) (hcountGiven : a.count = .value count)
    (hseedGiven : a.seed = .value seed) (hruleGiven : a.rule = .ofOption rule)
    (hlimit : a.limit = .absent) (hverbose : a.verbose = false) (entropy : Int) :
    a.generate settings.generation entropy store =
      if rule = some twoDashes then .ofFault (.blank .rule) []
      else resultOf ((settings.generation.generator store).phrases Source.next
        (rule.or settings.generation.rule) count (.ofSeed seed)) := by
  have hpositive : ¬ (count : Int) < 1 := by omega
  have hof := Generator.of_sound h.sound store
  have hprint : a.generate settings.generation entropy store =
      a.print settings.generation (settings.generation.generator store) (.ofSeed seed) count := by
    unfold Arguments.generate
    rw [hcountGiven, hseedGiven, hlimit]
    simp only [Given.getD, Given.resolve, if_neg hpositive, hof]
    rfl
  rw [hprint, Arguments.print, hruleGiven, hverbose]
  cases rule with
  | none =>
    rw [if_neg (by simp)]
    exact Session.result_eq (Generator.outcomes_session _ _ _ _ _)
  | some r =>
    by_cases hdashes : r = twoDashes
    · rw [if_pos (by rw [hdashes]), Given.ofOption, Given.ofAttached, if_pos hdashes]
      rfl
    · have hne : ¬ some r = some twoDashes := by simpa using hdashes
      rw [if_neg hne, Given.ofOption, Given.ofAttached, if_neg hdashes]
      exact Session.result_eq (Generator.outcomes_session _ _ _ _ _)

theorem runCommand_phraseLine (h : Ready tree config settings store) {seed : Int}
    (hseed : tooLongToWrite seed = false) {count : Nat} (hcount : 1 ≤ count ∧ count ≤ 1000)
    (rule : Option Text) (entropy : Int) :
    runCommand ⟨tree, [], entropy⟩ (phraseLine config seed count rule) =
      if config = twoDashes then .ofFault (.blank .path) []
      else if rule = some twoDashes then .ofFault (.blank .rule) []
      else resultOf ((settings.generation.generator store).phrases Source.next
        (rule.or settings.generation.rule) count (.ofSeed seed)) := by
  rw [runCommand, phraseCommand_read_phraseLine config hseed hcount.2 rule]
  simp only
  rw [h.run_eq rfl rfl rfl, h.generate_eq hcount.1 rfl rfl rfl rfl rfl entropy]
  rfl

end Ready

/-! ## Both ways -/

/-- **The front ends agree** on the phrases, and on the dump, of a configuration
whose files can be read to their end, unless the rule or the configuration is
named `--`. -/
theorem frontEnds_agree_iff {tree : FileTree} (htree : tree.Placed) {config : Text} {settings : Settings}
    (hload : Settings.load tree (Path.ofText config) = .ok settings)
    (hparse : ∀ p ∈ settings.generation.files, tree.Parses p) {seed : Int}
    (hseed : tooLongToWrite seed = false) {count : Nat} (hcount : 1 ≤ count ∧ count ≤ 1000)
    (rule : Option Text) (entropy entropy' : Int) :
    let app := Service.start (Path.ofText config)
    let store := (loadFiles tree .empty settings.generation.files).1
    let made := (settings.generation.generator store).phrases Source.next
      (rule.or settings.generation.rule) count (.ofSeed seed)
    (∃ reply,
      (app.answerAt tree entropy (phraseQuery seed count rule) .generate).1 = .ok reply ∧
        (FrontEndsAgree reply (runCommand ⟨tree, [], entropy'⟩ (phraseLine config seed count rule)) made ↔
          config ≠ twoDashes ∧ rule ≠ some twoDashes)) ∧
      ∃ dump,
        (app.answerAt tree entropy [] .dump).1 = .ok (.content 200 .plain dump) ∧
          (runCommand ⟨tree, [], entropy'⟩ (dumpLine config) = ⟨.code 0, dump ++ ['\n'], []⟩ ↔
            config ≠ twoDashes) := by
  intro app store made
  obtain ⟨t, h⟩ := exists_ready htree hload hparse
  obtain rfl : t = store := (congrArg Prod.fst h.files).symm
  refine ⟨⟨_, h.answerAt_generate hseed hcount rule entropy, ?_⟩, _, h.answerAt_dump entropy, ?_⟩
  · rw [h.runCommand_phraseLine hseed hcount]
    by_cases hconfig : config = twoDashes
    · rw [if_pos hconfig]
      exact iff_of_false (not_agree_of_fault rfl _) fun hne => hne.1 hconfig
    rw [if_neg hconfig]
    by_cases hrule : rule = some twoDashes
    · rw [if_pos hrule]
      exact iff_of_false (not_agree_of_fault rfl _) fun hne => hne.2 hrule
    · rw [if_neg hrule]
      exact iff_of_true (replyOf_agrees _ made) ⟨hconfig, hrule⟩
  · rw [h.runCommand_dumpLine]
    by_cases hconfig : config = twoDashes
    · simp [hconfig, CommandResult.ofFault]
    · simp [hconfig]

theorem FileTree.placed_of_cwd {tree : FileTree} (h : tree.cwd = [['w']]) : tree.Placed := by
  intro part hpart
  obtain rfl : part = ['w'] := by simpa [h] using hpart
  exact ⟨by decide, by decide, by decide⟩

/-- A configuration that names one file, a seed below zero and a rule that is
given. -/
theorem frontEnds_agree_on_one_file :
    let tree : FileTree := .withGrammar (.ascii "*a\nx[b]\ny\n".toList)
    let settings : Settings := .ofFiles [grammarFile]
    let store := (loadFiles tree .empty settings.generation.files).1
    let made := (settings.generation.generator store).phrases Source.next
      ((some ['a']).or settings.generation.rule) 3 (.ofSeed (-7))
    tree.Placed ∧ Settings.load tree (Path.ofText ['c']) = .ok settings ∧
      (∀ p ∈ settings.generation.files, tree.Parses p) ∧ tooLongToWrite (-7) = false ∧
      ∃ reply,
        ((Service.start (Path.ofText ['c'])).answerAt tree 0 (phraseQuery (-7) 3 (some ['a']))
          .generate).1 = .ok reply ∧
        FrontEndsAgree reply (runCommand ⟨tree, [], 0⟩ (phraseLine ['c'] (-7) 3 (some ['a']))) made := by
  intro tree settings store made
  have htree : tree.Placed := FileTree.placed_of_cwd rfl
  have hload : Settings.load tree (Path.ofText ['c']) = .ok settings := Settings.load_withGrammar _
  have hparse : ∀ p ∈ settings.generation.files, tree.Parses p := by
    intro p hp
    obtain rfl : p = grammarFile := List.mem_singleton.mp hp
    have htext : tree.readText grammarFile = .ok "*a\nx[b]\ny\n".toList := by cbv
    have hfault : (Store.empty.read "*a\nx[b]\ny\n".toList).fault = none := by cbv
    refine ⟨_, htext, fun hlong => ?_⟩
    rw [← overlong_iff (s := .empty), hfault] at hlong
    cases hlong
  have hseed : tooLongToWrite (-7) = false := short_of_natAbs_le (by decide)
  obtain ⟨⟨reply, hreply, hagree⟩, -⟩ := frontEnds_agree_iff htree hload hparse hseed
    (by decide : 1 ≤ 3 ∧ 3 ≤ 1000) (some ['a']) 0 0
  exact ⟨htree, hload, hparse, hseed, reply, hreply, hagree.mpr ⟨by decide, by decide⟩⟩

/-- The rule `--` expands to nothing for the service, and ends the command in a
fault. -/
theorem blank_rule_parts_frontEnds :
    let tree : FileTree := ⟨[([['w'], ['c']], .file [])], [['w']]⟩
    let result := runCommand ⟨tree, [], 0⟩ (phraseLine ['c'] 1 1 (some twoDashes))
    ∃ reply,
      ((Service.start (Path.ofText ['c'])).answerAt tree 0 (phraseQuery 1 1 (some twoDashes))
        .generate).1 = .ok reply ∧
        reply = .json 200 (.object
          [("rule".toList, .string twoDashes), ("results".toList, .array [.string []])]) ∧
        result = ⟨.fault (.blank .rule), [], []⟩ ∧ ∀ made, ¬ FrontEndsAgree reply result made := by
  intro tree result
  have htree : tree.Placed := FileTree.placed_of_cwd rfl
  have hload : Settings.load tree (Path.ofText ['c']) = .ok .default := by cbv
  obtain ⟨store, h⟩ := exists_ready htree hload (by simp [Settings.default, GenerationSettings.default])
  obtain rfl : Store.empty = store := congrArg Prod.fst h.files
  have hseed : tooLongToWrite 1 = false := short_of_natAbs_le (by decide)
  have hcount : 1 ≤ 1 ∧ 1 ≤ 1000 := by decide
  -- no rule is drawn from, so the source is not asked
  have hmade : ((GenerationSettings.default.generator .empty).phrases Source.next (some twoDashes) 1
      (.ofSeed 1)) = ([[]], none) := by
    have hexpand : Store.empty.expand none stackLevels 0 twoDashes =
        .note (.undefined twoDashes) (.done (.ok [])) := expand_of_undefined rfl rfl rfl
    simp only [GenerationSettings.generator, GenerationSettings.default, Generator.phrases,
      Generator.generate, Option.some_or, hexpand, Drawing.run]
  have hresult : result = ⟨.fault (.blank .rule), [], []⟩ :=
    h.runCommand_phraseLine hseed hcount (some twoDashes) 0
  refine ⟨_, h.answerAt_generate hseed hcount (some twoDashes) 0, ?_, hresult, fun made => ?_⟩
  · exact congrArg (replyOf (some twoDashes)) hmade
  · exact not_agree_of_fault (congrArg CommandResult.exit hresult) made

end PhraseGrammar
