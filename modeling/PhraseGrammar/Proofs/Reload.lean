/-
What a service has loaded after any history of changed files, askings for its
settings and askings for its store.

A loading that fails is not undone. It takes over the settings before it reads
their files, so if the files cannot be read the service is left with the new
settings and the old store. That is all that can come apart: the store is
always one that the last full loading made, and the settings are those of that
loading, or of the last one since that failed on its files (`exists_origin`,
`afterAll_atomic_iff`).
-/
import Mathlib
import PhraseGrammar.Service.Basic
import PhraseGrammar.Proofs.LoadedSettings

namespace PhraseGrammar

/-- What can happen to a service. -/
inductive ServiceEvent
  | files (tree : FileTree)
  | settings
  | store (again : Bool)

/-- The settings and the store that a loading makes of the files as they are. -/
structure Loaded (path : Path) (tree : FileTree) (c : Settings) (t : Store) : Prop where
  settings : Settings.load tree path = .ok c
  store : loadFiles tree .empty c.generation.files = (t, none)

theorem Loaded.of_grammar {grammar : Entry} {text : Text} {t : Store}
    (htext : (FileTree.withGrammar grammar).readText grammarFile = .ok text)
    (hstore : (Store.empty.read text).store = t) (hfault : (Store.empty.read text).fault = none) :
    Loaded configurationPath (.withGrammar grammar) (.ofFiles [grammarFile]) t where
  settings := Settings.load_withGrammar grammar
  store := by simp only [Settings.ofFiles, loadFiles, htext, hfault, hstore]

/-- The settings can be loaded, but not all of their files. -/
structure HalfLoaded (path : Path) (tree : FileTree) (c : Settings) : Prop where
  settings : Settings.load tree path = .ok c
  files : ∃ t e, loadFiles tree .empty c.generation.files = (t, some e)

namespace Service

/-- The files and the service after an event. -/
def after : FileTree × Service → ServiceEvent → FileTree × Service
  | (_, s), .files tree => (tree, s)
  | (tree, s), .settings => (tree, (s.currentSettings tree).2)
  | (tree, s), .store again => (tree, (s.currentStore tree again).2)

/-- The files and the service after all events. -/
def afterAll (state : FileTree × Service) (events : List ServiceEvent) : FileTree × Service :=
  events.foldl after state

/-- Asking for the store makes the service load. -/
def loads (s : Service) (again : Bool) : Bool := again || s.store.isNone

/-- The settings that an event makes the service take over without a store to
go with them. -/
def strayed : FileTree × Service → ServiceEvent → List Settings
  | (tree, s), .store again =>
    match s.loads again, Settings.load tree s.path with
    | true, .ok c => if (loadFiles tree .empty c.generation.files).2.isSome then [c] else []
    | _, _ => []
  | _, _ => []

/-- The settings taken over so in the course of events. -/
def strayedAll : FileTree × Service → List ServiceEvent → List Settings
  | _, [] => []
  | state, event :: rest => strayed state event ++ strayedAll (after state event) rest

/-- An event makes the service load settings and a store. -/
def LoadsInFull : FileTree × Service → ServiceEvent → Prop
  | (tree, s), .store again => s.loads again = true ∧ ∃ c t, Loaded s.path tree c t
  | _, _ => False

/-- None of these events does, in their course. -/
def NoFullLoading : FileTree × Service → List ServiceEvent → Prop
  | _, [] => True
  | state, event :: rest => ¬ LoadsInFull state event ∧ NoFullLoading (after state event) rest

theorem afterAll_append (state : FileTree × Service) (events more : List ServiceEvent) :
    afterAll state (events ++ more) = afterAll (afterAll state events) more := List.foldl_append

theorem strayedAll_concat (state : FileTree × Service) (events : List ServiceEvent)
    (event : ServiceEvent) :
    strayedAll state (events ++ [event]) =
      strayedAll state events ++ strayed (afterAll state events) event := by
  induction events generalizing state with
  | nil => simp [strayedAll, afterAll]
  | cons e events ih =>
    rw [List.cons_append, strayedAll, ih, strayedAll, List.append_assoc]
    rfl

theorem noFullLoading_concat {state : FileTree × Service} {events : List ServiceEvent} {event : ServiceEvent} :
    NoFullLoading state (events ++ [event]) ↔
      NoFullLoading state events ∧ ¬ LoadsInFull (afterAll state events) event := by
  induction events generalizing state with
  | nil => simp [NoFullLoading, afterAll]
  | cons e events ih =>
    rw [List.cons_append, NoFullLoading, ih, NoFullLoading, and_assoc]
    rfl

/-! ## One loading -/

theorem reload_cases (s : Service) (tree : FileTree) :
    (∃ e, Settings.load tree s.path = .error e ∧ s.reload tree = (.error (.settings e), s)) ∨
      (∃ c e, HalfLoaded s.path tree c ∧
        s.reload tree = (.error (.load e), { s with settings := some c })) ∨
      ∃ c t, Loaded s.path tree c t ∧
        s.reload tree = (.ok t, { s with settings := some c, store := some t }) := by
  cases hc : Settings.load tree s.path with
  | error e =>
    refine .inl ⟨e, rfl, ?_⟩
    simp only [reload, hc]
  | ok c =>
    cases hl : loadFiles tree .empty c.generation.files with
    | mk t fault =>
    cases fault with
    | some e =>
      refine .inr (.inl ⟨c, e, ⟨hc, t, e, hl⟩, ?_⟩)
      simp only [reload, hc, hl]
    | none =>
      refine .inr (.inr ⟨c, t, ⟨hc, hl⟩, ?_⟩)
      simp only [reload, hc, hl]

theorem currentStore_of_loads {s : Service} {again : Bool} (h : s.loads again = true)
    (tree : FileTree) : s.currentStore tree again = s.reload tree := by
  unfold currentStore
  split
  · next t ht => simp [loads, ht] at h
  · rfl

theorem currentStore_of_kept {s : Service} {again : Bool} (h : s.loads again = false)
    (tree : FileTree) : ∃ t, s.currentStore tree again = (.ok t, s) := by
  simp only [loads, Bool.or_eq_false_iff, Option.isNone_eq_false_iff, Option.isSome_iff_exists] at h
  obtain ⟨rfl, t, ht⟩ := h
  exact ⟨t, by simp only [currentStore, ht]⟩

/-- An asking for the store that fails leaves the store alone, and the service
as it was unless it read other settings before it failed. -/
theorem currentStore_error {s : Service} {tree : FileTree} {again : Bool} {e : ServiceFault}
    (h : (s.currentStore tree again).1 = .error e) :
    (s.currentStore tree again).2.store = s.store ∧
      ((s.currentStore tree again).2 = s ↔ ∀ c, HalfLoaded s.path tree c → s.settings = some c) := by
  cases hl : s.loads again with
  | false =>
    obtain ⟨t, hkept⟩ := currentStore_of_kept hl tree
    simp [hkept] at h
  | true =>
    rw [currentStore_of_loads hl] at h ⊢
    rcases reload_cases s tree with ⟨e', hc, hr⟩ | ⟨c, e', hc, hr⟩ | ⟨c, t, hc, hr⟩
    · rw [hr]
      refine ⟨rfl, fun _ c hhalf => ?_, fun _ => rfl⟩
      have := hhalf.settings
      simp [hc] at this
    · rw [hr]
      refine ⟨rfl, fun he c' hhalf => ?_, fun hall => ?_⟩
      · have hsame : c = c' := Except.ok.inj (hc.settings.symm.trans hhalf.settings)
        rw [← he, hsame]
      · obtain ⟨path, settings, store⟩ := s
        have hsettings := hall c hc
        simp only at hsettings
        rw [hsettings]
    · simp [hr] at h

/-! ## One event -/

/-- Asking for the store changes nothing, or takes settings over that have no
store, or loads both. -/
theorem after_store_cases (tree : FileTree) (s : Service) (again : Bool) :
    (¬ LoadsInFull (tree, s) (.store again) ∧ after (tree, s) (.store again) = (tree, s) ∧
        strayed (tree, s) (.store again) = []) ∨
      (¬ LoadsInFull (tree, s) (.store again) ∧
        ∃ c, after (tree, s) (.store again) = (tree, { s with settings := some c }) ∧
          strayed (tree, s) (.store again) = [c]) ∨
      ∃ c t, s.loads again = true ∧ Loaded s.path tree c t ∧
        after (tree, s) (.store again) = (tree, { s with settings := some c, store := some t }) := by
  cases hl : s.loads again with
  | false =>
    obtain ⟨t, hkept⟩ := currentStore_of_kept hl tree
    exact .inl ⟨by simp [LoadsInFull, hl], by rw [after, hkept], by simp [strayed, hl]⟩
  | true =>
    have hafter : after (tree, s) (.store again) = (tree, (s.reload tree).2) := by
      rw [after, currentStore_of_loads hl]
    rw [hafter]
    rcases reload_cases s tree with ⟨e, hc, hr⟩ | ⟨c, e, hc, hr⟩ | ⟨c, t, hc, hr⟩
    · refine .inl ⟨?_, by rw [hr], by simp [strayed, hl, hc]⟩
      intro h
      obtain ⟨-, c, t, hloaded⟩ := h
      rw [hloaded.settings] at hc
      cases hc
    · obtain ⟨t, e', hfiles⟩ := hc.files
      refine .inr (.inl ⟨?_, c, by rw [hr], by simp [strayed, hl, hc.settings, hfiles]⟩)
      intro h
      obtain ⟨-, c', t', hloaded⟩ := h
      obtain rfl := Except.ok.inj (hc.settings.symm.trans hloaded.settings)
      rw [hloaded.store] at hfiles
      cases hfiles
    · exact .inr (.inr ⟨c, t, rfl, hc, by rw [hr]⟩)

theorem after_settings {tree : FileTree} {s : Service} {c : Settings} (h : s.settings = some c) :
    after (tree, s) .settings = (tree, s) := by
  simp only [after, currentSettings, h]

theorem store_after_settings (tree : FileTree) (s : Service) :
    (after (tree, s) .settings).2.store = s.store := by
  simp only [after, currentSettings]
  split
  · rfl
  · split <;> rfl

theorem path_after (state : FileTree × Service) (event : ServiceEvent) :
    (after state event).2.path = state.2.path := by
  obtain ⟨tree, s⟩ := state
  cases event with
  | files tree => rfl
  | settings =>
    simp only [after, currentSettings]
    split
    · rfl
    · split <;> rfl
  | store again =>
    rcases after_store_cases tree s again with ⟨-, h, -⟩ | ⟨-, c, h, -⟩ | ⟨c, t, -, -, h⟩ <;> rw [h]

theorem path_afterAll (state : FileTree × Service) (events : List ServiceEvent) :
    (afterAll state events).2.path = state.2.path := by
  induction events generalizing state with
  | nil => rfl
  | cons event events ih => exact (ih (after state event)).trans (path_after state event)

/-! ## Every history -/

/-- The store `t` came with the settings `c`: the service loaded both in full
when it was asked for the store after `before`, which was the last full
loading, and `stray` are the settings that it has taken over since. -/
def Origin (state : FileTree × Service) (events : List ServiceEvent) (t : Store) (c : Settings)
    (stray : List Settings) : Prop :=
  ∃ before again since, events = before ++ .store again :: since ∧
    (afterAll state before).2.loads again = true ∧
    Loaded state.2.path (afterAll state before).1 c t ∧
    NoFullLoading (afterAll state (before ++ [.store again])) since ∧
    stray = strayedAll (afterAll state (before ++ [.store again])) since

theorem Origin.extend {state : FileTree × Service} {events : List ServiceEvent} {t : Store}
    {c : Settings} {stray : List Settings} (h : Origin state events t c stray) {event : ServiceEvent}
    (hevent : ¬ LoadsInFull (afterAll state events) event) :
    Origin state (events ++ [event]) t c (stray ++ strayed (afterAll state events) event) := by
  obtain ⟨before, again, since, rfl, hloads, hloaded, hnone, rfl⟩ := h
  have hstate : afterAll (afterAll state (before ++ [.store again])) since =
      afterAll state (before ++ .store again :: since) := by
    rw [← afterAll_append, List.append_assoc]
    rfl
  refine ⟨before, again, since ++ [event], by simp, hloads, hloaded, ?_, ?_⟩
  · exact noFullLoading_concat.mpr ⟨hnone, by rw [hstate]; exact hevent⟩
  · rw [strayedAll_concat, hstate]

theorem Origin.extend_of_not_strayed {state : FileTree × Service} {events : List ServiceEvent}
    {t : Store} {c : Settings} {stray : List Settings} (h : Origin state events t c stray)
    {event : ServiceEvent} (hevent : ¬ LoadsInFull (afterAll state events) event)
    (hs : strayed (afterAll state events) event = []) : Origin state (events ++ [event]) t c stray := by
  have hext := h.extend hevent
  rwa [hs, List.append_nil] at hext

/-- A service with a store has the settings that came with it, or the last
that it has taken over since. -/
theorem exists_origin {state : FileTree × Service} (hnew : state.2.store = none)
    {events : List ServiceEvent} {t : Store} (h : (afterAll state events).2.store = some t) :
    ∃ c stray, Origin state events t c stray ∧
      (afterAll state events).2.settings = some (stray.getLast?.getD c) := by
  induction events using List.reverseRecOn with
  | nil => simp [afterAll, hnew] at h
  | append_singleton events event ih =>
    have hpath := path_afterAll state events
    have hlast : afterAll state (events ++ [event]) = after (afterAll state events) event := by
      rw [afterAll_append]
      rfl
    rw [hlast] at h ⊢
    cases hstate : afterAll state events with
    | mk tree s =>
    rw [hstate] at h ih hpath
    simp only at ih hpath
    cases event with
    | files tree' =>
      obtain ⟨c, stray, horigin, hsettings⟩ := ih h
      have hnot : ¬ LoadsInFull (tree, s) (.files tree') := id
      have hnext := horigin.extend_of_not_strayed (by rw [hstate]; exact hnot) (by rw [hstate]; rfl)
      exact ⟨c, stray, hnext, hsettings⟩
    | settings =>
      rw [store_after_settings] at h
      obtain ⟨c, stray, horigin, hsettings⟩ := ih h
      have hnot : ¬ LoadsInFull (tree, s) .settings := id
      have hnext := horigin.extend_of_not_strayed (by rw [hstate]; exact hnot) (by rw [hstate]; rfl)
      refine ⟨c, stray, hnext, ?_⟩
      rw [after_settings hsettings]
      exact hsettings
    | store again =>
      rcases after_store_cases tree s again with
        ⟨hnot, ha, hs⟩ | ⟨hnot, c', ha, hs⟩ | ⟨c', t', hl, hloaded, ha⟩
      · rw [ha] at h ⊢
        obtain ⟨c, stray, horigin, hsettings⟩ := ih h
        have hnext := horigin.extend_of_not_strayed (by rw [hstate]; exact hnot) (by rw [hstate, hs])
        exact ⟨c, stray, hnext, hsettings⟩
      · rw [ha] at h ⊢
        obtain ⟨c, stray, horigin, -⟩ := ih h
        refine ⟨c, _, horigin.extend (by rw [hstate]; exact hnot), ?_⟩
        rw [hstate, hs, List.getLast?_concat]
        rfl
      · rw [ha] at h ⊢
        obtain rfl : t' = t := Option.some.inj h
        refine ⟨c', [], ⟨events, again, [], rfl, by rw [hstate]; exact hl, ?_, trivial, rfl⟩, rfl⟩
        rw [hstate, ← hpath]
        exact hloaded

/-- **What a failed reload leaves, and what a service with a store has
loaded.** After any history: an asking for the store that fails leaves the
store alone, and leaves the service as it was exactly if it read no other
settings before it failed. If there is a store, the last full loading made it
together with some settings, and these are in effect exactly if no others were
the last to be taken over since. -/
theorem afterAll_atomic_iff (path : Path) (tree : FileTree) (events : List ServiceEvent) :
    (∀ again e,
      let state := afterAll (tree, start path) events
      (state.2.currentStore state.1 again).1 = .error e →
        (state.2.currentStore state.1 again).2.store = state.2.store ∧
          ((state.2.currentStore state.1 again).2 = state.2 ↔
            ∀ c, HalfLoaded path state.1 c → state.2.settings = some c)) ∧
      ∀ t, (afterAll (tree, start path) events).2.store = some t →
        ∃ c stray, Origin (tree, start path) events t c stray ∧
          ((afterAll (tree, start path) events).2.settings = some c ↔
            ∀ c', stray.getLast? = some c' → c' = c) := by
  have hpath : (afterAll (tree, start path) events).2.path = path :=
    path_afterAll (tree, start path) events
  constructor
  · intro again e state h
    have hcall := currentStore_error h
    rw [hpath] at hcall
    exact hcall
  · intro t h
    obtain ⟨c, stray, horigin, hsettings⟩ := exists_origin rfl h
    refine ⟨c, stray, horigin, ?_⟩
    rw [hsettings]
    cases stray.getLast? with
    | none => simp
    | some c' => simp

/-- A first asking for the store that succeeds, whatever becomes of the files. -/
theorem afterAll_of_loaded {path : Path} {tree : FileTree} {c : Settings} {t : Store}
    (h : Loaded path tree c t) (since : FileTree) :
    afterAll (tree, start path) [.store false, .files since] = (since, ⟨path, some c, some t⟩) := by
  have hreload : (start path).reload tree = (.ok t, ⟨path, some c, some t⟩) := by
    simp only [reload, start, h.settings, h.store]
  simp only [afterAll, List.foldl_cons, List.foldl_nil, after]
  rw [currentStore_of_loads rfl, hreload]

/-- A configuration that has gone makes a loading fail before it changes anything: the
rule of the grammar stays. -/
theorem missing_configuration_changes_nothing :
    let tree : FileTree := .withGrammar (.ascii "*a\nx".toList)
    let t : Store := ⟨[(['a'], ⟨['a'], [⟨['x'], 1⟩], 1⟩)], some ['a']⟩
    let gone : FileTree := ⟨[], [['w']]⟩
    let new : FileTree × Service := (tree, start configurationPath)
    let events : List ServiceEvent := [.store false, .files gone]
    let s := (afterAll new events).2
    s.store = some t ∧ (s.currentStore gone true).2 = s ∧
      ∃ c stray, Origin new events t c stray ∧
        (s.settings = some c ↔ ∀ c', stray.getLast? = some c' → c' = c) := by
  intro tree t gone new events s
  have hloaded : Loaded configurationPath tree (.ofFiles [grammarFile]) t :=
    .of_grammar (show tree.readText grammarFile = .ok "*a\nx".toList by cbv) (by decide) (by decide)
  have hstate : afterAll (tree, start configurationPath) events =
      (gone, ⟨configurationPath, some (.ofFiles [grammarFile]), some t⟩) :=
    afterAll_of_loaded hloaded gone
  have hs : s = ⟨configurationPath, some (.ofFiles [grammarFile]), some t⟩ := congrArg Prod.snd hstate
  have hgone : Settings.load gone configurationPath = .error (.missing configurationPath) := by cbv
  obtain ⟨hcall, horigin⟩ := afterAll_atomic_iff configurationPath tree events
  have hstore : s.store = some t := by rw [hs]
  refine ⟨hstore, ?_, horigin t hstore⟩
  have hfails := hcall true (.settings (.missing configurationPath))
  rw [hstate] at hfails
  obtain ⟨-, hkeeps⟩ := hfails (by rw [currentStore_of_loads rfl]; simp only [reload, hgone])
  rw [hs]
  refine hkeeps.mpr ?_
  intro c hhalf
  have hc := hhalf.settings
  rw [hgone] at hc
  cases hc

/-- A configuration that names a file that is no text makes a loading fail
after it took the settings over. -/
theorem unreadable_grammar_strays :
    let before : FileTree := ⟨[([['w'], ['c']], .file [])], [['w']]⟩
    let since : FileTree := .withGrammar (.file [255])
    let state := afterAll (before, start configurationPath) [.store false, .files since]
    let call := state.2.currentStore state.1 true
    (∃ e, call.1 = .error e) ∧ call.2.store = state.2.store ∧ call.2.settings ≠ state.2.settings := by
  intro before since state call
  have hbefore : Loaded configurationPath before .default .empty := ⟨by cbv, rfl⟩
  have hstate : state = (since, ⟨configurationPath, some .default, some .empty⟩) :=
    afterAll_of_loaded hbefore since
  have hsince : Settings.load since configurationPath = .ok (.ofFiles [grammarFile]) :=
    Settings.load_withGrammar _
  obtain ⟨e, hfiles⟩ : ∃ e, loadFiles since .empty [grammarFile] = (.empty, some e) :=
    ⟨.read (.encoding ⟨.badStart, 0, 255, 1⟩), by cbv⟩
  have hcall : call =
      (.error (.load e), ⟨configurationPath, some (.ofFiles [grammarFile]), some .empty⟩) := by
    show state.2.currentStore state.1 true = _
    rw [hstate, currentStore_of_loads rfl]
    simp only [reload, hsince, Settings.ofFiles, hfiles]
  rw [hcall, hstate]
  refine ⟨⟨_, rfl⟩, rfl, ?_⟩
  intro hsame
  have hfiles := congrArg (fun c => c.generation.files) (Option.some.inj hsame)
  cases hfiles

end Service

end PhraseGrammar
