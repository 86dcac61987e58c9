/-
A service that has its store answers every request that can be sent to it, and
does not fail: what can go wrong in an endpoint is told to the client
(`answers_without_fault`).

Three things meet here. A store that was made by reading alone has no weight too
long to be written, since each weight was read from digits (`Parsed.writable`).
Settings that were loaded have a limit on nesting that a generator accepts
(`Settings.one_le_limit_of_load`). And every error that an expansion ends in has a
reply; the one that names a limit names a number that the stack could reach, so it
can be written, too.
-/
import Mathlib
import PhraseGrammar.Proofs.FirstFailure
import PhraseGrammar.Proofs.LoadedSettings
import PhraseGrammar.Proofs.Nesting
import PhraseGrammar.Proofs.Requests
import PhraseGrammar.Proofs.SignedNumerals

namespace PhraseGrammar

open Drawing (CanEnd)

/-! ## Stores that were read -/

namespace Store

/-- The stores that reading alone makes, whether it reaches the end of a script or
not. -/
inductive Parsed : Store → Prop
  | empty : Parsed .empty
  | read {s : Store} (script : Text) : Parsed s → Parsed (s.read script).store

variable {s t : Store}

theorem Parsed.reachable (h : s.Parsed) : s.Reachable := by
  induction h with
  | empty => exact .empty
  | read script _ ih => exact .read script ih

theorem Parsed.writable (h : s.Parsed) : s.Writable := by
  induction h with
  | empty => exact writable_empty
  | read script _ ih =>
    rw [read_eq]
    exact ih.addAll fun a ha => (scripted_of_mem_lineAdditions ha).weight

theorem Parsed.loadFiles {tree : FileTree} {files : List Path} (h : s.Parsed) :
    (loadFiles tree s files).1.Parsed := by
  induction files generalizing s with
  | nil => exact h
  | cons p files ih =>
    rw [PhraseGrammar.loadFiles]
    split
    · exact h
    · next text _ =>
      simp only
      split
      · exact h.read text
      · exact ih (h.read text)

end Store

theorem Loaded.parsed {path : Path} {tree : FileTree} {c : Settings} {t : Store}
    (h : Loaded path tree c t) : t.Parsed := by
  have hparsed : (loadFiles tree .empty c.generation.files).1.Parsed := Store.Parsed.empty.loadFiles
  rwa [h.store] at hparsed

/-! ## Draws -/

section Generator

variable {σ : Type} {next : σ → Nat → Nat × σ} {g : Generator} {name : Option Text}

theorem asksPositive_generate (h : g.store.WellFormed) (name : Option Text) :
    (g.generate name).AsksPositive := by
  unfold Generator.generate
  split
  · trivial
  · exact asksPositive_expand h g.limit g.levels 0 _

theorem bounds_session (h : g.store.WellFormed) (next : σ → Nat → Nat × σ)
    (stop : ExpansionError → Bool) (name : Option Text) (count : Nat) (source : σ) :
    ∀ b ∈ (g.session next stop name count source).bounds, 0 < b := by
  induction count generalizing source with
  | zero => simp [Generator.session]
  | succ count ih =>
    have hrun := (asksPositive_generate h name).bounds next source
    have hboth := List.forall_mem_append.mpr ⟨hrun, ih ((g.generate name).run next source).source⟩
    rw [Generator.session]
    cases hresult : ((g.generate name).run next source).result with
    | error e =>
      simp only
      split
      · exact hrun
      · exact hboth
    | ok phrase => exact hboth

/-! ## Limits that are reported -/

/-- An expansion that exceeds a limit has come as deep as the limit, for which the
stack must have had room. -/
theorem limit_le_of_expand_error {s : Store} (hs : s.WellFormed) {limit : Option Nat}
    {levels depth : Nat} {name rule : Text} {n : Nat}
    (h : CanEnd (s.expand limit levels depth name) (.error (.limitExceeded rule n))) :
    n ≤ depth + levels := by
  induction levels using Nat.strong_induction_on generalizing depth name with
  | _ levels ih =>
    have hn := named_of_expand_error h
    cases hl : limitReached limit depth with
    | true =>
      rw [expand_of_limit hn hl, Drawing.canEnd_done_iff] at h
      cases limit with
      | none => cases hl
      | some m =>
        have hm : m ≤ depth := of_decide_eq_true hl
        obtain ⟨rfl, rfl⟩ : rule = name ∧ n = m := by simpa using h
        omega
    | false =>
      cases hr : s.get? name with
      | none =>
        rw [expand_of_undefined hn hl hr, Drawing.canEnd_note_iff, Drawing.canEnd_done_iff] at h
        cases h
      | some r =>
        cases levels with
        | zero =>
          rw [expand_of_full_stack hn hl hr, Drawing.canEnd_done_iff] at h
          cases h
        | succ below =>
          rw [expand_of_rule hn hl hr] at h
          have hb := hs.balanced _ (Store.mem_rules_of_get? hr)
          obtain ⟨o, -, name', capitalize, -, hdeeper⟩ := exists_option_of_pick_error hb h
          have := ih below (by omega) hdeeper
          omega

theorem limit_le_of_generate_error (h : g.store.WellFormed) (hnext : AnswersBelow next)
    {source : σ} {rule : Text} {n : Nat}
    (herror : ((g.generate name).run next source).result = .error (.limitExceeded rule n)) :
    n ≤ g.levels := by
  have hend := Drawing.canEnd_run hnext (asksPositive_generate h name) source
  rw [herror] at hend
  unfold Generator.generate at hend
  split at hend
  · rw [Drawing.canEnd_done_iff] at hend
    cases hend
  · rw [Drawing.canEnd_note_iff] at hend
    have := limit_le_of_expand_error h hend
    omega

end Generator

/-! ## What can be made of a store -/

/-- Nothing that a service makes of the store can fail but as it tells its client. -/
structure Store.Servable (s : Store) : Prop where
  weights : ∀ e ∈ s.rules, ∀ o ∈ e.2.options, (numeral o.weight).length ≤ digitLimit
  rules : rulesReply s = .ok (.json 200 s.toJson)
  dump : ∃ text, dumpReply s = .ok (.content 200 .plain text)
  draws : ∀ g : Generator, g.store = s → ∀ {σ : Type} (next : σ → Nat → Nat × σ)
    (stop : ExpansionError → Bool) (name : Option Text) (count : Nat) (source : σ),
      ∀ b ∈ (g.session next stop name count source).bounds, 1 ≤ b
  limits : ∀ g : Generator, g.store = s → g.levels = stackLevels → ∀ {σ : Type}
    (next : σ → Nat → Nat × σ), AnswersBelow next → ∀ (name : Option Text) (source : σ) rule n,
      ((g.generate name).run next source).result = .error (.limitExceeded rule n) →
        (numeral n).length ≤ digitLimit

theorem Store.Writable.hasLongWeight {s : Store} (h : s.Writable) : s.hasLongWeight = false := by
  rw [Store.hasLongWeight, List.any_eq_false]
  intro e he
  rw [List.any_eq_true]
  rintro ⟨o, ho, hlong⟩
  rw [h e he o ho] at hlong
  cases hlong

theorem Store.Parsed.servable {s : Store} (h : s.Parsed) : s.Servable where
  weights e he o ho := length_numeral_le_iff.mpr (h.writable e he o ho)
  rules := by rw [rulesReply, h.writable.hasLongWeight]; rfl
  dump := ⟨joinWith ['\n'] s.lines, by rw [dumpReply, Store.dump_eq_ok_iff.mpr ⟨h.writable, rfl⟩]⟩
  draws g hg σ next stop name count source := by
    subst hg
    exact bounds_session h.reachable.wellFormed next stop name count source
  limits g hg hlevels σ next hnext name source rule n herror := by
    subst hg
    have hn : n ≤ stackLevels := hlevels ▸ limit_le_of_generate_error h.reachable.wellFormed hnext herror
    exact length_numeral_le_iff.mpr (short_of_natAbs_le (hn.trans (by decide)))

/-! ## What is replied -/

theorem Endpoint.exists_replyFrom {c : Settings} (hlimit : ∀ n, c.generation.limit = some n → 1 ≤ n)
    {t : Store} (ht : t.Servable) (entropy : Int) (q : Query) (e : Endpoint) :
    ∃ reply, e.replyFrom c t entropy q = .ok reply ∧ reply.status ∈ [200, 404, 422] := by
  cases e with
  | generate =>
    rw [replyFrom]
    cases GenerateQuery.read q with
    | error faults => exact ⟨_, rfl, by simp [Reply.status]⟩
    | ok g =>
      refine ⟨_, generateReply_eq (Generator.of_positive hlimit t) entropy g, ?_⟩
      simpa using status_replyOf _ _
  | rules =>
    rw [replyFrom]
    cases q.reload with
    | error fault => exact ⟨_, rfl, by simp [Reply.status]⟩
    | ok again => exact ⟨_, ht.rules, by simp [Reply.json, Reply.status]⟩
  | dump =>
    rw [replyFrom]
    cases q.reload with
    | error fault => exact ⟨_, rfl, by simp [Reply.status]⟩
    | ok again =>
      obtain ⟨text, hdump⟩ := ht.dump
      exact ⟨_, hdump, by simp [Reply.status]⟩
  | description d => exact ⟨_, rfl, by cases d <;> simp [Description.reply, Reply.status]⟩

theorem Request.exists_replyFrom {c : Settings} (hlimit : ∀ n, c.generation.limit = some n → 1 ≤ n)
    {t : Store} (ht : t.Servable) (entropy : Int) {r : Request} {place : Text}
    (hplace : readTarget r.target r.query = .ok place) :
    ∃ reply, r.replyFrom c t entropy = .ok reply ∧
      ∀ e, r.lead = .ok e → reply.status ∈ [200, 404, 422] := by
  unfold replyFrom
  cases hlead : r.lead with
  | ok e =>
    obtain ⟨reply, hreply, hstatus⟩ := Endpoint.exists_replyFrom hlimit ht entropy r.query e
    exact ⟨reply, hreply, fun _ _ => hstatus⟩
  | error out =>
    simp only [lead, hplace] at hlead
    split at hlead
    · cases hlead
      exact ⟨_, rfl, by simp⟩
    · split at hlead
      · cases hlead
      · cases hlead
        exact ⟨_, rfl, by simp⟩

namespace Service

/-- **A service that has its store does not fail.** After any history in which a
store was loaded, it is one that was read, and every request that can be sent and
does not ask to load anew has a reply; at an endpoint this is a success, the lack of
rules, or a refusal. The limit of the settings makes a generator of every store.
Whatever was read can be served: its weights have no more digits than can be
written, no draw is from nothing, and no limit is reported that cannot be written. -/
theorem answers_without_fault (path : Path) (tree : FileTree) (history : List Traffic) :
    let now := serveAll (tree, start path) history
    (∀ t, now.2.store = some t →
      t.Parsed ∧ ∀ r : Request, r.query.reload ≠ .ok true →
        ∀ place, readTarget r.target r.query = .ok place → ∀ entropy,
          ∃ reply, respond now entropy r = .ok reply ∧
            ∀ e, r.lead = .ok e → reply.status ∈ [200, 404, 422]) ∧
      (∀ c, now.2.settings = some c → ∀ s : Store,
        ∃ g, Generator.of s (c.generation.limit.map Int.ofNat) = .ok g) ∧
      ∀ s : Store, s.Parsed → s.Servable := by
  intro now
  have hground : now.2.Grounded := (grounded_start path).serveAll history
  have hlimit {c : Settings} (hc : now.2.settings = some c) :
      ∀ n, c.generation.limit = some n → 1 ≤ n := by
    obtain ⟨source, hload⟩ := hground.settings c hc
    exact Settings.one_le_limit_of_load hload
  refine ⟨fun t ht => ?_, fun c hc s => ⟨_, Generator.of_positive (hlimit hc) s⟩,
    fun s => Store.Parsed.servable⟩
  obtain ⟨⟨c, hc⟩, source, _, hloaded⟩ := hground.store t ht
  refine ⟨hloaded.parsed, fun r hquiet place hplace entropy => ?_⟩
  rw [respond_of_quiet hc ht (mt Request.Reloads.asked hquiet)]
  exact Request.exists_replyFrom (hlimit hc) hloaded.parsed.servable entropy hplace

/-- A grammar of one rule that refers to itself, with a limit of two: all three
endpoints reply. -/
theorem answers_without_fault_at_limit :
    let tree : FileTree :=
      ⟨[([['w'], ['c']], .ascii "[psr]\nfiles=\"g\"\nrecursion_limit=2".toList),
        ([['w'], ['g']], .ascii "*a\n12:x[a]".toList)], [['w']]⟩
    let t : Store := ⟨[(['a'], ⟨['a'], [⟨"x[a]".toList, 12⟩], 12⟩)], some ['a']⟩
    let get (e : Endpoint) : Request := ⟨"GET".toList, e.path, []⟩
    let now := serveAll (tree, start configurationPath) [.request 0 (get .dump)]
    now.2.store = some t ∧ t.Parsed ∧
      (∀ e ∈ [Endpoint.generate, .rules, .dump], (get e).query.reload ≠ .ok true ∧
        ∃ reply, respond now 0 (get e) = .ok reply ∧ reply.status ∈ [200, 404, 422]) := by
  intro tree t get now
  -- the file is read by evaluation, and its values are checked by unfolding alone
  let c : Settings := ⟨⟨[grammarFile], none, 1, none, some 2⟩, .default⟩
  have hload : Settings.load tree configurationPath = .ok c := by
    have hread : readConfiguration tree configurationPath =
        .ok [("psr".toList, .table
          [("files".toList, .string ['g']), ("recursion_limit".toList, .integer 2)])] := by cbv
    exact Settings.load_of_read hread
  have hfiles : loadFiles tree .empty [grammarFile] = (t, none) := by
    have htext : tree.readText grammarFile = .ok "*a\n12:x[a]".toList := by cbv
    have hread : Store.empty.read "*a\n12:x[a]".toList = ⟨t, 1, none⟩ := by decide
    simp only [loadFiles, htext, hread]
  have hloaded : Loaded configurationPath tree c t := ⟨hload, hfiles⟩
  have hlead (e : Endpoint) : (get e).lead = .ok e := Request.lead_get (by decide) e
  have hasks : (get .dump).again? = some false := by
    rw [Request.again?, hlead]
    rfl
  have hnow : now = (tree, ⟨configurationPath, some c, some t⟩) :=
    congrArg (Prod.mk tree) (congrArg Prod.snd (answer_of_loads hasks rfl hloaded 0))
  have hstore : now.2.store = some t := by rw [hnow]
  obtain ⟨hanswers, -, -⟩ := answers_without_fault configurationPath tree [.request 0 (get .dump)]
  obtain ⟨hparsed, hreplies⟩ := hanswers t hstore
  refine ⟨hstore, hparsed, fun e _ => ?_⟩
  have hquiet : (get e).query.reload ≠ .ok true := by
    have hreload : (get e).query.reload = .ok false := rfl
    simp [hreload]
  obtain ⟨place, hplace⟩ := Request.exists_target_of_lead (hlead e)
  obtain ⟨reply, hreply, hstatus⟩ := hreplies (get e) hquiet place hplace 0
  exact ⟨hquiet, reply, hreply, hstatus e (hlead e)⟩

end Service

end PhraseGrammar
