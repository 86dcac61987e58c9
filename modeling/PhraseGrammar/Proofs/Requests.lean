/-
What a service makes of requests, in any order and while its files change.

A request does one thing to the service at most: if its endpoint needs the store
and its parameters are accepted, it asks for the store, and all that is left of it
in the service is what asking for the store leaves there (`answer_service`). Its
reply is then told by the settings and the store that are in the service, by the
parameters, and by chance where no seed is given (`Request.replyFrom`). So until
a request asks to load anew nothing in the service changes, whatever else is asked
and whatever becomes of the files, and every request is answered as it would have
been at first (`answers_between_reloads`).
-/
import PhraseGrammar.Proofs.Reload

namespace PhraseGrammar

/-! ## Where a request is led -/

/-- The endpoint that a request comes to, or the answer that it gets on the way. -/
def Request.lead (r : Request) : Except (Except ServiceFault Reply) Endpoint :=
  match readTarget r.target r.query with
  | .error e => .error (.error (.target e))
  | .ok path =>
    match Endpoint.ofPath? path with
    | none => .error (.ok (.detail 404 "Not Found".toList))
    | some e =>
      if e.allows r.method then .ok e else .error (.ok (.detail 405 "Method Not Allowed".toList))

theorem readTarget_of_sendable {q : Query} (h : q.lengthSent ≤ targetLimit) (t : Text) :
    readTarget t q = readTarget t [] := by
  have hq : ¬ targetLimit < q.lengthSent := Nat.not_lt.mpr h
  have hnone : ¬ targetLimit < Query.lengthSent [] := by decide
  simp only [readTarget, Target.lead, Target.longPart?, if_neg hq, if_neg hnone]

/-- A request that can be sent to an endpoint comes to it. -/
theorem Request.lead_get {q : Query} (h : q.lengthSent ≤ targetLimit) (e : Endpoint) :
    (⟨"GET".toList, e.path, q⟩ : Request).lead = .ok e := by
  have hled : (readTarget e.path []).toOption = some e.path := by
    cases e with
    | description d => cases d <;> decide +kernel
    | _ => decide +kernel
  have htarget : readTarget e.path [] = .ok e.path := by
    cases hread : readTarget e.path [] with
    | error fault => simp [hread, Except.toOption] at hled
    | ok path => simpa [hread, Except.toOption] using hled
  have hplace : Endpoint.ofPath? e.path = some e := by
    cases e with
    | description d => cases d <;> decide +kernel
    | _ => decide +kernel
  have hallows : e.allows "GET".toList = true := by cases e <;> rfl
  simp only [lead, readTarget_of_sendable h, htarget, hplace, hallows, if_true]

theorem Request.exists_target_of_lead {r : Request} {e : Endpoint} (h : r.lead = .ok e) :
    ∃ place, readTarget r.target r.query = .ok place := by
  unfold lead at h
  split at h
  · cases h
  · next place hplace => exact ⟨place, hplace⟩

/-- An endpoint asks for the store, anew or not, if it needs one and accepts the
parameters. -/
def Endpoint.again? (q : Query) : Endpoint → Option Bool
  | .generate => (GenerateQuery.read q).toOption.map (·.reload)
  | .rules | .dump => q.reload.toOption
  | .description _ => none

/-- A request asks for the store, anew or not, or does not ask for it. -/
def Request.again? (r : Request) : Option Bool :=
  match r.lead with
  | .ok e => e.again? r.query
  | .error _ => none

/-- The request makes the service load anew. -/
def Request.Reloads (r : Request) : Prop := r.again? = some true

theorem GenerateQuery.reload_of_read {q : Query} {g : GenerateQuery}
    (h : GenerateQuery.read q = .ok g) : q.reload = .ok g.reload := by
  unfold GenerateQuery.read at h
  cases hreload : q.reload with
  | error e => simp [hreload] at h
  | ok again =>
    simp only [hreload] at h
    split at h
    · next hagain =>
      cases h
      cases hagain
      rfl
    · cases h

theorem Endpoint.asks_cases {e : Endpoint} {q : Query} {again : Bool} (h : e.again? q = some again) :
    (∃ g, e = .generate ∧ GenerateQuery.read q = .ok g ∧ g.reload = again) ∨
      (e = .rules ∧ q.reload = .ok again) ∨ (e = .dump ∧ q.reload = .ok again) := by
  have hread {x : Except ParameterFault Bool} (hx : x.toOption = some again) : x = .ok again := by
    cases x with
    | error fault => cases hx
    | ok a => exact congrArg _ (Option.some.inj hx)
  cases e with
  | generate =>
    cases hg : GenerateQuery.read q with
    | error faults => simp [again?, hg, Except.toOption] at h
    | ok g => exact .inl ⟨g, rfl, rfl, by simpa [again?, hg, Except.toOption] using h⟩
  | rules => exact .inr (.inl ⟨rfl, hread h⟩)
  | dump => exact .inr (.inr ⟨rfl, hread h⟩)
  | description d => cases h

theorem Request.exists_endpoint_of_asks {r : Request} {again : Bool} (h : r.again? = some again) :
    ∃ e, r.lead = .ok e ∧ e.again? r.query = some again := by
  unfold again? at h
  cases hlead : r.lead with
  | error out => simp [hlead] at h
  | ok e => exact ⟨e, rfl, by simpa only [hlead] using h⟩

/-- A request makes the service load anew only if it says so. -/
theorem Request.Reloads.asked {r : Request} (h : r.Reloads) : r.query.reload = .ok true := by
  obtain ⟨e, -, hask⟩ := Request.exists_endpoint_of_asks h
  rcases Endpoint.asks_cases hask with ⟨g, -, hread, hagain⟩ | ⟨-, hq⟩ | ⟨-, hq⟩
  · rw [GenerateQuery.reload_of_read hread, hagain]
  · exact hq
  · exact hq

/-! ## Replies from what is loaded -/

/-- The reply of an endpoint from settings and a store. -/
def Endpoint.replyFrom (c : Settings) (t : Store) (entropy : Int) (q : Query) :
    Endpoint → Except ServiceFault Reply
  | .generate =>
    match GenerateQuery.read q with
    | .error faults => .ok (.refused faults)
    | .ok g => generateReply t c.generation entropy g
  | .rules =>
    match q.reload with
    | .error e => .ok (.refused [(e, "reload".toList)])
    | .ok _ => rulesReply t
  | .dump =>
    match q.reload with
    | .error e => .ok (.refused [(e, "reload".toList)])
    | .ok _ => dumpReply t
  | .description d => .ok d.reply

/-- The reply to a request from settings and a store. -/
def Request.replyFrom (r : Request) (c : Settings) (t : Store) (entropy : Int) :
    Except ServiceFault Reply :=
  match r.lead with
  | .ok e => e.replyFrom c t entropy r.query
  | .error out => out

theorem generateReply_ne_refused (t : Store) (g : GenerationSettings) (entropy : Int)
    (q : GenerateQuery) (faults : List (ParameterFault × Text)) :
    generateReply t g entropy q ≠ .ok (.refused faults) := by
  simp only [generateReply]
  split
  · simp
  · split
    · next e _ => cases e <;> simp [Reply.ofExpansionError, Reply.detail, Reply.json]
    · simp [Reply.json]

/-- An endpoint that asked for the store refuses nothing any more. -/
theorem Endpoint.replyFrom_ne_refused {e : Endpoint} {q : Query} {again : Bool}
    (h : e.again? q = some again) {c : Settings} {t : Store} {entropy : Int}
    {faults : List (ParameterFault × Text)} : e.replyFrom c t entropy q ≠ .ok (.refused faults) := by
  rcases asks_cases h with ⟨g, rfl, hread, -⟩ | ⟨rfl, hread⟩ | ⟨rfl, hread⟩
  · simp only [replyFrom, hread]
    exact generateReply_ne_refused t c.generation entropy g faults
  · simp only [replyFrom, hread, rulesReply]
    split <;> simp [Reply.json]
  · simp only [replyFrom, hread, dumpReply]
    split <;> simp

/-- If phrases are asked for, there is a seed for them, in the request or in the
settings. -/
def Request.Seeded (r : Request) (c : Settings) : Prop :=
  r.lead = .ok .generate → ∀ g, GenerateQuery.read r.query = .ok g →
    (g.seed.or c.generation.seed).isSome = true

theorem generateReply_of_seeded {t : Store} {g : GenerationSettings} {q : GenerateQuery}
    (h : (q.seed.or g.seed).isSome = true) (entropy entropy' : Int) :
    generateReply t g entropy q = generateReply t g entropy' q := by
  obtain ⟨seed, hseed⟩ := Option.isSome_iff_exists.mp h
  simp only [generateReply, hseed, Option.getD_some]

theorem Request.replyFrom_of_seeded {r : Request} {c : Settings} (h : r.Seeded c) (t : Store)
    (entropy entropy' : Int) : r.replyFrom c t entropy = r.replyFrom c t entropy' := by
  unfold replyFrom
  cases hlead : r.lead with
  | error out => rfl
  | ok e =>
    cases e with
    | generate =>
      simp only [Endpoint.replyFrom]
      cases hread : GenerateQuery.read r.query with
      | error faults => rfl
      | ok g => exact generateReply_of_seeded (h hlead g hread) entropy entropy'
    | rules => rfl
    | dump => rfl
    | description d => rfl

/-! ## One request -/

namespace Service

variable {s : Service} {tree : FileTree} {entropy : Int} {q : Query} {e : Endpoint} {again : Bool}

theorem answer_eq (s : Service) (tree : FileTree) (entropy : Int) (r : Request) :
    s.answer tree entropy r =
      match r.lead with
      | .ok e => s.answerAt tree entropy r.query e
      | .error out => (out, s) := by
  unfold answer Request.lead
  cases hread : readTarget r.target r.query with
  | error e => rfl
  | ok path =>
    cases hplace : Endpoint.ofPath? path with
    | none => simp only [hplace]
    | some e =>
      simp only [hplace]
      split <;> rfl

theorem answer_get (h : q.lengthSent ≤ targetLimit) (s : Service) (tree : FileTree) (entropy : Int)
    (e : Endpoint) :
    s.answer tree entropy ⟨"GET".toList, e.path, q⟩ = s.answerAt tree entropy q e := by
  rw [answer_eq, Request.lead_get h]

/-- Without asking for the store, an endpoint answers from nothing that is loaded. -/
theorem answerAt_of_none (h : e.again? q = none) (c : Settings) (t : Store) :
    s.answerAt tree entropy q e = (e.replyFrom c t entropy q, s) := by
  cases e with
  | generate =>
    cases hread : GenerateQuery.read q with
    | error faults => simp only [answerAt, Endpoint.replyFrom, hread]
    | ok g => simp [Endpoint.again?, hread, Except.toOption] at h
  | rules | dump =>
    cases hread : q.reload with
    | error fault => simp only [answerAt, Endpoint.replyFrom, hread]
    | ok again => simp [Endpoint.again?, hread, Except.toOption] at h
  | description d => rfl

theorem answerAt_of_fault (h : e.again? q = some again) {f : ServiceFault} {s' : Service}
    (hstore : s.currentStore tree again = (.error f, s')) :
    s.answerAt tree entropy q e = (.error f, s') := by
  rcases Endpoint.asks_cases h with ⟨g, rfl, hread, rfl⟩ | ⟨rfl, hread⟩ | ⟨rfl, hread⟩
  · simp only [answerAt, hread, hstore]
  · simp only [answerAt, hread, withStore, hstore]
  · simp only [answerAt, hread, withStore, hstore]

/-- With the store it asked for, an endpoint answers from it. -/
theorem answerAt_of_store (h : e.again? q = some again) {t : Store} {s' : Service}
    (hstore : s.currentStore tree again = (.ok t, s')) {c : Settings} (hc : s'.settings = some c) :
    s.answerAt tree entropy q e = (e.replyFrom c t entropy q, s') := by
  rcases Endpoint.asks_cases h with ⟨g, rfl, hread, rfl⟩ | ⟨rfl, hread⟩ | ⟨rfl, hread⟩
  · simp only [answerAt, Endpoint.replyFrom, hread, hstore, currentSettings, hc]
  · simp only [answerAt, Endpoint.replyFrom, hread, withStore, hstore]
  · simp only [answerAt, Endpoint.replyFrom, hread, withStore, hstore]

/-! ## What is loaded -/

/-- What a service has loaded, if it has loaded anything: settings that the
configuration held at some time, and with a store settings as well. -/
structure Grounded (s : Service) : Prop where
  settings : ∀ c, s.settings = some c → ∃ tree, Settings.load tree s.path = .ok c
  store : ∀ t, s.store = some t → (∃ c, s.settings = some c) ∧ ∃ tree c, Loaded s.path tree c t

theorem grounded_start (path : Path) : (start path).Grounded :=
  ⟨by simp [start], by simp [start]⟩

theorem currentStore_of_store {t : Store} (h : s.store = some t) (tree : FileTree) :
    s.currentStore tree false = (.ok t, s) := by
  simp only [currentStore, h]

theorem Grounded.take (h : s.Grounded) {c : Settings} (hc : Settings.load tree s.path = .ok c) :
    Grounded { s with settings := some c } where
  settings := by
    rintro c' hsome
    obtain rfl : c = c' := Option.some.inj hsome
    exact ⟨tree, hc⟩
  store t ht := ⟨⟨c, rfl⟩, (h.store t ht).2⟩

theorem Grounded.load {s : Service} {c : Settings} {t : Store} (h : Loaded s.path tree c t) :
    Grounded { s with settings := some c, store := some t } where
  settings := by
    rintro c' hsome
    obtain rfl : c = c' := Option.some.inj hsome
    exact ⟨tree, h.settings⟩
  store := by
    rintro t' hsome
    obtain rfl : t = t' := Option.some.inj hsome
    exact ⟨⟨c, rfl⟩, tree, c, h⟩

/-- Asking for the store fails, or leaves it in the service with settings. -/
theorem Grounded.currentStore_cases (h : s.Grounded) (tree : FileTree) (again : Bool) :
    (s.currentStore tree again).2.Grounded ∧
      ((∃ f, (s.currentStore tree again).1 = .error f) ∨
        ∃ t c, (s.currentStore tree again).1 = .ok t ∧
          (s.currentStore tree again).2.settings = some c ∧
          (s.currentStore tree again).2.store = some t) := by
  cases hl : s.loads again with
  | false =>
    simp only [loads, Bool.or_eq_false_iff, Option.isNone_eq_false_iff, Option.isSome_iff_exists] at hl
    obtain ⟨rfl, t, ht⟩ := hl
    obtain ⟨⟨c, hc⟩, -⟩ := h.store t ht
    rw [currentStore_of_store ht]
    exact ⟨h, .inr ⟨t, c, rfl, hc, ht⟩⟩
  | true =>
    rw [currentStore_of_loads hl]
    rcases reload_cases s tree with ⟨e, -, hr⟩ | ⟨c, e, hc, hr⟩ | ⟨c, t, hc, hr⟩
    · rw [hr]
      exact ⟨h, .inl ⟨_, rfl⟩⟩
    · rw [hr]
      exact ⟨h.take hc.settings, .inl ⟨_, rfl⟩⟩
    · rw [hr]
      exact ⟨.load hc, .inr ⟨t, c, rfl, rfl, rfl⟩⟩

/-- **A request leaves in a service what asking for the store leaves there**, and
nothing if it does not ask for it. -/
theorem answer_service (h : s.Grounded) (tree : FileTree) (entropy : Int) (r : Request) :
    (s.answer tree entropy r).2 =
      match r.again? with
      | none => s
      | some again => (s.currentStore tree again).2 := by
  rw [answer_eq]
  cases hlead : r.lead with
  | error out => simp only [Request.again?, hlead]
  | ok e =>
    simp only [Request.again?, hlead]
    cases hask : e.again? r.query with
    | none => rw [answerAt_of_none hask .default .empty]
    | some again =>
      obtain ⟨-, ⟨f, hf⟩ | ⟨t, c, ht, hc, -⟩⟩ := h.currentStore_cases tree again
      · rw [answerAt_of_fault hask (Prod.ext hf rfl)]
      · rw [answerAt_of_store hask (Prod.ext ht rfl) hc]

theorem Grounded.answer (h : s.Grounded) (tree : FileTree) (entropy : Int) (r : Request) :
    (s.answer tree entropy r).2.Grounded := by
  rw [answer_service h]
  cases r.again? with
  | none => exact h
  | some again => exact (h.currentStore_cases tree again).1

theorem answer_of_quiet {c : Settings} {t : Store} (hc : s.settings = some c) (ht : s.store = some t)
    {r : Request} (hr : ¬ r.Reloads) (tree : FileTree) (entropy : Int) :
    s.answer tree entropy r = (r.replyFrom c t entropy, s) := by
  rw [answer_eq, Request.replyFrom]
  unfold Request.Reloads Request.again? at hr
  cases hlead : r.lead with
  | error out => rfl
  | ok e =>
    simp only [hlead] at hr ⊢
    cases hask : e.again? r.query with
    | none => exact answerAt_of_none hask c t
    | some again =>
      obtain rfl : again = false := by simpa [hask] using hr
      exact answerAt_of_store hask (currentStore_of_store ht tree) hc

theorem answer_of_loads {r : Request} (hask : r.again? = some again) (hl : s.loads again = true)
    {c : Settings} {t : Store} (h : Loaded s.path tree c t) (entropy : Int) :
    s.answer tree entropy r =
      (r.replyFrom c t entropy, { s with settings := some c, store := some t }) := by
  obtain ⟨e, hlead, hask⟩ := Request.exists_endpoint_of_asks hask
  have hstore : s.currentStore tree again =
      (.ok t, { s with settings := some c, store := some t }) := by
    rw [currentStore_of_loads hl]
    simp only [reload, h.settings, h.store]
  rw [answer_eq, Request.replyFrom, hlead]
  exact answerAt_of_store hask hstore rfl

theorem path_answer (h : s.Grounded) (tree : FileTree) (entropy : Int) (r : Request) :
    (s.answer tree entropy r).2.path = s.path := by
  rw [answer_service h]
  cases r.again? with
  | none => rfl
  | some again => exact path_after (tree, s) (.store again)

/-- A request whose parameters are refused asks for nothing. -/
theorem again?_of_refused (h : s.Grounded) {r : Request} {faults : List (ParameterFault × Text)}
    (hreply : (s.answer tree entropy r).1 = .ok (.refused faults)) : r.again? = none := by
  cases hask : r.again? with
  | none => rfl
  | some again =>
    obtain ⟨e, hlead, hask⟩ := Request.exists_endpoint_of_asks hask
    rw [answer_eq, hlead] at hreply
    simp only at hreply
    obtain ⟨-, ⟨f, hf⟩ | ⟨t, c, ht, hc, -⟩⟩ := h.currentStore_cases tree again
    · rw [answerAt_of_fault hask (Prod.ext hf rfl)] at hreply
      cases hreply
    · rw [answerAt_of_store hask (Prod.ext ht rfl) hc] at hreply
      exact absurd hreply (Endpoint.replyFrom_ne_refused hask)

end Service

/-! ## Traffic -/

/-- What comes upon a service: its files become others, or there is a request, with
the seed for it if it has none. -/
inductive Traffic
  | files (tree : FileTree)
  | request (entropy : Int) (r : Request)

/-- Nothing is to be loaded anew. -/
def Traffic.Quiet : Traffic → Prop
  | .files _ => True
  | .request _ r => ¬ r.Reloads

namespace Service

/-- The files and the service after one thing came. -/
def serve : FileTree × Service → Traffic → FileTree × Service
  | (_, s), .files tree => (tree, s)
  | (tree, s), .request entropy r => (tree, (s.answer tree entropy r).2)

/-- The files and the service after all that came. -/
def serveAll (state : FileTree × Service) (traffic : List Traffic) : FileTree × Service :=
  traffic.foldl serve state

theorem Grounded.serve {state : FileTree × Service} (h : state.2.Grounded) (x : Traffic) :
    (serve state x).2.Grounded := by
  obtain ⟨tree, s⟩ := state
  cases x with
  | files tree => exact h
  | request entropy r => exact h.answer tree entropy r

theorem Grounded.serveAll {state : FileTree × Service} (h : state.2.Grounded) (traffic : List Traffic) :
    (serveAll state traffic).2.Grounded := by
  induction traffic generalizing state with
  | nil => exact h
  | cons x traffic ih => exact ih (h.serve x)

theorem path_serveAll {state : FileTree × Service} (h : state.2.Grounded) (traffic : List Traffic) :
    (serveAll state traffic).2.path = state.2.path := by
  induction traffic generalizing state with
  | nil => rfl
  | cons x traffic ih =>
    refine (ih (h.serve x)).trans ?_
    obtain ⟨tree, s⟩ := state
    cases x with
    | files tree => rfl
    | request entropy r => exact path_answer h tree entropy r

theorem serveAll_of_quiet {state : FileTree × Service} {c : Settings} {t : Store}
    (hc : state.2.settings = some c) (ht : state.2.store = some t) {traffic : List Traffic}
    (h : ∀ x ∈ traffic, x.Quiet) : (serveAll state traffic).2 = state.2 := by
  induction traffic generalizing state with
  | nil => rfl
  | cons x traffic ih =>
    obtain ⟨hx, htraffic⟩ := List.forall_mem_cons.mp h
    obtain ⟨tree, s⟩ := state
    have hstep : (serve (tree, s) x).2 = s := by
      cases x with
      | files tree => rfl
      | request entropy r => exact congrArg Prod.snd (answer_of_quiet hc ht hx tree entropy)
    have hrest := ih (by rw [hstep]; exact hc) (by rw [hstep]; exact ht) htraffic
    exact hrest.trans hstep

/-! ## What is answered -/

/-- The response to a request at some time. -/
def respond (state : FileTree × Service) (entropy : Int) (r : Request) : Except ServiceFault Reply :=
  (state.2.answer state.1 entropy r).1

theorem respond_of_quiet {state : FileTree × Service} {c : Settings} {t : Store}
    (hc : state.2.settings = some c) (ht : state.2.store = some t) {r : Request} (hr : ¬ r.Reloads)
    (entropy : Int) : respond state entropy r = r.replyFrom c t entropy :=
  congrArg Prod.fst (answer_of_quiet hc ht hr state.1 entropy)

theorem respond_after_quiet {state : FileTree × Service} {c : Settings} {t : Store}
    (hc : state.2.settings = some c) (ht : state.2.store = some t) {since : List Traffic}
    (h : ∀ x ∈ since, x.Quiet) {r : Request} (hr : ¬ r.Reloads) (entropy : Int) :
    respond (serveAll state since) entropy r = r.replyFrom c t entropy := by
  have hkept := serveAll_of_quiet hc ht h
  exact respond_of_quiet (by rw [hkept]; exact hc) (by rw [hkept]; exact ht) hr entropy

/-- **What is answered between two loadings.** At any time when a service has its
store, and for whatever comes after that does not make it load anew: a request is
answered as it would have been at that time, if its seed is given or the same. A
request whose parameters are refused loads nothing and changes nothing. A request
that makes the service load, with success, is answered from what is loaded, and so
are the requests after it. -/
theorem answers_between_reloads (path : Path) (tree : FileTree) (history : List Traffic) :
    let now := serveAll (tree, start path) history
    (now.2.store.isSome = true → ∃ c, now.2.settings = some c ∧
      ∀ since : List Traffic, (∀ x ∈ since, x.Quiet) → ∀ r : Request, ¬ r.Reloads →
        ∀ entropy entropy', entropy' = entropy ∨ r.Seeded c →
          respond (serveAll now since) entropy' r = respond now entropy r) ∧
      (∀ r : Request, r.Reloads → r.query.reload = .ok true) ∧
      (∀ (r : Request) entropy faults, respond now entropy r = .ok (.refused faults) →
        ¬ r.Reloads ∧ serve now (.request entropy r) = now) ∧
      ∀ (r : Request) again, r.again? = some again → now.2.loads again = true →
        ∀ c t, Loaded path now.1 c t → ∀ entropy,
          respond now entropy r = r.replyFrom c t entropy ∧
            ∀ since : List Traffic, (∀ x ∈ since, x.Quiet) → ∀ r' : Request, ¬ r'.Reloads →
              ∀ entropy', respond (serveAll now (.request entropy r :: since)) entropy' r' =
                r'.replyFrom c t entropy' := by
  intro now
  have hground : now.2.Grounded := (grounded_start path).serveAll history
  have hpath : now.2.path = path := path_serveAll (grounded_start path) history
  refine ⟨fun hstore => ?_, fun r => Request.Reloads.asked, fun r entropy faults hrefused => ?_, ?_⟩
  · obtain ⟨t, ht⟩ := Option.isSome_iff_exists.mp hstore
    obtain ⟨⟨c, hc⟩, -⟩ := hground.store t ht
    refine ⟨c, hc, fun since hsince r hr entropy entropy' hseed => ?_⟩
    rw [respond_after_quiet hc ht hsince hr, respond_of_quiet hc ht hr]
    rcases hseed with rfl | hseed
    · rfl
    · exact Request.replyFrom_of_seeded hseed t entropy' entropy
  · have hask : r.again? = none := again?_of_refused hground hrefused
    refine ⟨fun hreloads => ?_, ?_⟩
    · rw [Request.Reloads, hask] at hreloads
      cases hreloads
    · have hservice := answer_service hground now.1 entropy r
      rw [hask] at hservice
      exact congrArg (Prod.mk now.1) hservice
  · intro r again hask hloads c t hloaded entropy
    rw [← hpath] at hloaded
    have hanswer := answer_of_loads hask hloads hloaded entropy
    have hnext : (serve now (.request entropy r)).2 =
        { now.2 with settings := some c, store := some t } := congrArg Prod.snd hanswer
    refine ⟨congrArg Prod.fst hanswer, fun since hsince r' hr' entropy' => ?_⟩
    exact respond_after_quiet (by rw [hnext]) (by rw [hnext]) hsince hr' entropy'

/-- A service loads a grammar of one rule, and then the grammar becomes another. While
the files go and a request to load anew is refused, it answers from the first one; a dump
that loads anew is what the answers after it come from. -/
theorem answers_from_first_grammar :
    let first : FileTree := .withGrammar (.ascii "*a\nx".toList)
    let second : FileTree := .withGrammar (.ascii "*b\ny".toList)
    let t : Store := ⟨[(['a'], ⟨['a'], [⟨['x'], 1⟩], 1⟩)], some ['a']⟩
    let u : Store := ⟨[(['b'], ⟨['b'], [⟨['y'], 1⟩], 1⟩)], some ['b']⟩
    let c : Settings := .ofFiles [grammarFile]
    let dump (q : Query) : Request := ⟨"GET".toList, Endpoint.dump.path, q⟩
    let generate (q : Query) : Request := ⟨"GET".toList, Endpoint.generate.path, q⟩
    let phrases := generate [("seed".toList, ['1'])]
    let refused := generate [("count".toList, ['0']), ("reload".toList, ['1'])]
    let again := dump [("reload".toList, ['1'])]
    let now := serveAll (first, start configurationPath) [.request 0 (dump []), .files second]
    let since : List Traffic := [.files ⟨[], [['w']]⟩, .request 0 refused]
    now.2.store = some t ∧ (∀ x ∈ since, x.Quiet) ∧ phrases.Seeded c ∧
      respond (serveAll now since) 5 phrases = respond now 0 phrases ∧
      respond (serveAll now since) 5 (dump []) = .ok (.content 200 .plain "* a\n1:x".toList) ∧
      respond now 0 refused = .ok (.refused [(.tooSmall, "count".toList)]) ∧
      serve now (.request 0 refused) = now ∧ again.Reloads ∧
      respond (serveAll now (.request 0 again :: since)) 5 phrases = phrases.replyFrom c u 5 ∧
      respond (serveAll now (.request 0 again :: since)) 5 (dump []) =
        .ok (.content 200 .plain "* b\n1:y".toList) := by
  intro first second t u c dump generate phrases refused again now since
  have hasks (q : Query) (hq : q.lengthSent ≤ targetLimit) (e : Endpoint) :
      (⟨"GET".toList, e.path, q⟩ : Request).again? = e.again? q := by
    rw [Request.again?, Request.lead_get hq]
  have hdump : (dump []).again? = some false := hasks _ (by decide) .dump
  have hagain : again.again? = some true := hasks _ (by decide) .dump
  have hphrases : phrases.again? = some false := hasks _ (by decide) .generate
  have hrefused : refused.again? = none := hasks _ (by decide) .generate
  have hquiet : ¬ phrases.Reloads := by simp [Request.Reloads, hphrases]
  have hquiet' : ¬ (dump []).Reloads := by simp [Request.Reloads, hdump]
  have hsince : ∀ x ∈ since, x.Quiet := by
    simp [since, Traffic.Quiet, Request.Reloads, hrefused]
  have hseeded : phrases.Seeded c := by
    intro _ g hread
    obtain rfl : ⟨none, 1, some 1, false⟩ = g := Except.ok.inj hread
    rfl
  have hfirst : Loaded configurationPath first c t :=
    .of_grammar (show first.readText grammarFile = .ok "*a\nx".toList by cbv) (by decide) (by decide)
  have hsecond : Loaded configurationPath second c u :=
    .of_grammar (show second.readText grammarFile = .ok "*b\ny".toList by cbv) (by decide) (by decide)
  have hnow : now = (second, ⟨configurationPath, some c, some t⟩) :=
    congrArg (Prod.mk second) (congrArg Prod.snd (answer_of_loads hdump rfl hfirst 0))
  have hreply (s : Store) : (dump []).replyFrom c s 5 = dumpReply s := by
    rw [Request.replyFrom, Request.lead_get (by decide)]
    rfl
  have hrefusal : respond now 0 refused = .ok (.refused [(.tooSmall, "count".toList)]) := by
    rw [respond, answer_get (by decide)]
    rfl
  obtain ⟨hbetween, -, hrefusals, hloads⟩ :=
    answers_between_reloads configurationPath first [.request 0 (dump []), .files second]
  have hstore : now.2.store = some t := by rw [hnow]
  obtain ⟨c', hc, hsame⟩ := hbetween (by rw [hstore]; rfl)
  have hsettings : now.2.settings = some c := by rw [hnow]
  obtain rfl : c = c' := Option.some.inj (hsettings.symm.trans hc)
  have hdumped : respond now 5 (dump []) = dumpReply t := by
    rw [respond_of_quiet hsettings hstore hquiet', hreply]
  have hthere : Loaded configurationPath now.1 c u := by
    rw [hnow]
    exact hsecond
  have hanew := (hloads again true hagain rfl c u hthere 0).2 since hsince
  refine ⟨hstore, hsince, hseeded, hsame since hsince phrases hquiet 0 5 (.inr hseeded), ?_, hrefusal,
    (hrefusals refused 0 _ hrefusal).2, hagain, hanew phrases hquiet 5, ?_⟩
  · rw [hsame since hsince (dump []) hquiet' 5 5 (.inl rfl), hdumped]
    decide +kernel
  · rw [hanew (dump []) hquiet' 5, hreply]
    decide +kernel

end Service

end PhraseGrammar
