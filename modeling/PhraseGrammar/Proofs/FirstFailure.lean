/-
Phrases up to the first failure, and what the two front ends make of them. Both
generate until something fails; the command has printed the phrases before the
failure by then, and the service answers with the failure alone. So both are
told by one pair, the phrases and the failure (`Generator.phrases`), of which
`resultOf` and `replyOf` are the two forms, and the forms agree
(`replyOf_agrees`).
-/
import Mathlib
import PhraseGrammar.CommandLine
import PhraseGrammar.Service.Basic

namespace PhraseGrammar

/-! ## Phrases up to the first failure -/

/-- The phrases before the first failure, and the failure if there is one. -/
def Generator.phrases {σ : Type} (next : σ → Nat → Nat × σ) (g : Generator) (name : Option Text) :
    Nat → σ → List Text × Option ExpansionError
  | 0, _ => ([], none)
  | count + 1, s =>
    let r := (g.generate name).run next s
    match r.result with
    | .error e => ([], some e)
    | .ok t =>
      let rest := g.phrases next name count r.source
      (t :: rest.1, rest.2)

theorem Generator.outcomes_session {σ : Type} (next : σ → Nat → Nat × σ) (g : Generator)
    (name : Option Text) (count : Nat) (s : σ) :
    (g.session next (fun _ => true) name count s).outcomes =
      (g.phrases next name count s).1.map .ok ++
        (g.phrases next name count s).2.toList.map .error := by
  induction count generalizing s with
  | zero => rfl
  | succ count ih =>
    rw [session, phrases]
    cases hresult : ((g.generate name).run next s).result with
    | error e => simp
    | ok t => simp [ih]

/-- Phrases, one to a line. -/
def linesOf (phrases : List Text) : Text := phrases.flatMap (· ++ ['\n'])

theorem phrasesOf_outcomes (phrases : List Text) (failure : Option ExpansionError) :
    phrasesOf (phrases.map .ok ++ failure.toList.map .error) =
      match failure with
      | none => .ok phrases
      | some e => .error e := by
  induction phrases with
  | nil => cases failure <;> rfl
  | cons t phrases ih =>
    rw [List.map_cons, List.cons_append, phrasesOf, ih]
    cases failure <;> rfl

/-- The line that the command writes about a failure. -/
def errorLine (e : ExpansionError) : Text := "Error: ".toList ++ complaintAbout e ++ ['\n']

/-- What the command makes of phrases and a failure. -/
def resultOf (made : List Text × Option ExpansionError) : CommandResult :=
  match made.2 with
  | none => ⟨.code 0, linesOf made.1, []⟩
  | some e => ⟨.code 1, linesOf made.1, errorLine e⟩

/-- What the service makes of phrases and a failure. -/
def replyOf (rule : Option Text) (made : List Text × Option ExpansionError) : Reply :=
  match made.2 with
  | none =>
    .json 200 (.object
      [("rule".toList, Json.ofText? rule), ("results".toList, .array (made.1.map .string))])
  | some e => .ofExpansionError e

/-- With a limit that is accepted, the service replies with what is made of the phrases. -/
theorem generateReply_eq {store : Store} {settings : GenerationSettings} {g : Generator}
    (h : Generator.of store (settings.limit.map Int.ofNat) = .ok g) (entropy : Int) (q : GenerateQuery) :
    generateReply store settings entropy q =
      .ok (replyOf ((q.rule.or settings.rule).or store.start)
        (g.phrases Source.next (q.rule.or settings.rule) q.count
          (.ofSeed ((q.seed.or settings.seed).getD entropy)))) := by
  simp only [generateReply, h, Generator.outcomes_session, phrasesOf_outcomes, replyOf]
  cases (g.phrases Source.next (q.rule.or settings.rule) q.count
    (.ofSeed ((q.seed.or settings.seed).getD entropy))).2 <;> rfl

theorem Session.result_eq {σ : Type} {s : Session σ} {made : List Text × Option ExpansionError}
    (h : s.outcomes = made.1.map .ok ++ made.2.toList.map .error) : s.result false = resultOf made := by
  have hlog : s.notices.flatMap (·.line false) = [] := by simp [Notice.line]
  obtain ⟨phrases, failure⟩ := made
  unfold result
  rw [hlog, h]
  cases failure with
  | some e =>
    have hlast : (phrases.map .ok ++ [.error e] : List Expanded).getLast? = some (.error e) :=
      List.getLast?_concat
    simp only [Option.toList_some, List.map_cons, List.map_nil, hlast, List.flatMap_append,
      List.flatMap_map, List.flatMap_cons, List.flatMap_nil, List.append_nil]
    rfl
  | none =>
    cases hlast : phrases.getLast? <;> simp [resultOf, linesOf, List.flatMap_map, hlast]

/-! ## Agreement -/

/-- The reply of the service and the end of the command say the same of the
phrases before the first failure, the first part of `made`. -/
structure FrontEndsAgree (reply : Reply) (result : CommandResult)
    (made : List Text × Option ExpansionError) : Prop where
  success : reply.status = 200 ↔ result.exit = .code 0
  results : reply.status = 200 →
    (∃ rule, reply = .json 200 (.object
      [("rule".toList, Json.ofText? rule), ("results".toList, .array (made.1.map .string))])) ∧
    result.stdout = linesOf made.1
  noRules : reply.status = 404 ↔
    result.exit = .code 1 ∧ result.stderr = errorLine .noRules
  recursion : reply.status = 422 ↔
    result.exit = .code 1 ∧ ∃ e, e ≠ .noRules ∧ result.stderr = errorLine e
  before : reply.status = 422 → result.stdout = linesOf made.1

theorem complaint_head_of_limit (rule : Text) (limit : Nat) :
    (complaintAbout (.limitExceeded rule limit)).head? = some 'E' := by
  have hmessage : complaintAbout (.limitExceeded rule limit) =
      "Expansion of rule '".toList ++ rule ++ "' exceeded the recursion limit of ".toList ++
        numeral limit ++ ".".toList := rfl
  rw [hmessage]
  simp only [List.append_assoc]
  rfl

theorem errorLine_eq_noRules_iff {e : ExpansionError} : errorLine e = errorLine .noRules ↔ e = .noRules := by
  constructor
  · intro h
    have hcomplaint : complaintAbout e = complaintAbout .noRules :=
      List.append_cancel_left (List.append_cancel_right h)
    have hhead : (complaintAbout e).head? = some 'N' := by rw [hcomplaint]; rfl
    cases e with
    | noRules => rfl
    | limitExceeded rule limit =>
      rw [complaint_head_of_limit] at hhead
      cases hhead
    | stackExhausted => cases hhead
  · rintro rfl
    rfl

theorem status_ofExpansionError (e : ExpansionError) :
    (Reply.ofExpansionError e).status = if e = .noRules then 404 else 422 := by
  cases e <;> rfl

/-- The two forms of the same phrases and failure agree. -/
theorem replyOf_agrees (rule : Option Text) (made : List Text × Option ExpansionError) :
    FrontEndsAgree (replyOf rule made) (resultOf made) made := by
  obtain ⟨phrases, failure⟩ := made
  cases failure with
  | none =>
    have hstatus : (replyOf rule (phrases, none)).status = 200 := rfl
    constructor
    · simp [hstatus, resultOf]
    · exact fun _ => ⟨⟨rule, rfl⟩, rfl⟩
    · simp [hstatus, resultOf]
    · simp [hstatus, resultOf]
    · simp [hstatus]
  | some e =>
    have hreply : replyOf rule (phrases, some e) = .ofExpansionError e := rfl
    have hresult : resultOf (phrases, some e) = ⟨.code 1, linesOf phrases, errorLine e⟩ := rfl
    rw [hreply, hresult]
    by_cases he : e = .noRules
    · subst he
      have hstatus : (Reply.ofExpansionError .noRules).status = 404 := rfl
      constructor
      · simp [hstatus]
      · simp [hstatus]
      · simp [hstatus]
      · refine ⟨by simp [hstatus], ?_⟩
        rintro ⟨-, e', hne, hsame⟩
        exact absurd (errorLine_eq_noRules_iff.mp hsame.symm) hne
      · simp [hstatus]
    · have hstatus : (Reply.ofExpansionError e).status = 422 := by
        rw [status_ofExpansionError, if_neg he]
      constructor
      · simp [hstatus]
      · simp [hstatus]
      · simp [hstatus, errorLine_eq_noRules_iff, he]
      · exact ⟨fun _ => ⟨rfl, e, he, rfl⟩, fun _ => hstatus⟩
      · exact fun _ => rfl

theorem status_replyOf (rule : Option Text) (made : List Text × Option ExpansionError) :
    (replyOf rule made).status = 200 ∨ (replyOf rule made).status = 404 ∨
      (replyOf rule made).status = 422 := by
  obtain ⟨phrases, failure⟩ := made
  cases failure with
  | none => exact .inl rfl
  | some e => cases e <;> simp [replyOf, Reply.ofExpansionError, Reply.detail, Reply.json, Reply.status]

theorem not_agree_of_fault {rule : Option Text} {made : List Text × Option ExpansionError}
    {result : CommandResult} {f : CommandFault} (h : result.exit = .fault f)
    (other : List Text × Option ExpansionError) :
    ¬ FrontEndsAgree (replyOf rule made) result other := by
  intro hagree
  rcases status_replyOf rule made with hs | hs | hs
  · have hexit := hagree.success.mp hs
    rw [h] at hexit
    cases hexit
  · have hexit := (hagree.noRules.mp hs).1
    rw [h] at hexit
    cases hexit
  · have hexit := (hagree.recursion.mp hs).1
    rw [h] at hexit
    cases hexit

end PhraseGrammar
