/-
What a service answers when it is asked for its rules tells the store that it answers
from. The answer is read by the grammar of JSON and by that alone, so whoever reads it
gets the starting rule, and the rules in the order of their creation with all their
options (`rules_read_back`).

Two things could be lost besides what the writing might lose. The rules are collected
under their names, where of two that had one name the later would take the place of the
earlier (`Json.keyed`); but a store files no two rules under one name. And the totals of
the rules are not listed; but they follow from the weights, by the invariant of the store
(`Store.toJson_injective`).
-/
import Mathlib
import PhraseGrammar.Proofs.JsonGrammar
import PhraseGrammar.Proofs.SafeReplies
import PhraseGrammar.Proofs.StoreGrowth
import PhraseGrammar.Proofs.UniqueDumps

namespace PhraseGrammar

/-! ## Members under their keys -/

namespace Json

/-- Puts a member among others. If its key is among theirs, it takes the place of the
member that had the key. -/
def put (members : List (Text × Json)) (m : Text × Json) : List (Text × Json) :=
  if m.1 ∈ members.map (·.1) then members.map fun e => if e.1 = m.1 then m else e
  else members ++ [m]

/-- Members collected under their keys, one after the other. -/
def keyed (members : List (Text × Json)) : List (Text × Json) := members.foldl put []

theorem foldl_put {members more : List (Text × Json)} (h : ((members ++ more).map (·.1)).Nodup) :
    more.foldl put members = members ++ more := by
  induction more generalizing members with
  | nil => simp
  | cons m more ih =>
    have hnew : m.1 ∉ members.map (·.1) := by
      intro hmem
      rw [List.map_append, List.nodup_append] at h
      exact h.2.2 _ hmem _ (by simp) rfl
    have happ : members ++ m :: more = (members ++ [m]) ++ more := by simp
    rw [happ] at h ⊢
    rw [List.foldl_cons, put, if_neg hnew, ih h]

theorem keyed_of_nodup {members : List (Text × Json)} (h : (members.map (·.1)).Nodup) :
    keyed members = members := foldl_put h

theorem ofText?_eq_null_iff {t : Option Text} : ofText? t = .null ↔ t = none := by
  cases t <;> simp [ofText?]

end Json

/-! ## Stores in JSON -/

theorem WeightedValue.toJson_injective : Function.Injective WeightedValue.toJson := by
  intro o o' h
  cases o
  cases o'
  simpa [toJson, and_comm] using h

/-- What a rule says about itself, as a member of a listing. -/
def listedMember (content : Text × List WeightedValue) : Text × Json :=
  (content.1, .array (content.2.map WeightedValue.toJson))

theorem listedMember_injective : Function.Injective listedMember := by
  intro content content' h
  obtain ⟨hname, hoptions⟩ := Prod.mk.inj h
  exact Prod.ext hname (WeightedValue.toJson_injective.list_map (Json.array.inj hoptions))

namespace Store

variable {s t : Store}

theorem toJson_eq (s : Store) :
    s.toJson = .object
      [("starting_rule".toList, Json.ofText? s.start),
       ("rules".toList, .object ((s.rules.map (·.2.content)).map listedMember))] := by
  rw [List.map_map]
  rfl

/-- **A store in JSON tells the store.** -/
theorem toJson_injective (hs : s.WellFormed) (ht : t.WellFormed) (h : s.toJson = t.toJson) : s = t := by
  simp only [toJson_eq, Json.object.injEq, List.cons.injEq, Prod.mk.injEq, true_and, and_true] at h
  exact hs.eq_of_contents ht (listedMember_injective.list_map h.2)

theorem WellFormed.eq_empty_iff (h : s.WellFormed) : s = .empty ↔ s.start = none := by
  constructor
  · intro he
    rw [he]
    rfl
  · intro hstart
    have hrules := h.start_eq_none_iff.mp hstart
    cases s
    simp only at hrules hstart
    rw [hrules, hstart, Store.empty]

end Store

/-! ## Answers -/

namespace Service

/-- A request for the rules, to a service that may have done anything before. -/
structure RulesRequest where
  path : Path
  tree : FileTree
  history : List Traffic
  request : Request
  entropy : Int
  again : Bool
  lead : request.lead = .ok .rules
  reload : request.query.reload = .ok again

namespace RulesRequest

variable (q : RulesRequest) {t : Store}

/-- The files and the service at the time of the request. -/
def now : FileTree × Service := serveAll (q.tree, start q.path) q.history

/-- The store that is answered from: the one that is there, or the one that is loaded for
the request. -/
def store : Except ServiceFault Store := (q.now.2.currentStore q.now.1 q.again).1

/-- The response to the request. -/
def response : Except ServiceFault Reply := respond q.now q.entropy q.request

variable {q}

/-- Any store that a service has is one to answer from. -/
theorem store_of_kept (h : q.now.2.store = some t) (hagain : q.again = false) : q.store = .ok t := by
  rw [store, hagain, currentStore_of_store h]

/-- So is any that it can load. -/
theorem store_of_loaded {c : Settings} (hl : q.now.2.loads q.again = true)
    (h : Loaded q.path q.now.1 c t) : q.store = .ok t := by
  have hpath : q.now.2.path = q.path := path_serveAll (grounded_start q.path) q.history
  rw [← hpath] at h
  rw [store, currentStore_of_loads hl]
  simp only [Service.reload, h.settings, h.store]

theorem response_of_store (h : q.store = .ok t) :
    t.Parsed ∧ q.response = .ok (.json 200 t.toJson) := by
  have hground : q.now.2.Grounded := (grounded_start q.path).serveAll q.history
  have hask : Endpoint.rules.again? q.request.query = some q.again := by
    rw [Endpoint.again?, q.reload]
    rfl
  obtain ⟨hafter, ⟨f, hf⟩ | ⟨t', c, ht', hc, hkept⟩⟩ := hground.currentStore_cases q.now.1 q.again
  · rw [store, hf] at h
    cases h
  · obtain rfl : t' = t := Except.ok.inj (ht'.symm.trans h)
    obtain ⟨-, tree, c', hloaded⟩ := hafter.store t' hkept
    refine ⟨hloaded.parsed, ?_⟩
    rw [response, respond, answer_eq, q.lead]
    simp only
    rw [answerAt_of_store hask (Prod.ext ht' rfl) hc, Endpoint.replyFrom, q.reload]
    exact hloaded.parsed.servable.rules

end RulesRequest

/-- **A listing of the rules loses nothing.** A request for the rules gets one whenever
there is a store to answer from, and what it gets is JSON for one value only, with
nothing escaped but quotes, backslashes and control characters. The value is the name of
the starting rule, null if the store is empty, and the rules in their order, each under
its own name with the weights and the values of its options; collecting them by name
merges none. So two stores with the same listing are the same, whatever services they
are in. -/
theorem rules_read_back (q : RulesRequest) (t : Store) (h : q.store = .ok t) :
    let options (r : Rule) : Json := .array (r.options.map fun o =>
      .object [("weight".toList, .number o.weight), ("value".toList, .string o.value)])
    let members : List (Text × Json) := t.rules.map fun e => (e.1, options e.2)
    let listing : Json :=
      .object [("starting_rule".toList, Json.ofText? t.start), ("rules".toList, .object members)]
    (∃ body, q.response = .ok (.content 200 .json body) ∧ body = listing.text ∧
        ∀ v, Json.Writes body v ↔ v = listing) ∧
      (∀ c, Json.escapedChar c = [c] ↔ c ≠ '"' ∧ c ≠ '\\' ∧ 0x20 ≤ c.toNat) ∧
      (Json.ofText? t.start = .null ↔ t = .empty) ∧
      (members.map (·.1)).Nodup ∧
      Json.keyed (t.rules.map fun e => (e.2.name, options e.2)) = members ∧
      ∀ (q' : RulesRequest) (t' : Store), q'.store = .ok t' → q'.response = q.response → t' = t := by
  intro options members listing
  obtain ⟨hparsed, hresponse⟩ := RulesRequest.response_of_store h
  have hwell := hparsed.reachable.wellFormed
  have hnames : (members.map (·.1)).Nodup := by
    rw [List.map_map]
    exact hwell.distinct
  have hmembers : t.rules.map (fun e => (e.2.name, options e.2)) = members :=
    List.map_congr_left fun e he => by rw [hwell.filed e he]
  have hlisting : t.toJson = listing := by
    simp only [listing]
    rw [← hmembers]
    rfl
  have hreads : ∀ v, Json.Writes t.toJson.text v ↔ v = listing := by
    intro v
    rw [Json.writes_text_iff, hlisting]
  have hkeyed : Json.keyed (t.rules.map fun e => (e.2.name, options e.2)) = members := by
    rw [hmembers, Json.keyed_of_nodup hnames]
  refine ⟨⟨t.toJson.text, hresponse, congrArg Json.text hlisting, hreads⟩,
    fun c => Json.escapedChar_eq_self_iff, Json.ofText?_eq_null_iff.trans hwell.eq_empty_iff.symm,
    hnames, hkeyed, ?_⟩
  intro q' t' h' hsame
  obtain ⟨hparsed', hresponse'⟩ := RulesRequest.response_of_store h'
  rw [hresponse, hresponse'] at hsame
  have htext : t'.toJson.text = t.toJson.text := by simpa [Reply.json] using hsame
  have hwrites : Json.Writes t'.toJson.text t.toJson := by
    rw [htext]
    exact Json.writes_text t.toJson
  exact Store.toJson_injective hparsed'.reachable.wellFormed hwell (Json.writes_text_iff.mp hwrites).symm

/-- A rule that has something to be escaped in its name and in its value. It is listed
when the store is loaded, and again from the store that is kept. -/
theorem rules_read_back_of_escapes :
    let tree : FileTree := .withGrammar (.ascii "*\"\\\\\n12:a\\nb\x01".toList)
    let name : Text := "\"\\".toList
    let t : Store := ⟨[(name, ⟨name, [⟨"a\nb\x01".toList, 12⟩], 12⟩)], some name⟩
    let listed : Text := openBrace :: "\"weight\":12,\"value\":\"a\\nb\\u0001\"".toList ++ [closeBrace]
    let rulesListed : Text := openBrace :: "\"\\\"\\\\\":[".toList ++ listed ++ [']', closeBrace]
    let body : Text := openBrace :: "\"starting_rule\":\"\\\"\\\\\",\"rules\":".toList ++
      rulesListed ++ [closeBrace]
    let rules : Request := ⟨"GET".toList, Endpoint.rules.path, []⟩
    let first : RulesRequest :=
      ⟨configurationPath, tree, [], rules, 0, false, Request.lead_get (by decide) .rules, rfl⟩
    let second : RulesRequest := { first with history := [.request 0 rules] }
    first.store = .ok t ∧ second.store = .ok t ∧ second.response = first.response ∧
      first.response = .ok (.content 200 .json body) ∧ ∀ v, Json.Writes body v ↔ v = t.toJson := by
  intro tree name t listed rulesListed body rules first second
  have htext : tree.readText grammarFile = .ok "*\"\\\\\n12:a\\nb\x01".toList := by cbv
  have hloaded : Loaded configurationPath tree (.ofFiles [grammarFile]) t :=
    .of_grammar htext (by decide) (by decide)
  have hfirst : first.store = .ok t := RulesRequest.store_of_loaded rfl hloaded
  have hasks : rules.again? = some false := by
    rw [Request.again?, Request.lead_get (by decide)]
    rfl
  have hnow : second.now = (tree, ⟨configurationPath, some (.ofFiles [grammarFile]), some t⟩) :=
    congrArg (Prod.mk tree) (congrArg Prod.snd (answer_of_loads hasks rfl hloaded 0))
  have hsecond : second.store = .ok t := RulesRequest.store_of_kept (by rw [hnow]) rfl
  obtain ⟨⟨written, hresponse, hwritten, hreads⟩, -⟩ := rules_read_back first t hfirst
  obtain ⟨⟨written', hresponse', hwritten', -⟩, -⟩ := rules_read_back second t hsecond
  obtain rfl : written = body := hwritten.trans (by cbv)
  refine ⟨hfirst, hsecond, ?_, hresponse, hreads⟩
  rw [hresponse, hresponse', hwritten, hwritten']

end Service

end PhraseGrammar
