/-
The service that answers requests for phrases. It keeps the settings and the
store that it loaded last and loads again only when it is asked to. A loading
first takes over the settings, then fills a new store from their files: if
the files cannot be read, the service is left with the new settings and the
store that it had.
-/
import PhraseGrammar.Settings
import PhraseGrammar.Sources
import PhraseGrammar.Source
import PhraseGrammar.Service.Json
import PhraseGrammar.Service.Query
import PhraseGrammar.Service.Target

namespace PhraseGrammar

/-- A service for the configuration at a path: what it loaded last. -/
structure Service where
  path : Path
  settings : Option Settings
  store : Option Store

/-- A fault that the service does not answer. -/
inductive ServiceFault
  | settings (e : SettingsError)
  | load (e : LoadError)
  | limit (e : LimitError)
  | numeral (e : NumeralError)
  | target (e : TargetFault)
  deriving DecidableEq

def ServiceFault.message : ServiceFault → Text
  | .settings e => e.message
  | .load e => e.message
  | .limit e => e.message
  | .numeral e => e.message
  | .target e => e.message

namespace Service

/-- A service that has loaded nothing. -/
def start (path : Path) : Service := ⟨path, none, none⟩

/-- The settings, which are loaded if there are none yet. -/
def currentSettings (s : Service) (tree : FileTree) : Except SettingsError Settings × Service :=
  match s.settings with
  | some settings => (.ok settings, s)
  | none =>
    match Settings.load tree s.path with
    | .ok settings => (.ok settings, { s with settings := some settings })
    | .error e => (.error e, s)

/-- Loads the settings and the store. -/
def reload (s : Service) (tree : FileTree) : Except ServiceFault Store × Service :=
  match Settings.load tree s.path with
  | .error e => (.error (.settings e), s)
  | .ok settings =>
    let s := { s with settings := some settings }
    match loadFiles tree .empty settings.generation.files with
    | (_, some e) => (.error (.load e), s)
    | (store, none) => (.ok store, { s with store := some store })

/-- The store, which is loaded if there is none yet or if that is asked for. -/
def currentStore (s : Service) (tree : FileTree) (again : Bool) : Except ServiceFault Store × Service :=
  match again, s.store with
  | false, some store => (.ok store, s)
  | _, _ => s.reload tree

end Service

/-! ## Requests and replies -/

/-- A request. -/
structure Request where
  method : Text
  target : Text
  query : Query

/-- The form of what a reply holds. -/
inductive ContentForm
  | json
  | plain
  | page
  deriving DecidableEq

/-- The name of a form. -/
def ContentForm.name : ContentForm → Text
  | .json => "application/json".toList
  | .plain => "text/plain; charset=utf-8".toList
  | .page => "text/html; charset=utf-8".toList

/-- A reply: content with a status, or a refusal that names the parameters at
fault. -/
inductive Reply
  | content (status : Nat) (form : ContentForm) (body : Text)
  | refused (faults : List (ParameterFault × Text))
  deriving DecidableEq

/-- The status of a reply. -/
def Reply.status : Reply → Nat
  | .content status _ _ => status
  | .refused _ => 422

/-- A reply in JSON. -/
def Reply.json (status : Nat) (j : Json) : Reply := .content status .json j.text

/-- A reply that says what went wrong. -/
def Reply.detail (status : Nat) (message : Text) : Reply :=
  .json status (.object [("detail".toList, .string message)])

/-- The descriptions of the service: one for programs, two for people, and a
page that the first of these comes back to. -/
inductive Description
  | schema
  | manual
  | manualReturn
  | reference
  deriving DecidableEq

/-- What can be asked for. -/
inductive Endpoint
  | generate
  | rules
  | dump
  | description (d : Description)
  deriving DecidableEq

/-- All endpoints. -/
def Endpoint.all : List Endpoint :=
  [.generate, .rules, .dump, .description .schema, .description .manual,
   .description .manualReturn, .description .reference]

/-- The path of an endpoint. -/
def Endpoint.path : Endpoint → Text
  | .generate => "/api/generate".toList
  | .rules => "/api/rules".toList
  | .dump => "/api/dump".toList
  | .description .schema => "/openapi.json".toList
  | .description .manual => "/docs".toList
  | .description .manualReturn => "/docs/oauth2-redirect".toList
  | .description .reference => "/redoc".toList

/-- The endpoint at a path; slashes after it do not matter, nor does a line
end before them. -/
def Endpoint.ofPath? (path : Text) : Option Endpoint :=
  let bare := dropFinalLineFeed (path.reverse.dropWhile (· == '/')).reverse
  Endpoint.all.find? fun e => e.path == bare

/-- The methods that an endpoint answers: only of a description can the head
be asked for alone. -/
def Endpoint.allows (method : Text) : Endpoint → Bool
  | .description _ => method = "GET".toList || method = "HEAD".toList
  | _ => method = "GET".toList

/-- A description of the service. What it says is none of this library's
concern, so it has a form but is blank. -/
def Description.reply : Description → Reply
  | .schema => .content 200 .json []
  | _ => .content 200 .page []

/-- The parameters of a request for phrases. -/
structure GenerateQuery where
  rule : Option Text
  count : Nat
  seed : Option Int
  reload : Bool

/-- A parameter that was read, with its fault under its name if it has one. -/
def faultOf {α : Type} (key : Text) : Except ParameterFault α → List (ParameterFault × Text)
  | .ok _ => []
  | .error e => [(e, key)]

/-- Loading anew is asked for by any number but zero. -/
def Query.reload (q : Query) : Except ParameterFault Bool :=
  (q.whole? "reload".toList).map fun n => n.getD 0 != 0

/-- Reads the parameters of a request for phrases, or finds all their
faults. -/
def GenerateQuery.read (q : Query) : Except (List (ParameterFault × Text)) GenerateQuery :=
  let count := (q.whole? "count".toList).bind fun n => within 1 1000 (n.getD 1)
  let seed := q.whole? "seed".toList
  let again := q.reload
  match count, seed, again with
  | .ok n, .ok seed, .ok again => .ok ⟨q.get? "rule".toList, n.toNat, seed, again⟩
  | _, _, _ =>
    .error (faultOf "count".toList count ++ faultOf "seed".toList seed ++
      faultOf "reload".toList again)

/-! ## Answers -/

/-- The reply to an expansion that failed. -/
def Reply.ofExpansionError : ExpansionError → Reply
  | .noRules => .detail 404 ExpansionError.noRules.message
  | .stackExhausted => .detail 422 "Rule expansion recursed too deeply.".toList
  | e => .detail 422 e.message

/-- The phrases of outcomes up to the first that failed. -/
def phrasesOf : List Expanded → Except ExpansionError (List Text)
  | [] => .ok []
  | .ok t :: rest => (phrasesOf rest).map (t :: ·)
  | .error e :: _ => .error e

/-- Generates phrases from a store. `entropy` is the seed when none is
given. -/
def generateReply (store : Store) (settings : GenerationSettings) (entropy : Int)
    (q : GenerateQuery) : Except ServiceFault Reply :=
  match Generator.of store (settings.limit.map Int.ofNat) with
  | .error e => .error (.limit e)
  | .ok g =>
    let rule := q.rule.or settings.rule
    let source := Source.ofSeed ((q.seed.or settings.seed).getD entropy)
    let s := g.session Source.next (fun _ => true) rule q.count source
    match phrasesOf s.outcomes with
    | .error e => .ok (.ofExpansionError e)
    | .ok phrases =>
      .ok (.json 200 (.object
        [("rule".toList, Json.ofText? (rule.or store.start)),
         ("results".toList, .array (phrases.map .string))]))

/-- An option in JSON. -/
def WeightedValue.toJson (o : WeightedValue) : Json :=
  .object [("weight".toList, .number o.weight), ("value".toList, .string o.value)]

/-- A store in JSON. -/
def Store.toJson (s : Store) : Json :=
  .object
    [("starting_rule".toList, Json.ofText? s.start),
     ("rules".toList, .object (s.rules.map fun e =>
        (e.2.name, .array (e.2.options.map WeightedValue.toJson))))]

/-- A weight of the store has too many digits to be written. -/
def Store.hasLongWeight (s : Store) : Bool :=
  s.rules.any fun e => e.2.options.any fun o => tooLongToWrite o.weight

/-- Lists the rules of a store. -/
def rulesReply (store : Store) : Except ServiceFault Reply :=
  if store.hasLongWeight then .error (.numeral .writing) else .ok (.json 200 store.toJson)

/-- Writes a store as a script. -/
def dumpReply (store : Store) : Except ServiceFault Reply :=
  match store.dump with
  | .ok t => .ok (.content 200 .plain t)
  | .error e => .error (.numeral e)

/-- Answers from the store once it is there. -/
def Service.withStore (s : Service) (tree : FileTree) (again : Bool)
    (answer : Store → Except ServiceFault Reply) : Except ServiceFault Reply × Service :=
  match s.currentStore tree again with
  | (.error e, s) => (.error e, s)
  | (.ok store, s) => (answer store, s)

/-- Answers a request at an endpoint. The parameters are read before anything
is loaded. -/
def Service.answerAt (s : Service) (tree : FileTree) (entropy : Int) (q : Query) :
    Endpoint → Except ServiceFault Reply × Service
  | .generate =>
    match GenerateQuery.read q with
    | .error faults => (.ok (.refused faults), s)
    | .ok q =>
      match s.currentStore tree q.reload with
      | (.error e, s) => (.error e, s)
      | (.ok store, s) =>
        match s.currentSettings tree with
        | (.error e, s) => (.error (.settings e), s)
        | (.ok settings, s) => (generateReply store settings.generation entropy q, s)
  | .rules =>
    match q.reload with
    | .error e => (.ok (.refused [(e, "reload".toList)]), s)
    | .ok again => s.withStore tree again rulesReply
  | .dump =>
    match q.reload with
    | .error e => (.ok (.refused [(e, "reload".toList)]), s)
    | .ok again => s.withStore tree again dumpReply
  | .description d => (.ok d.reply, s)

/-- Answers a request. -/
def Service.answer (s : Service) (tree : FileTree) (entropy : Int) (r : Request) :
    Except ServiceFault Reply × Service :=
  match readTarget r.target r.query with
  | .error e => (.error (.target e), s)
  | .ok path =>
    match Endpoint.ofPath? path with
    | none => (.ok (.detail 404 "Not Found".toList), s)
    | some e =>
      if e.allows r.method then s.answerAt tree entropy r.query e
      else (.ok (.detail 405 "Method Not Allowed".toList), s)

/-- The body that is sent: a request that asks for the head alone gets none. -/
def Reply.sentBody (method : Text) : Reply → Text
  | .content _ _ body => if method = "HEAD".toList then [] else body
  | .refused _ => []

end PhraseGrammar
