import CallNet.Engine.RoutingRules
import CallNet.ForStd.ReadThrough

/-!
# Caches of shared tables

The parts of `services/database.service.ts` that read routing rules, connectors, AI agents
and webhooks through a cache, with their loaders in `services/postgres/*.repo.ts`.  A lookup
that misses awaits the loader and then stores the answer, whatever has happened meanwhile;
each `*-notify.ts` listener drops entries when its table changes.

A row's JSON text stays text, and its timestamps are left out.
-/

namespace CallNet

/-! ## Rows and records -/

/-- A row of `connectors`, and the record made of it; the configuration is JSON text. -/
structure ConnectorRecord where
  id : Int
  name : String
  type : String
  enabled : Bool
  config : String
deriving DecidableEq, Repr

/-- A row of `ai_agents`. -/
structure AiAgentRow where
  id : Int
  ownerExtension : String
  name : String
  greeting : Option String
  language : Option String
  sttProvider : Option String
  llmProvider : Option String
  llmModel : Option String
  systemPrompt : Option String
  temperature : Option Rat
  ttsProvider : Option String
  ttsVoice : Option String
  enabled : Bool
deriving DecidableEq, Repr

structure AiAgentRecord where
  id : Int
  ownerExtension : String
  name : String
  greeting : String
  language : String
  sttProvider : String
  llmProvider : String
  llmModel : String
  systemPrompt : String
  temperature : Rat
  ttsProvider : String
  ttsVoice : String
  enabled : Bool
deriving DecidableEq, Repr

def rowToAgent (r : AiAgentRow) : AiAgentRecord :=
  { id := r.id
    ownerExtension := r.ownerExtension
    name := r.name
    greeting := r.greeting.getD ""
    language := r.language.getD "en"
    sttProvider := r.sttProvider.getD "speechmatics"
    llmProvider := r.llmProvider.getD "openai"
    llmModel := r.llmModel.getD "gpt-4o-mini"
    systemPrompt := r.systemPrompt.getD ""
    temperature := r.temperature.getD (7 / 10)
    ttsProvider := r.ttsProvider.getD "deepgram"
    ttsVoice := r.ttsVoice.getD ""
    enabled := r.enabled }

/-- A row of `webhooks`. -/
structure WebhookRow where
  id : Int
  ownerExtension : String
  name : String
  url : String
  secret : Option String
  /-- Event names with commas between them. -/
  events : Option String
  enabled : Bool
deriving DecidableEq, Repr

structure WebhookRecord where
  id : Int
  ownerExtension : String
  name : String
  url : String
  secret : String
  events : List String
  enabled : Bool
deriving DecidableEq, Repr

/-- The white space that `trim` removes. -/
def jsIsSpace (c : Char) : Bool :=
  c ∈ ['\t', '\n', '\x0b', '\x0c', '\r', ' ', '\u00a0', '\u1680', '\u2028', '\u2029', '\u202f',
    '\u205f', '\u3000', '\ufeff'] || ('\u2000' ≤ c && c ≤ '\u200a')

def jsTrim (s : String) : String :=
  String.ofList (((s.toList.dropWhile jsIsSpace).reverse.dropWhile jsIsSpace).reverse)

def rowToWebhook (r : WebhookRow) : WebhookRecord :=
  { id := r.id
    ownerExtension := r.ownerExtension
    name := r.name
    url := r.url
    secret := r.secret.getD ""
    events := (((r.events.getD "").splitOn ",").map jsTrim).filter (· ≠ "")
    enabled := r.enabled }

/-! ## Loaders -/

/-- The shared tables the engine reads; rows come in the order a scan returns them. -/
structure SharedTables where
  routingRules : RoutingRules
  connectors : List ConnectorRecord
  aiAgents : List AiAgentRow
  webhooks : List WebhookRow

namespace SharedTables

def loadConnectorById (db : SharedTables) (id : Int) : Option ConnectorRecord :=
  db.connectors.find? fun r => r.id = id

def loadAiAgentById (db : SharedTables) (id : Int) : Option AiAgentRecord :=
  (db.aiAgents.find? fun r => r.id = id ∧ r.enabled).map rowToAgent

def loadEnabledAiAgents (db : SharedTables) : List AiAgentRecord :=
  (db.aiAgents.filter AiAgentRow.enabled).map rowToAgent

def loadEnabledWebhooks (db : SharedTables) : List WebhookRecord :=
  (db.webhooks.filter WebhookRow.enabled).map rowToWebhook

end SharedTables

/-- The elements by owner, each owner's in their order. -/
def groupByOwner (owner : α → String) (all : List α) : OrdMap String (List α) :=
  all.foldl (fun byOwner x => byOwner.set (owner x) ((byOwner.get? (owner x)).getD [] ++ [x]))
    .empty

/-- An owner's elements are those of the whole list with that owner. -/
theorem groupByOwner_getD (owner : α → String) (all : List α) (o : String) :
    ((groupByOwner owner all).get? o).getD [] = all.filter (owner · = o) := by
  have key : ∀ (all : List α) (m : OrdMap String (List α)),
      ((all.foldl (fun byOwner x =>
        byOwner.set (owner x) ((byOwner.get? (owner x)).getD [] ++ [x])) m).get? o).getD [] =
        (m.get? o).getD [] ++ all.filter (owner · = o) := by
    intro all
    induction all with
    | nil => simp
    | cons x all ih =>
      intro m
      rw [List.foldl_cons, ih, OrdMap.get?_set]
      by_cases ho : o = owner x
      · subst ho
        simp
      · rw [if_neg ho, List.filter_cons_of_neg (by simpa using Ne.symm ho)]
  exact (key all .empty).trans (List.nil_append _)

/-! ## Keys and notices -/

/-- What is looked up: `getRoutingRule`, `getConnector`, `getAiAgent` (of a positive id),
    `getDefaultAiAgentForOwner` and `getWebhooksForOwner`, which load a whole set. -/
inductive CacheKey where
  | routingRule (number : String)
  | connector (id : Int)
  | aiAgent (id : { id : Int // 0 < id })
  | aiAgentsByOwner
  | webhooks
deriving DecidableEq

/-- What is cached under a key; `none` is a cached absence. -/
def CacheKey.Value : CacheKey → Type
  | .routingRule _ => Option RoutingRule
  | .connector _ => Option ConnectorRecord
  | .aiAgent _ => Option AiAgentRecord
  | .aiAgentsByOwner => OrdMap String (List AiAgentRecord)
  | .webhooks => OrdMap String (List WebhookRecord)

/-- What a lookup reads. -/
def SharedTables.load : (key : CacheKey) → SharedTables → key.Value
  | .routingRule number, db => (db.routingRules.loadRoutingRuleByNumber number).bind rowToRule
  | .connector id, db => db.loadConnectorById id
  | .aiAgent id, db => db.loadAiAgentById id
  | .aiAgentsByOwner, db => groupByOwner AiAgentRecord.ownerExtension db.loadEnabledAiAgents
  | .webhooks, db => groupByOwner WebhookRecord.ownerExtension db.loadEnabledWebhooks

/-- A call of `clearRoutingRuleCache`, `invalidateConnector`, `clearConnectorCache`,
    `clearAiAgentCache` or `clearWebhookCache`. -/
inductive CacheNotice where
  | routingRules
  | connector (id : Int)
  | connectors
  | aiAgents
  | webhooks
deriving DecidableEq

def CacheNotice.covers : CacheNotice → CacheKey → Bool
  | .routingRules, .routingRule _ => true
  | .connector id, .connector id' => id' = id
  | .connectors, .connector _ => true
  | .aiAgents, .aiAgent _ => true
  | .aiAgents, .aiAgentsByOwner => true
  | .webhooks, .webhooks => true
  | _, _ => false

/-- The caches of the engine before the shared tables. -/
def lookupCaches : ReadThrough.Source CacheKey CacheKey.Value SharedTables CacheNotice where
  load := SharedTables.load
  covers := CacheNotice.covers

end CallNet
