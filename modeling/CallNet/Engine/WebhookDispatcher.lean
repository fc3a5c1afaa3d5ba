import CallNet.Engine.Database
import CallNet.Engine.LookupCaches
import CallNet.ForStd.Machine
import CallNet.ForStd.RecentKeys

/-!
# Webhook dispatch

`WebhookDispatcher` of `services/webhook/dispatcher.ts` and the webhook lookup of
`services/database.service.ts` it awaits, over tables that stay as they are.  A dispatch runs
up to its first lookup in one step and goes on when a lookup is answered; the answers come in
any order.  The delivery of a job and its log lines are left out.
-/

namespace CallNet

structure WebhookCallSnapshot where
  id : String
  fromLeg : String
  toLeg : String
  fromName : String
  direction : CallDirection
  status : CallStatus
  startTime : String
  endTime : Option String
  duration : Option Rat
  fromExt : Option String
  toExt : Option String
  cost : Option Rat
  currency : Option String
deriving DecidableEq, Repr

structure WebhookEventPayload where
  event : String
  idempotencyKey : String
  timestamp : String
  webhookId : Int
  owner : String
  call : WebhookCallSnapshot
deriving DecidableEq, Repr

structure WebhookDeliverJob where
  webhookId : Int
  url : String
  secret : String
  event : String
  idempotencyKey : String
  body : WebhookEventPayload
deriving DecidableEq, Repr

/-- `STATUS_EVENT` -/
def statusEvent : CallStatus → String
  | .ringing => "call.ringing"
  | .answered => "call.answered"
  | .ended => "call.completed"
  | .missed => "call.missed"
  | .failed => "call.failed"
  | .unreachable => "call.unreachable"
  | .voicemail => "call.voicemail"

/-- The audit events that the dispatcher translates, and the others. -/
inductive AuditEvent where
  | call_routed
  | call_forwarded
  | trunk_call_forwarded
  | other
deriving DecidableEq, Repr

/-- `AUDIT_EVENT` -/
def auditEvent : AuditEvent → Option String
  | .call_routed => some "call.routed"
  | .call_forwarded => some "call.transferred"
  | .trunk_call_forwarded => some "call.transferred"
  | .other => none

/-- An `AuditEntry` with the metadata the dispatcher reads. -/
structure AuditEntry where
  event : AuditEvent
  extension : String
  timestamp : String
  callId : Option String
  fromLeg : Option String
  toLeg : Option String
  fromName : Option String
deriving DecidableEq, Repr

/-- `MAX_SEEN` -/
def maxSeen : Nat := 10000

/-- `Math.floor(MAX_SEEN * 0.1)` -/
def seenDrop : Nat := maxSeen / 10

/-- `getWebhooksForOwner`, when the table can be read. -/
def SharedTables.getWebhooksForOwner (db : SharedTables) (owner : String) :
    List WebhookRecord :=
  if owner = "" then []
  else ((groupByOwner WebhookRecord.ownerExtension db.loadEnabledWebhooks).get? owner).getD []

def CallLog.toSnapshot (call : CallLog) : WebhookCallSnapshot where
  id := call.id
  fromLeg := call.fromLeg
  toLeg := call.toLeg
  fromName := call.fromName
  direction := call.direction
  status := call.status
  startTime := call.startTime
  endTime := call.endTime
  duration := call.duration
  fromExt := call.fromExt
  toExt := call.toExt
  cost := call.cost
  currency := call.currency

/-- What a call to `dispatch` that was not a repetition works with. -/
structure Dispatch where
  event : String
  call : WebhookCallSnapshot
  owners : List String
deriving DecidableEq, Repr

namespace Dispatch

/-- `hook.events.length > 0 && !hook.events.includes(event)` does not hold. -/
def subscribed (d : Dispatch) (hook : WebhookRecord) : Bool :=
  hook.events = [] || d.event ∈ hook.events

/-- The job for a webhook. -/
def job (d : Dispatch) (owner timestamp : String) (hook : WebhookRecord) : WebhookDeliverJob :=
  let idempotencyKey := s!"{hook.id}:{d.call.id}:{d.event}"
  { webhookId := hook.id
    url := hook.url
    secret := hook.secret
    event := d.event
    idempotencyKey := idempotencyKey
    body := {
      event := d.event
      idempotencyKey := idempotencyKey
      timestamp := timestamp
      webhookId := hook.id
      owner := owner
      call := d.call } }

end Dispatch

structure WebhookDispatcher where
  /-- The keys `<callId>:<event>`. -/
  seen : OrdMap String Unit
  /-- The dispatches that were not repetitions, first to last. -/
  dispatched : List Dispatch
  /-- The dispatches at their `await`, by number, each with its owners from the one that is
      looked up on. -/
  pending : OrdMap Nat (List String)
  /-- The jobs handed to `enqueue`, each with the number of its dispatch. -/
  jobs : List (Nat × WebhookDeliverJob)

namespace WebhookDispatcher

def init : WebhookDispatcher := { seen := .empty, dispatched := [], pending := .empty, jobs := [] }

/-- `seen` grows by a key, or shrinks by its oldest ones. -/
def markSeen (s : WebhookDispatcher) (key : String) : WebhookDispatcher :=
  { s with seen := RecentKeys.mark maxSeen seenDrop s.seen key }

/-- Resolve a call leg to a local extension, if any. -/
def resolveExt (dir : Directory) (leg : String) : Option String :=
  if leg = "" then none
  else ((dir.getUser leg).map SipUser.extension).or
    ((dir.getUserByPhone leg).map SipUser.extension)

/-- The set of the owners of the two legs, in insertion order. -/
def owners (dir : Directory) (call : CallLog) : List String :=
  let fromExt := call.fromExt.or (resolveExt dir call.fromLeg)
  let toExt := call.toExt.or (resolveExt dir call.toLeg)
  let owners := if truthy fromExt then [fromExt.getD ""] else []
  if truthy toExt ∧ toExt.getD "" ∉ owners then owners ++ [toExt.getD ""] else owners

/-- The key of a call and an event in `seen`. -/
def dedupeKey (id event : String) : String := id ++ ":" ++ event

/-- `dispatch` up to its first `await`. -/
def dispatch (s : WebhookDispatcher) (dir : Directory) (event : String) (call : CallLog) :
    WebhookDispatcher :=
  if call.id = "" then s else
  let dedupeKey := dedupeKey call.id event
  if s.seen.has dedupeKey then s else
  let number := s.dispatched.length
  let owners := owners dir call
  let s := s.markSeen dedupeKey
  let s := { s with
    dispatched := s.dispatched ++ [{ event := event, call := call.toSnapshot, owners := owners }] }
  if owners = [] then s
  else { s with pending := s.pending.set number owners }

/-- The call an audit entry is about: the logged one, or what the entry says of it. -/
def auditCall (e : AuditEntry) (callId : String) (existing : Option CallLog) : CallLog :=
  existing.getD
    { id := callId
      fromLeg := if e.extension ≠ "" then e.extension else e.fromLeg.getD ""
      toLeg := e.toLeg.getD ""
      fromName := e.fromName.getD ""
      direction := .inbound
      status := .ringing
      startTime := e.timestamp }

def onAuditEntry (s : WebhookDispatcher) (dir : Directory) (calls : List CallLog)
    (e : AuditEntry) : WebhookDispatcher :=
  match auditEvent e.event with
  | none => s
  | some event =>
    if truthy e.callId then
      let callId := e.callId.getD ""
      s.dispatch dir event (auditCall e callId (calls.find? (·.id = callId)))
    else s

/-- A lookup is answered: the jobs for the owner's webhooks, each with a reading of the clock,
    then the next owner's lookup. -/
def resume (s : WebhookDispatcher) (number : Nat) (lookup : String → List WebhookRecord)
    (clock : Nat → String) : Option WebhookDispatcher :=
  match s.pending.get? number, s.dispatched[number]? with
  | some (owner :: rest), some d =>
    let jobs := ((lookup owner).filter d.subscribed).mapIdx fun k hook =>
      (number, d.job owner (clock k) hook)
    some { s with
      jobs := s.jobs ++ jobs
      pending := if rest = [] then s.pending.delete number else s.pending.set number rest }
  | _, _ => none

end WebhookDispatcher

/-- What happens to the dispatcher, with the directory and the call log at that moment. -/
inductive DispatchEvent where
  /-- `DbEvent.CallUpserted` -/
  | callUpserted (call : CallLog) (dir : Directory)
  | auditEntry (entry : AuditEntry) (calls : List CallLog) (dir : Directory)
  /-- The lookup of a pending dispatch is answered from the table. -/
  | lookupSucceeds (number : Nat) (clock : Nat → String)
  /-- The lookup of a pending dispatch fails, which gives no webhooks. -/
  | lookupFails (number : Nat)

namespace WebhookDispatcher

def step (db : SharedTables) (s : WebhookDispatcher) :
    DispatchEvent → Option WebhookDispatcher
  | .callUpserted call dir => some (s.dispatch dir (statusEvent call.status) call)
  | .auditEntry entry calls dir => some (s.onAuditEntry dir calls entry)
  | .lookupSucceeds number clock => s.resume number db.getWebhooksForOwner clock
  | .lookupFails number => s.resume number (fun _ => []) fun _ => ""

end WebhookDispatcher

end CallNet
