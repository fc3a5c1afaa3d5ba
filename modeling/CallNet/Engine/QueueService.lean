import CallNet.ForStd.OrdMap
import CallNet.ForStd.Machine

/-!
# In-memory registry of call queues (ACD)

The queue service of `services/queue.service.ts`: a fixed roster of agents per
queue, the callers waiting in or connected through it, and the policy that picks
the next agent to ring.

Two things an operation reads from outside are its `Env`: the presence resolver
`isRegistered` and the clock.  Each operation gets its own `Env`, so presence may
change arbitrarily between two of them.  The `updated` events only re-broadcast
snapshots; `syncPresence` returns the queues it would emit them for, and the other
operations leave them out.
-/

namespace CallNet.Acd

/-- Agent availability within a call queue. -/
inductive QueueAgentState where
  | offline
  | available
  | ringing
  | busy
  | paused
deriving DecidableEq, Repr

/-- State of a caller waiting in (or connected through) a queue. -/
inductive QueueCallerState where
  | waiting
  | ringing
  | connected
deriving DecidableEq, Repr

/-- Distribution order when more than one agent is available. -/
inductive QueueStrategy where
  | longestIdle
  | roundRobin
  | sequential
deriving DecidableEq, Repr

structure QueueAgent where
  extension : String
  name : String
  state : QueueAgentState
  /-- Whether the agent has opted out; persists across presence. -/
  paused : Bool
  /-- Epoch ms the agent last became idle. -/
  idleSince : Nat
  callsHandled : Nat
deriving DecidableEq, Repr

structure QueueCaller where
  /-- The SIP call id, the queue's key for this caller. -/
  id : String
  fromLeg : String
  fromName : String
  enqueuedAt : Nat
  state : QueueCallerState
  /-- Extension of the agent currently being rung or connected, if any. -/
  agent : Option String
deriving DecidableEq, Repr

structure Queue where
  id : String
  name : String
  strategy : QueueStrategy
  agents : OrdMap String QueueAgent
  callers : OrdMap String QueueCaller
  /-- Cursor for round-robin, indexing into the agent roster order. -/
  rrCursor : Nat

/-- A queue declared in the configuration.  `parseQueueDefinitions` drops empty
    agent entries, so no extension of a definition is the empty string. -/
structure QueueDefinition where
  id : String
  name : String
  agents : List String
  strategy : String
  agents_ne : "" ∉ agents

structure QueueService where
  queues : OrdMap String Queue

/-- What an operation reads from outside the service. -/
structure Env where
  isRegistered : String → Bool
  now : Nat

/-! ## Construction -/

def normalizeStrategy (s : String) : QueueStrategy :=
  if s = "round-robin" then .roundRobin
  else if s = "sequential" then .sequential
  else .longestIdle

/-- A roster entry as the constructor creates it. -/
def newAgent (now : Nat) (ext : String) : QueueAgent :=
  { extension := ext, name := ext, state := .offline, paused := false,
    idleSince := now, callsHandled := 0 }

def Queue.ofDefinition (now : Nat) (d : QueueDefinition) : Queue :=
  { id := d.id
    name := d.name
    strategy := normalizeStrategy d.strategy
    agents := .ofList (d.agents.map fun ext => (ext, newAgent now ext))
    callers := .empty
    rrCursor := 0 }

/-- The constructor: one queue per definition. -/
def QueueService.ofDefinitions (now : Nat) (defs : List QueueDefinition) : QueueService :=
  ⟨.ofList (defs.map fun d => (d.id, .ofDefinition now d))⟩

/-- Apply `f` to the queue `queueId`, or do nothing when there is none. -/
def QueueService.onQueue (s : QueueService) (queueId : String) (f : Queue → Queue) :
    QueueService :=
  ⟨s.queues.modify queueId f⟩

/-! ## Presence -/

/-- The state presence gives an agent that is not on a call: offline when not
    registered, otherwise paused or available. -/
def presenceState (env : Env) (ext : String) (paused : Bool) : QueueAgentState :=
  if env.isRegistered ext then if paused then .paused else .available else .offline

/-- The next state of one agent when its presence is recomputed. -/
def nextPresence (env : Env) (agent : QueueAgent) : QueueAgentState :=
  if !env.isRegistered agent.extension then .offline
  else if agent.paused then .paused
  else if agent.state = .offline ∨ agent.state = .paused then .available
  else agent.state

/-- Move an agent to its recomputed state; becoming available restarts idle time. -/
def recomputeAgent (env : Env) (agent : QueueAgent) : QueueAgent :=
  let next := nextPresence env agent
  if next ≠ agent.state then
    { agent with
      state := next
      idleSince := if next = .available then env.now else agent.idleSince }
  else agent

/-- Reconcile the agents of a queue with presence; also tells whether any changed. -/
def recomputePresence (env : Env) (q : Queue) : Queue × Bool :=
  ({ q with agents := q.agents.mapVals fun _ a => recomputeAgent env a },
    q.agents.values.any fun a => nextPresence env a ≠ a.state)

/-- Recompute presence in every queue; returns the ids `updated` is emitted for. -/
def QueueService.syncPresence (s : QueueService) (env : Env) : QueueService × List String :=
  (⟨s.queues.mapVals fun _ q => (recomputePresence env q).1⟩,
    (s.queues.values.filter fun q => (recomputePresence env q).2).map Queue.id)

/-! ## Caller lifecycle -/

def Queue.enqueue (env : Env) (callId fromLeg fromName : String) (q : Queue) : Queue :=
  let caller : QueueCaller :=
    { id := callId, fromLeg, fromName := if fromName = "" then fromLeg else fromName,
      enqueuedAt := env.now, state := .waiting, agent := none }
  { q with callers := q.callers.set callId caller }

def Queue.markCallerRinging (callId agentExt : String) (q : Queue) : Queue :=
  match q.callers.get? callId with
  | none => q
  | some caller =>
    { q with
      callers := q.callers.set callId { caller with state := .ringing, agent := some agentExt }
      agents := q.agents.modify agentExt fun a =>
        if a.state = .available then { a with state := .ringing } else a }

/-- Back to the state presence gives, as `releaseRing` and `dequeue` free an agent. -/
def freeAgent (env : Env) (ext : String) (a : QueueAgent) : QueueAgent :=
  { a with state := presenceState env ext a.paused, idleSince := env.now }

def Queue.releaseRing (env : Env) (callId agentExt : String) (q : Queue) : Queue :=
  { q with
    callers := q.callers.modify callId fun c =>
      if c.agent = some agentExt then { c with state := .waiting, agent := none } else c
    agents := q.agents.modify agentExt fun a =>
      if a.state = .ringing then freeAgent env agentExt a else a }

def Queue.markCallerConnected (callId agentExt : String) (q : Queue) : Queue :=
  match q.callers.get? callId with
  | none => q
  | some caller =>
    { q with
      callers := q.callers.set callId { caller with state := .connected, agent := some agentExt }
      agents := q.agents.modify agentExt fun a =>
        { a with state := .busy, callsHandled := a.callsHandled + 1 } }

def Queue.dequeue (env : Env) (callId : String) (q : Queue) : Queue :=
  match q.callers.get? callId with
  | none => q
  | some caller =>
    { q with
      callers := q.callers.delete callId
      agents := match caller.agent with
        -- `if (caller.agent)`: an absent or empty extension frees nobody
        | none | some "" => q.agents
        | some ext => q.agents.modify ext fun a =>
          if a.state = .busy ∨ a.state = .ringing then freeAgent env a.extension a else a }

/-! ## Agent selection -/

/-- The agents that may be rung: available and not excluded, in roster order. -/
def Queue.candidates (q : Queue) (exclude : List String) : List QueueAgent :=
  q.agents.values.filter fun a => a.state = .available ∧ a.extension ∉ exclude

/-- The candidate idle the longest; the earliest in the roster among equals. -/
def longestIdle : List QueueAgent → Option QueueAgent
  | [] => none
  | a :: as => some (as.foldl (fun best a => if a.idleSince < best.idleSince then a else best) a)

/-- The first candidate after the cursor in roster order, and the cursor at it. -/
def Queue.nextRoundRobin (q : Queue) (exclude : List String) : Option (QueueAgent × Nat) :=
  let roster := q.agents.keys
  (List.range' 1 roster.length).findSome? fun i =>
    let cursor := (q.rrCursor + i) % roster.length
    match roster[cursor]? with
    | none => none
    | some ext =>
      match q.agents.get? ext with
      | none => none
      | some agent =>
        if agent.state = .available ∧ ext ∉ exclude then some (agent, cursor) else none

/-- Pick the next agent to ring by the queue's strategy; round-robin moves the cursor. -/
def Queue.nextAvailableAgent (q : Queue) (exclude : List String) : Queue × Option QueueAgent :=
  match q.candidates exclude with
  | [] => (q, none)
  | c :: cs =>
    match q.strategy with
    | .longestIdle => (q, longestIdle (c :: cs))
    | .roundRobin =>
      match q.nextRoundRobin exclude with
      | some (agent, cursor) => ({ q with rrCursor := cursor }, some agent)
      | none => (q, some c)
    | .sequential => (q, some c)

/-! ## Agent controls -/

/-- An agent with its paused flag set.  The state follows immediately unless the agent is
    mid-call; then only the flag changes. -/
def pauseAgent (env : Env) (ext : String) (paused : Bool) (a : QueueAgent) : QueueAgent :=
  if a.state = .available ∨ a.state = .paused ∨ a.state = .offline then
    let next := presenceState env ext paused
    { a with paused, state := next,
             idleSince := if next = .available then env.now else a.idleSince }
  else { a with paused }

/-- Set an agent's paused flag; also tells whether it changed. -/
def Queue.setAgentPaused (env : Env) (ext : String) (paused : Bool) (q : Queue) : Queue × Bool :=
  match q.agents.get? ext with
  | none => (q, false)
  | some agent =>
    if agent.paused = paused then (q, false)
    else ({ q with agents := q.agents.modify ext (pauseAgent env ext paused) }, true)

/-! ## The service as a machine -/

/-- The operations of the service that change its state. -/
inductive Op where
  | enqueue (queueId callId fromLeg fromName : String)
  | nextAvailableAgent (queueId : String) (exclude : List String)
  | markCallerRinging (queueId callId agentExt : String)
  | releaseRing (queueId callId agentExt : String)
  | markCallerConnected (queueId callId agentExt : String)
  | dequeue (queueId callId : String)
  | setAgentPaused (queueId ext : String) (paused : Bool)
  | recomputePresence (queueId : String)
  | syncPresence

/-- The service together with the queue and extension of the agent that the
    operation just before returned from `nextAvailableAgent`. -/
structure State where
  service : QueueService
  offered : Option (String × String)

/-- What `nextAvailableAgent` answers for a queue id. -/
def QueueService.nextAvailableAgent (s : QueueService) (queueId : String)
    (exclude : List String) : Option QueueAgent :=
  (s.queues.get? queueId).bind fun q => (q.nextAvailableAgent exclude).2

/-- The service after one operation. -/
def QueueService.apply (s : QueueService) (env : Env) : Op → QueueService
  | .enqueue q c f n => s.onQueue q (.enqueue env c f n)
  | .nextAvailableAgent q exclude => s.onQueue q fun q => (q.nextAvailableAgent exclude).1
  | .markCallerRinging q c a => s.onQueue q (.markCallerRinging c a)
  | .releaseRing q c a => s.onQueue q (.releaseRing env c a)
  | .markCallerConnected q c a => s.onQueue q (.markCallerConnected c a)
  | .dequeue q c => s.onQueue q (.dequeue env c)
  | .setAgentPaused q ext paused => s.onQueue q fun q => (q.setAgentPaused env ext paused).1
  | .recomputePresence q => s.onQueue q fun q => (CallNet.Acd.recomputePresence env q).1
  | .syncPresence => (s.syncPresence env).1

/-- One operation, remembering the agent it offers. -/
def State.step (m : State) (e : Env × Op) : Option State :=
  some
    { service := m.service.apply e.1 e.2
      offered := match e.2 with
        | .nextAvailableAgent q exclude =>
          (m.service.nextAvailableAgent q exclude).map fun a => (q, a.extension)
        | _ => none }

/-- The machine before the first operation. -/
def State.init (now : Nat) (defs : List QueueDefinition) : State :=
  ⟨.ofDefinitions now defs, none⟩

end CallNet.Acd
