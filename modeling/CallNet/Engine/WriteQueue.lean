import CallNet.ForStd.Machine
import CallNet.Engine.CallLog

/-!
# Write-behind queue

The queue of `services/queue/write-queue.ts`: jobs are pushed at the head of a Redis
list, one worker pops them from its end and applies each through the handler of its
type, and a failed job is pushed back until it has failed `MAX_ATTEMPTS` times.

The machine takes one step for each thing the program waits for: a push, a pop, a
handler, the push of a requeue.  Redis may refuse a command, or perform it and lose the
answer; the process may crash and be started again between any two steps.

`accepted`, `results` and a job's `ticket` are ghost data: they record which pushes
reached the list and what the handlers did, and no operation reads them.
-/

namespace CallNet.WriteQueue

/-- Give up on a job after this many failed attempts. -/
def MAX_ATTEMPTS : Nat := 5

structure QueuedJob (π : Type) where
  type : String
  payload : π
  attempts : Nat
  /-- Ghost: the position in `accepted` of the push this job comes from. -/
  ticket : Nat
deriving DecidableEq

/-- What the worker loop is waiting for. -/
inductive Worker (π : Type) where
  | stopped
  /-- `brPop` -/
  | polling
  /-- `await handler(job.payload)` -/
  | handling (job : QueuedJob π)
  /-- `await this.enqueue(..)` of a failed job, its attempts already counted -/
  | requeueing (job : QueuedJob π)
deriving DecidableEq

/-- `π`: payloads.  `ω`: what the handlers write to. -/
structure State (π ω : Type) where
  /-- The Redis list, head first. -/
  list : List (QueuedJob π)
  worker : Worker π
  running : Bool
  world : ω
  /-- Ghost: every push that reached the list, with its type and payload. -/
  accepted : List (String × π)
  /-- Ghost: the ticket and the outcome of every handler run. -/
  results : List (Nat × Bool)

/-- The registered handlers: what a successful run at a given time does, `none` where
    the handler cannot succeed. -/
abbrev Handlers (π ω : Type) := String → Option (String → π → ω → Option ω)

/-- How a Redis command turns out. -/
inductive Reply where
  | done
  | fails
  /-- Redis performs the command but its answer does not arrive. -/
  | unacknowledged
deriving DecidableEq, Repr

/-- How a handler turns out. -/
inductive HandlerOutcome where
  | returns
  | throws
  /-- The handler's write takes effect but it throws all the same. -/
  | throwsApplied
deriving DecidableEq, Repr

inductive Event (π : Type) where
  | enqueue (type : String) (payload : π) (push : Reply)
  | start
  | stop
  | pop (reply : Reply)
  | handler (now : String) (outcome : HandlerOutcome)
  | requeue (push : Reply)
  | crash

variable {π ω : Type}

/-- Where the loop goes after a job or an empty pop: `while (this.running && ..)`. -/
def State.next (s : State π ω) : Worker π := if s.running then .polling else .stopped

/-- `LPUSH` of a job by `enqueue`, when it reaches the list. -/
def State.push (s : State π ω) (type : String) (payload : π) : State π ω :=
  { s with
    list := { type, payload, attempts := 0, ticket := s.accepted.length } :: s.list
    accepted := s.accepted ++ [(type, payload)] }

/-- `dispatch` up to the handler: a job without a handler is dropped. -/
def State.dispatch (on : Handlers π ω) (s : State π ω) (job : QueuedJob π) : State π ω :=
  match on job.type with
  | none => { s with worker := s.next }
  | some _ => { s with worker := .handling job }

/-- `dispatch` after the handler threw: requeue the job, or drop it. -/
def State.failed (s : State π ω) (job : QueuedJob π) : State π ω :=
  let attempts := job.attempts + 1
  let results := s.results ++ [(job.ticket, false)]
  if attempts < MAX_ATTEMPTS then
    { s with worker := .requeueing { job with attempts }, results }
  else { s with worker := s.next, results }

/-- One step; an event that cannot happen now gives `none`. -/
def State.step (on : Handlers π ω) (s : State π ω) : Event π → Option (State π ω)
  | .enqueue type payload reply =>
    match reply with
    | .fails => some s
    | _ => some (s.push type payload)
  | .start =>
    match s.worker with
    | .stopped => some { s with worker := .polling, running := true }
    | _ => none
  | .stop => some { s with running := false }
  | .pop reply =>
    match s.worker with
    | .polling =>
      match reply with
      | .fails => some { s with worker := s.next }
      | .done =>
        match s.list.getLast? with
        | none => some { s with worker := s.next }
        | some job => some ({ s with list := s.list.dropLast }.dispatch on job)
      | .unacknowledged => some { s with list := s.list.dropLast, worker := s.next }
    | _ => none
  | .handler now outcome =>
    match s.worker with
    | .handling job =>
      let written := (on job.type).bind fun f => f now job.payload s.world
      match outcome with
      | .returns => written.map fun world =>
          { s with world, worker := s.next, results := s.results ++ [(job.ticket, true)] }
      | .throws => some (s.failed job)
      | .throwsApplied => written.map fun world => { s with world }.failed job
    | _ => none
  | .requeue reply =>
    match s.worker with
    | .requeueing job =>
      match reply with
      | .fails => some { s with worker := s.next }
      | _ => some { s with list := job :: s.list, worker := s.next }
    | _ => none
  | .crash => some { s with worker := .stopped, running := false }

/-- An empty list and no worker. -/
def State.init (world : ω) : State π ω :=
  { list := [], worker := .stopped, running := false, world, accepted := [], results := [] }

/-! ## The jobs of the server -/

/-- Job types, as persisted in Redis. -/
def CALL_UPSERT : String := "call.upsert"
def BALANCE_DEBIT : String := "balance.debit"
def WEBHOOK_DELIVER : String := "webhook.deliver"

/-- The table `call_records`. -/
abbrev CallRecords := String → Option CallRecord

/-- `upsertCall`: insert the call's row, or overwrite the columns that may change. -/
def upsertCall (parseDate : String → Option Int) (now : String) (call : CallLog)
    (records : CallRecords) : Option CallRecords :=
  (call.record parseDate now).map fun row id =>
    if id = call.id then
      match records id with
      | none => some row
      | some old => some (old.update row)
    else records id

/-- What the queue carries: a call record, or the payload of another job type, which
    does not touch `call_records`. -/
inductive Payload where
  | call (call : CallLog)
  | other (json : String)

/-- The handlers registered at start-up, in their effect on `call_records`. -/
def handlers (parseDate : String → Option Int) : Handlers Payload CallRecords := fun type =>
  if type = CALL_UPSERT then
    some fun now payload records =>
      match payload with
      | .call call => upsertCall parseDate now call records
      | .other _ => none
  else if type = BALANCE_DEBIT ∨ type = WEBHOOK_DELIVER then
    some fun _ _ records => some records
  else none

end CallNet.WriteQueue
