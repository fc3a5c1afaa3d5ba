import CallNet.ForStd.Machine

/-!
# The audit log

`services/audit.service.ts` and the inserts of `postgres/audit.repo.ts`.  A flush is one query
or several, with other calls in between; a query that fails may still have been applied.
-/

namespace CallNet.AuditService

/-- An event of the audit log.  Its `userId` is the extension. -/
structure AuditEntry where
  id : String
  timestamp : String
  extension : String
  event : String
  metadata : List (String × String)
  ip : Option String
deriving DecidableEq, Repr

def maxEntries : Nat := 5000

/-! ## State -/

/-- Where a flush waits. -/
inductive FlushPhase where
  /-- for the queries that create the table -/
  | ensuring
  /-- for the insert -/
  | inserting
deriving DecidableEq, Repr

/-- A flush in flight, with the `stop` call that awaits it. -/
structure Flight where
  batch : List AuditEntry
  phase : FlushPhase
  stop : Option Nat
deriving DecidableEq, Repr

inductive StopPhase where
  | flushing
  | done
  | returned
deriving DecidableEq, Repr

/-- A call of `stop`, with the number of entries logged before it and whether every query has
    succeeded from the call to its return. -/
structure StopCall where
  before : Nat
  healthy : Bool
  phase : StopPhase
deriving DecidableEq, Repr

structure State where
  enabled : Bool
  /-- The ring buffer of recent entries, newest first. -/
  logs : List AuditEntry
  /-- What is to be flushed, oldest first. -/
  pending : List AuditEntry
  timer : Bool
  /-- The batch of the flush that has set `flushing`. -/
  flight : Option Flight
  schemaReady : Bool
  /-- The rows of `audit_logs`, each as the entry it was made of. -/
  table : List AuditEntry
  /-- What was passed to `log` while persistence was on. -/
  logged : List AuditEntry
  /-- The batches whose insert has returned. -/
  persisted : List AuditEntry
  stops : List StopCall
deriving DecidableEq, Repr

inductive Event where
  | log (entry : AuditEntry)
  | start
  | tick
  | flush
  | stop
  | schemaEnsured
  | schemaFails
  | inserted
  /-- The insert fails; `applied` is whether its rows are in the table all the same. -/
  | insertFails (applied : Bool)
  | stopReturns (i : Nat)
deriving DecidableEq, Repr

/-! ## Operations -/

namespace State

def init (enabled : Bool) (table : List AuditEntry) : State :=
  { enabled, logs := [], pending := [], timer := false, flight := none, schemaReady := false,
    table, logged := [], persisted := [], stops := [] }

def log (s : State) (entry : AuditEntry) : State :=
  if !s.enabled then s
  else
    { s with
      logs := (entry :: s.logs).take maxEntries
      pending := s.pending ++ [entry]
      logged := s.logged ++ [entry] }

/-- `flush` returns at once, without a query. -/
def Idles (s : State) : Prop := s.enabled = false ∨ s.flight.isSome ∨ s.pending = []

instance (s : State) : Decidable s.Idles := inferInstanceAs (Decidable (_ ∨ _ ∨ _))

/-- `flush` up to its first query. -/
def flush (s : State) (stop : Option Nat) : State :=
  if s.Idles then s
  else
    { s with
      flight := some ⟨s.pending, if s.schemaReady then .inserting else .ensuring, stop⟩
      pending := [] }

/-- `stop` up to its flush. -/
def stop (s : State) : State :=
  { s.flush (some s.stops.length) with
    timer := false
    stops := s.stops ++ [⟨s.logged.length, true, if s.Idles then .done else .flushing⟩] }

end State

/-- A flush ends, with its queries `ok`; `own` is whether the call awaits it. -/
def StopCall.settle (own ok : Bool) (call : StopCall) : StopCall :=
  { call with
    healthy := if call.phase = .returned then call.healthy else call.healthy && ok
    phase := if own then .done else call.phase }

namespace State

/-- The end of a flush. -/
def finish (s : State) (f : Flight) (ok : Bool) : State :=
  { s with
    flight := none
    stops := s.stops.mapIdx fun i call => call.settle (f.stop = some i) ok }

/-- A flush that failed puts its batch back. -/
def fail (s : State) (f : Flight) : State :=
  { s.finish f false with pending := (f.batch ++ s.pending).take maxEntries }

/-- The insert of a batch returns. -/
def insert (s : State) (f : Flight) : State :=
  { s.finish f true with
    table := s.table ++ f.batch
    persisted := s.persisted ++ f.batch }

end State

/-- The flush in flight, if it waits in the given phase. -/
def State.flightIn (s : State) (phase : FlushPhase) : Option Flight :=
  s.flight.filter fun f => f.phase = phase

def step (s : State) : Event → Option State
  | .log entry => some (s.log entry)
  | .start => some { s with timer := s.timer || s.enabled }
  | .tick => if s.timer then some (s.flush none) else none
  | .flush => some (s.flush none)
  | .stop => some s.stop
  | .schemaEnsured => (s.flightIn .ensuring).map fun f =>
    { s with schemaReady := true, flight := some { f with phase := .inserting } }
  | .schemaFails => (s.flightIn .ensuring).map fun f => s.fail f
  | .inserted => (s.flightIn .inserting).map fun f => s.insert f
  | .insertFails applied => (s.flightIn .inserting).map fun f =>
    { s.fail f with table := if applied then s.table ++ f.batch else s.table }
  | .stopReturns i => s.stops[i]?.bind fun call =>
    if call.phase = .done then
      some { s with stops := s.stops.set i { call with phase := .returned } }
    else none

end CallNet.AuditService
