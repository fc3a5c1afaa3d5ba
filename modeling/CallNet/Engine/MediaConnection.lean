/-!
# The connection to the media server

`initialize`, `attachConnectionListeners`, `scheduleReconnect` and `ensureConnected` of
`sip/ivr.system.ts`.  Every call of `initialize` is a run of its own, with up to three attempts
to connect; a connection is told by its number.  What an attempt awaits, the two timers and the
events of old connections come back in any order.  The log lines are left out.
-/

namespace CallNet

/-- Where a call of `initialize` stands. -/
inductive InitStage where
  /-- `await this.mrf.connect(..)` -/
  | connecting
  /-- the two seconds before the next attempt -/
  | sleeping
  | returned (ok : Bool)
deriving DecidableEq, Repr

/-- A call of `initialize`. -/
structure InitRun where
  /-- It was made by `attempt` of `scheduleReconnect`. -/
  reconnect : Bool
  attempt : Nat
  stage : InitStage
deriving DecidableEq, Repr

def InitRun.connecting (r : InitRun) : Bool := r.stage = .connecting

/-- A timer of `scheduleReconnect`. -/
inductive ReconnectTimer where
  /-- `setTimeout(attempt, 2000)` -/
  | first
  /-- `setTimeout(() => { this.reconnecting = true; attempt(); }, 5000)` -/
  | retry
deriving DecidableEq, Repr

structure MediaConnection where
  /-- The number of `this.ms`. -/
  ms : Option Nat
  reconnecting : Bool
  /-- Which of the connections there were is live. -/
  conns : List Bool
  runs : List InitRun
  timers : List ReconnectTimer
  /-- A connection was lost and none has become live since; no variable of the system. -/
  lost : Bool
deriving DecidableEq, Repr

inductive MediaEvent where
  /-- A call needs the media server. -/
  | ensureConnected
  /-- The attempt of a run succeeds. -/
  | connected (run : Nat)
  /-- It fails. -/
  | refused (run : Nat)
  /-- A run has slept. -/
  | wake (run : Nat)
  /-- A reconnect timer fires. -/
  | fire (timer : Nat)
  /-- A connection emits `end`. -/
  | ended (conn : Nat)
  /-- A connection emits `error`. -/
  | error (conn : Nat)
deriving DecidableEq, Repr

namespace MediaConnection

def maxRetries : Nat := 3

/-- `initialize`, up to its first await. -/
def callInitialize (s : MediaConnection) (reconnect : Bool) : MediaConnection :=
  { s with runs := s.runs ++ [⟨reconnect, 1, .connecting⟩] }

/-- The system starts with a call of `initialize`. -/
def init : MediaConnection where
  ms := none
  reconnecting := false
  conns := []
  runs := [⟨false, 1, .connecting⟩]
  timers := []
  lost := false

def scheduleReconnect (s : MediaConnection) : MediaConnection :=
  if s.reconnecting then s
  else { s with reconnecting := true, timers := s.timers ++ [.first] }

def setRun (s : MediaConnection) (run : Nat) (r : InitRun) : MediaConnection :=
  { s with runs := s.runs.set run r }

/-- `ensureConnected` -/
def ensureConnected (s : MediaConnection) : MediaConnection :=
  if s.ms.isSome then s else s.callInitialize false

/-- The rest of `attempt` after its `initialize` has returned. -/
def finish (s : MediaConnection) (r : InitRun) (ok : Bool) : MediaConnection :=
  if r.reconnect then
    { s with
      reconnecting := false
      timers := if ok then s.timers else s.timers ++ [.retry] }
  else s

/-- The new connection becomes the one of the system, whatever that has. -/
def connected (s : MediaConnection) (run : Nat) (r : InitRun) : MediaConnection :=
  finish
    { s.setRun run { r with stage := .returned true } with
      ms := some s.conns.length
      conns := s.conns ++ [true]
      lost := false } r true

def refused (s : MediaConnection) (run : Nat) (r : InitRun) : MediaConnection :=
  if r.attempt < maxRetries then s.setRun run { r with stage := .sleeping }
  else finish (s.setRun run { r with stage := .returned false }) r false

/-- `onDown`, and the connection is gone. -/
def down (s : MediaConnection) (conn : Nat) : MediaConnection :=
  let s := { s with conns := s.conns.set conn false }
  -- a stale listener of a replaced connection
  if s.ms ≠ some conn then s
  else { s with ms := none, lost := true }.scheduleReconnect

def step (s : MediaConnection) : MediaEvent → Option MediaConnection
  | .ensureConnected => some s.ensureConnected
  | .connected run =>
    match s.runs[run]? with
    | some r => if r.stage = .connecting then some (s.connected run r) else none
    | none => none
  | .refused run =>
    match s.runs[run]? with
    | some r => if r.stage = .connecting then some (s.refused run r) else none
    | none => none
  | .wake run =>
    match s.runs[run]? with
    | some r =>
      if r.stage = .sleeping then
        some (s.setRun run { r with attempt := r.attempt + 1, stage := .connecting })
      else none
    | none => none
  | .fire timer =>
    match s.timers[timer]? with
    | some t =>
      let s := { s with timers := s.timers.eraseIdx timer }
      match t with
      | .first => some (s.callInitialize true)
      | .retry => some ({ s with reconnecting := true }.callInitialize true)
    | none => none
  | .ended conn | .error conn => if conn < s.conns.length then some (s.down conn) else none

end MediaConnection

end CallNet
