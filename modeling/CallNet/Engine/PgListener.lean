/-!
# The LISTEN client of Postgres

`PgNotifyListener` of `services/postgres/pg-listener.ts`.  Each `connect` makes a client of its
own, told by its number; the awaits of `connect` come back and the clients' events arrive in any
order.  What `handlePayload` does and the log lines are left out.
-/

namespace CallNet

/-- How far `connect` is with a client. -/
inductive PgPhase where
  /-- `await client.connect()` -/
  | connecting
  /-- `await client.query(this.installSql())` -/
  | installing
  /-- the query `LISTEN` -/
  | subscribing
  /-- `await this.onConnected()` -/
  | hydrating
  | ready
  /-- `client.connect()` was rejected. -/
  | refused
  /-- A query was rejected before the client listened. -/
  | unsubscribed
  /-- `onConnected` failed. -/
  | unhydrated
deriving DecidableEq, Repr

structure PgClient where
  phase : PgPhase
  /-- The connection is lost, or `end` was called. -/
  ended : Bool
  /-- The event `end` was emitted. -/
  gone : Bool
deriving DecidableEq, Repr

namespace PgClient

def fresh : PgClient := { phase := .connecting, ended := false, gone := false }

/-- The client has a connection. -/
def live (c : PgClient) : Bool := !c.ended && (c.phase ≠ .connecting ∧ c.phase ≠ .refused)

/-- `LISTEN` has succeeded on the connection it has. -/
def listening (c : PgClient) : Bool :=
  !c.ended && (c.phase = .hydrating ∨ c.phase = .ready ∨ c.phase = .unhydrated)

end PgClient

structure PgNotifyListener where
  /-- The number of `this.client`. -/
  client : Option Nat
  stopped : Bool
  reconnectDelayMs : Nat
  /-- The delays of the reconnect timers that are pending. -/
  timers : List Nat
  clients : List PgClient
deriving DecidableEq, Repr

def maxReconnectDelayMs : Nat := 30000

inductive PgEvent where
  | start
  | stop
  /-- A client emits `error`. -/
  | error (client : Nat)
  /-- A client emits `end`. -/
  | ended (client : Nat)
  | connected (client : Nat) (ok : Bool)
  | installed (client : Nat) (ok : Bool)
  | subscribed (client : Nat) (ok : Bool)
  | hydrated (client : Nat) (ok : Bool)
  /-- The timer at this place fires. -/
  | fire (timer : Nat)
deriving DecidableEq, Repr

namespace PgNotifyListener

def init : PgNotifyListener where
  client := none
  stopped := false
  reconnectDelayMs := 1000
  timers := []
  clients := []

/-- `connect`, up to its first await. -/
def connect (s : PgNotifyListener) : PgNotifyListener :=
  if s.stopped then s
  else { s with client := some s.clients.length, clients := s.clients ++ [.fresh] }

def scheduleReconnect (s : PgNotifyListener) : PgNotifyListener :=
  if s.stopped ∨ s.client = none then s
  else
    { s with
      client := none
      timers := s.timers ++ [s.reconnectDelayMs]
      reconnectDelayMs := min (s.reconnectDelayMs * 2) maxReconnectDelayMs }

def setClient (s : PgNotifyListener) (client : Nat) (c : PgClient) : PgNotifyListener :=
  { s with clients := s.clients.set client c }

/-- `client.end()` -/
def endClient (s : PgNotifyListener) : Option Nat → PgNotifyListener
  | none => s
  | some client =>
    match s.clients[client]? with
    | some c => s.setClient client { c with ended := true }
    | none => s

/-- An await of `connect` comes back in `phase`: it goes on in `next`, or ends in `failed` and
    the `catch` schedules a reconnect. -/
def resume (s : PgNotifyListener) (client : Nat) (phase next failed : PgPhase) (ok : Bool) :
    Option PgNotifyListener :=
  match s.clients[client]? with
  | none => none
  | some c =>
    if c.phase ≠ phase then none
    else if ok then some (s.setClient client { c with phase := next })
    else some (s.setClient client { c with phase := failed }).scheduleReconnect

def step (s : PgNotifyListener) : PgEvent → Option PgNotifyListener
  | .start => some { s with stopped := false }.connect
  | .stop => some ({ s with stopped := true, client := none }.endClient s.client)
  | .error client =>
    match s.clients[client]? with
    | none => none
    | some c =>
      if c.gone then none
      else some (s.setClient client { c with ended := true }).scheduleReconnect
  | .ended client =>
    match s.clients[client]? with
    | none => none
    | some c =>
      if c.gone then none
      else some (s.setClient client { c with ended := true, gone := true }).scheduleReconnect
  | .connected client ok =>
    -- a client that could not connect has no connection to end
    s.resume client .connecting .installing .refused ok
  | .installed client ok => s.resume client .installing .subscribing .unsubscribed ok
  | .subscribed client ok =>
    -- a clean connect resets the delay, of which nothing is read before
    (s.resume client .subscribing .hydrating .unsubscribed ok).map fun s' =>
      if ok then { s' with reconnectDelayMs := 1000 } else s'
  | .hydrated client ok => s.resume client .hydrating .ready .unhydrated ok
  | .fire timer =>
    if timer < s.timers.length then some { s with timers := s.timers.eraseIdx timer }.connect
    else none

end PgNotifyListener

end CallNet
