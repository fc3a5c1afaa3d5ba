import CallNet.ForStd.Machine
import CallNet.ForStd.OrdMap

/-!
# Presence of the signaling sockets

The map `clients` of `websocket/signaling.server.ts`: sockets connect with the claims of an
access token, and their `close` and `error` events come in any order.  A socket leaves the ready
state `OPEN` before its `close` event is emitted.  What the messages say is left out, but for the
presence list.
-/

namespace CallNet

/-- The claims of a token whose signature, issuer and expiry are good. -/
structure JwtClaims where
  type : String
  extension : String
deriving DecidableEq, Repr

/-- `verifyAccessToken`, of what `jwt.verify` gave. -/
def verifyAccessToken (decoded : Option JwtClaims) : Option JwtClaims :=
  decoded.filter fun claims => claims.type = "access" ∧ claims.extension ≠ ""

inductive SocketState where
  | open
  /-- The ready state is not `OPEN` any more, and no event was emitted. -/
  | closing
  /-- The event `error` was emitted. -/
  | failed
  /-- The event `close` was emitted. -/
  | closed
deriving DecidableEq, Repr

/-- A `WsClient` that is authenticated, with the state of its socket. -/
structure WsClient where
  extension : String
  state : SocketState
deriving DecidableEq, Repr

/-- No event said that the socket is gone. -/
def WsClient.connected (c : WsClient) : Bool := c.state = .open ∨ c.state = .closing

structure SignalingServer where
  /-- The extension and the number of its client. -/
  clients : OrdMap String Nat
  sockets : List WsClient

inductive SignalingEvent where
  /-- A socket with what its token cookie decodes to. -/
  | connection (decoded : Option JwtClaims)
  /-- The socket of a client begins to close. -/
  | closing (client : Nat)
  | close (client : Nat)
  | error (client : Nat)
deriving DecidableEq, Repr

namespace SignalingServer

def init : SignalingServer := { clients := .empty, sockets := [] }

def authenticateClient (s : SignalingServer) (claims : JwtClaims) : SignalingServer :=
  { clients := s.clients.set claims.extension s.sockets.length
    sockets := s.sockets ++ [{ extension := claims.extension, state := .open }] }

/-- The handler of `close` and of `error`. -/
def forget (s : SignalingServer) (client : Nat) (c : WsClient) (state : SocketState) :
    SignalingServer :=
  { clients := if c.extension ≠ "" then s.clients.delete c.extension else s.clients
    sockets := s.sockets.set client { c with state := state } }

def step (s : SignalingServer) : SignalingEvent → Option SignalingServer
  | .connection decoded =>
    match verifyAccessToken decoded with
    | none => some s
    | some claims => some (s.authenticateClient claims)
  | .closing client =>
    match s.sockets[client]? with
    | none => none
    | some c =>
      if c.state = .open then
        some { s with sockets := s.sockets.set client { c with state := .closing } }
      else none
  | .close client =>
    match s.sockets[client]? with
    | none => none
    | some c => if c.state = .closed then none else some (s.forget client c .closed)
  | .error client =>
    match s.sockets[client]? with
    | none => none
    | some c => if c.state = .closed then none else some (s.forget client c .failed)

/-- The socket that a message for an extension is sent to: `clients.get` and the ready state. -/
def receiver (s : SignalingServer) (extension : String) : Option Nat :=
  (s.clients.get? extension).filter fun client =>
    s.sockets[client]?.any fun c => c.state = .open

/-- The presence list a client is sent: every other user, and whether it is online. -/
def onlineUsers (s : SignalingServer) (users : List String) (extension : String) :
    List (String × Bool) :=
  (users.filter (· ≠ extension)).map fun u => (u, s.clients.has u)

end SignalingServer

end CallNet
