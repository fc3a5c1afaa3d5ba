import CallNet.ForStd.OrdMap
import CallNet.Streaming.MediaProtocol

/-!
# The media-stream server

`onConnection` of `trunk/streaming/media-stream.server.ts` with the handlers that
`createRoutingHandlers` of `runtime.ts` makes in the mode `auto`.  What a message asks for is
decoded first and then done.  Whether a hook of a route throws is up to the environment.  An
exception that leaves the handler of a socket event ends the process.
-/

namespace CallNet.Streaming

/-- What a message asks for. -/
inductive StreamRequest where
  | start (details : StreamStartMeta)
  | audio
  | dtmf (digit : String)
  | mark (name : String)
  | stop

/-- A message, with what the handlers look at: whether it is binary, whether its text begins with
    a brace, and what `JSON.parse` gives of it. -/
structure MediaMessage where
  isBinary : Bool
  brace : Bool
  /-- `none` if `JSON.parse` throws -/
  json : Option JsValue

/-- A call of a hook of the server's handlers, for a session. -/
inductive HookCall where
  | onStart (session : Nat)
  | onAudio (session : Nat)
  | onDtmf (session : Nat) (digit : String)
  | onMark (session : Nat) (name : String)
  | onStop (session : Nat)
deriving DecidableEq, Repr

/-- The handler sets that `routes[..]` may give: those of the runtime, and what every object
    inherits, which has no hooks. -/
inductive Route where
  | bridge
  | ai
  | log
  | inherited
deriving DecidableEq, Repr

/-- The members of `Object.prototype`. -/
def inheritedMembers : List String :=
  ["__defineGetter__", "__defineSetter__", "__lookupGetter__", "__lookupSetter__", "__proto__",
    "constructor", "hasOwnProperty", "isPrototypeOf", "propertyIsEnumerable", "toLocaleString",
    "toString", "valueOf"]

/-- `pick`, `none` if the mode cannot be made a key; the fallback is `bridge`. -/
def pick (mode : Option JsValue) : Option Route :=
  match mode with
  | none | some .null => some .bridge
  | some v => v.toText.map fun key =>
    if key = "ai" then .ai
    else if key = "log" then .log
    else if key ∈ inheritedMembers then .inherited
    else .bridge

/-- A connection, with what its handlers close over. -/
structure StreamConnection where
  provider : MediaProvider
  url : String
  urlParams : List (String × String)
  session : Option Nat
  stopped : Bool
  closed : Bool
  /-- The sessions of this connection that were passed to `onStart`. -/
  started : List Nat

/-- Where an exception came from that nobody caught. -/
inductive StreamFault where
  | message
  | close
deriving DecidableEq, Repr

structure MediaStreams where
  connections : List StreamConnection
  /-- `owner` of the routing handlers. -/
  owner : OrdMap Nat Route
  /-- The hooks that were called. -/
  calls : List HookCall
  nextSession : Nat
  /-- Set when the process has ended. -/
  fault : Option StreamFault

inductive StreamEvent where
  | connect (provider url : String) (urlParams : List (String × String))
  /-- A message; `throws` tells which hook of the session's route throws. -/
  | message (connection : Nat) (m : MediaMessage) (throws : HookCall → Bool)
  | close (connection : Nat) (throws : HookCall → Bool)

/-- What a message that is not from FreeSWITCH asks for, `none` if decoding it throws. -/
def jsonRequests (bufferFrom : JsValue → Bool) (c : StreamConnection) (msg : JsValue) :
    Option (List StreamRequest) :=
  let event := match msg.get "event" with
    | some (.str event) => event
    | _ => ""
  if event = "start" then
    let details := match c.provider with
      | .plivo => decodePlivoStart msg c.urlParams
      | _ => decodeTwilioStart msg
    details.map fun details => [.start details]
  else if event = "media" then
    if c.session = none then some []
    else if decodesMedia bufferFrom msg then some [.audio] else none
  else if event = "dtmf" then
    match c.session, (msg.get "dtmf").bind (·.get "digit") with
    | some _, some digit =>
      if digit.truthy then digit.toText.map fun text => [.dtmf text] else some []
    | _, _ => some []
  else if event = "mark" then
    match c.session, (msg.get "mark").bind (·.get "name") with
    | some _, some name =>
      if name.truthy then name.toText.map fun text => [.mark text] else some []
    | _, _ => some []
  else if event = "stop" then some [.stop]
  else some []

/-- The first message of FreeSWITCH starts the session, whatever it is. -/
def fsRequests (c : StreamConnection) (m : MediaMessage) : List StreamRequest :=
  (if c.session = none then [.start (decodeFsStart c.url c.urlParams)] else []) ++
    (if m.isBinary || !m.brace then [.audio] else [])

def requests (bufferFrom : JsValue → Bool) (c : StreamConnection) (m : MediaMessage) :
    Option (List StreamRequest) :=
  if c.provider = .freeswitch then some (fsRequests c m)
  else match m.json with
    | none => some []
    -- `msg.event` of `null`
    | some .null => none
    | some msg => jsonRequests bufferFrom c msg

namespace MediaStreams

def init : MediaStreams :=
  { connections := [], owner := .empty, calls := [], nextSession := 0, fault := none }

def setConnection (s : MediaStreams) (i : Nat) (c : StreamConnection) : MediaStreams :=
  { s with connections := s.connections.set i c }

/-! ## The routing handlers

Each hook of them, and whether it throws. -/

def onStart (s : MediaStreams) (session : Nat) (details : StreamStartMeta)
    (throws : HookCall → Bool) : MediaStreams × Bool :=
  let s : MediaStreams := { s with calls := s.calls ++ [.onStart session] }
  match pick (details.parameters.get "mode") with
  | none => (s, true)
  | some h => ({ s with owner := s.owner.set session h }, throws (.onStart session))

/-- `onAudio`, `onDtmf` and `onMark`. -/
def forward (s : MediaStreams) (session : Nat) (call : HookCall) (throws : HookCall → Bool) :
    MediaStreams × Bool :=
  ({ s with calls := s.calls ++ [call] }, s.owner.has session && throws call)

def onStop (s : MediaStreams) (session : Nat) (throws : HookCall → Bool) : MediaStreams × Bool :=
  ({ s with calls := s.calls ++ [.onStop session], owner := s.owner.delete session },
    s.owner.has session && throws (.onStop session))

/-! ## The handlers of a connection -/

def fireStop (s : MediaStreams) (i : Nat) (c : StreamConnection) (throws : HookCall → Bool) :
    MediaStreams × Bool :=
  match c.session with
  | some session =>
    if c.stopped then (s, false)
    else (s.setConnection i { c with stopped := true }).onStop session throws
  | none => (s, false)

/-- `createSession` and `onStart`. -/
def startSession (s : MediaStreams) (i : Nat) (c : StreamConnection) (details : StreamStartMeta)
    (throws : HookCall → Bool) : MediaStreams × Bool :=
  let session := s.nextSession
  let c := { c with session := some session, started := c.started ++ [session] }
  let s : MediaStreams := { s.setConnection i c with nextSession := session + 1 }
  s.onStart session details throws

/-- Do one request on a connection, which has a session if the request is for one. -/
def perform (s : MediaStreams) (i : Nat) (throws : HookCall → Bool) (r : StreamRequest) :
    MediaStreams × Bool :=
  match s.connections[i]? with
  | none => (s, false)
  | some c =>
    match r, c.session with
    | .start details, _ => s.startSession i c details throws
    | .stop, _ => s.fireStop i c throws
    | .audio, some session => s.forward session (.onAudio session) throws
    | .dtmf digit, some session => s.forward session (.onDtmf session digit) throws
    | .mark name, some session => s.forward session (.onMark session name) throws
    | _, none => (s, false)

/-- Do requests one after the other, up to one that throws. -/
def performAll (s : MediaStreams) (i : Nat) (throws : HookCall → Bool) :
    List StreamRequest → MediaStreams × Bool
  | [] => (s, false)
  | r :: rs =>
    match s.perform i throws r with
    | (s, true) => (s, true)
    | (s, false) => s.performAll i throws rs

def onMessage (bufferFrom : JsValue → Bool) (s : MediaStreams) (i : Nat) (c : StreamConnection)
    (m : MediaMessage) (throws : HookCall → Bool) : MediaStreams × Bool :=
  match requests bufferFrom c m with
  | none => (s, true)
  | some rs => s.performAll i throws rs

/-- `onClose`: the socket has closed. -/
def onClose (s : MediaStreams) (i : Nat) (c : StreamConnection) (throws : HookCall → Bool) :
    MediaStreams × Bool :=
  (s.setConnection i { c with closed := true }).fireStop i { c with closed := true } throws

/-- What an event leaves, with an exception that was not caught. -/
def caught (r : MediaStreams × Bool) (fault : StreamFault) : MediaStreams :=
  if r.2 then { r.1 with fault := some fault } else r.1

def step (bufferFrom : JsValue → Bool) (s : MediaStreams) (e : StreamEvent) :
    Option MediaStreams :=
  if s.fault.isSome then none else
  match e with
  | .connect provider url urlParams =>
    some { s with connections := s.connections ++ [
      { provider := selectProtocol provider, url := url, urlParams := urlParams, session := none,
        stopped := false, closed := false, started := [] }] }
  | .message i m throws => s.connections[i]?.bind fun c =>
    if c.closed then none else some (caught (s.onMessage bufferFrom i c m throws) .message)
  | .close i throws => s.connections[i]?.bind fun c =>
    if c.closed then none else some (caught (s.onClose i c throws) .close)

end MediaStreams

end CallNet.Streaming
