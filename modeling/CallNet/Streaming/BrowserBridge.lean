import CallNet.Engine.SignalingServer

/-!
# The browser bridge

`BrowserBridge` of `trunk/streaming/browser-bridge.ts`: media sessions start and stop and browser
sockets connect and go under bridge keys.  The handlers of a socket keep the pair object they
were made with, so the objects are kept apart from the map `pairs` that finds one by key.  What
the audio says is left out.
-/

namespace CallNet.Streaming

/-- A `Pair`; a session or a browser is told by its number. -/
structure Pair where
  session : Option Nat
  browser : Option Nat
  callerFrom : Option String
  callId : Option String
deriving DecidableEq, Repr

def Pair.fresh : Pair := { session := none, browser := none, callerFrom := none, callId := none }

/-- The part of a `StreamStartMeta` that the bridge reads. -/
structure BridgeStart where
  streamId : String
  callId : Option String
  /-- `parameters.bridgeId` -/
  bridgeId : Option String
  /-- `parameters.from` -/
  callerFrom : Option String
deriving DecidableEq, Repr

/-- `a || b` for texts that may be missing. -/
def orElse (a : Option String) (b : String) : String := if a.getD "" = "" then b else a.getD ""

/-- The pairing key of a stream. -/
def keyOf (m : BridgeStart) : String := orElse m.bridgeId (orElse m.callId m.streamId)

/-- A started session, with the `bridgeKey` it was given. -/
structure BridgeSession where
  bridgeKey : String
  callId : Option String
  /-- `onStop` was not called for it. -/
  live : Bool
deriving DecidableEq, Repr

/-- A browser socket, with what its handlers hold. -/
structure BridgeBrowser where
  key : String
  pair : Nat
  state : SocketState
deriving DecidableEq, Repr

inductive BridgeMessage where
  | linked (callerFrom callId : Option String)
  | stop
  /-- Audio of a session, and the session of its pair at that moment. -/
  | audio (session : Nat) (current : Option Nat)
deriving DecidableEq, Repr

inductive SessionCommand where
  | sendAudio
  | close
deriving DecidableEq, Repr

structure BrowserBridge where
  pairs : OrdMap String Nat
  /-- The pair objects, each with the key it was made for. -/
  objects : List (String × Pair)
  sessions : List BridgeSession
  browsers : List BridgeBrowser
  /-- What was sent to browsers. -/
  sent : List (Nat × BridgeMessage)
  /-- What sessions were told to do. -/
  told : List (Nat × SessionCommand)

inductive BridgeEvent where
  | onStart (m : BridgeStart)
  | onAudio (session : Nat)
  | onStop (session : Nat)
  /-- A browser connects with `?id=` and the key. -/
  | browser (key : String)
  /-- A binary message of a browser. -/
  | mic (browser : Nat)
  /-- The message `hangup` of a browser. -/
  | hangup (browser : Nat)
  /-- The ready state of a browser socket leaves `OPEN`. -/
  | closing (browser : Nat)
  | close (browser : Nat)
  | error (browser : Nat)
deriving DecidableEq, Repr

namespace BrowserBridge

def init : BrowserBridge :=
  { pairs := .empty, objects := [], sessions := [], browsers := [], sent := [], told := [] }

/-- The pair object that the map has for a key. -/
def current (s : BrowserBridge) (key : String) : Option Pair :=
  (s.pairs.get? key).bind fun id => s.objects[id]?.map Prod.snd

/-- `this.pair(key)` -/
def pair (s : BrowserBridge) (key : String) : BrowserBridge × Nat :=
  match s.pairs.get? key with
  | some id => (s, id)
  | none =>
    ({ s with pairs := s.pairs.set key s.objects.length, objects := s.objects ++ [(key, .fresh)] },
      s.objects.length)

/-- Assign fields of a pair object. -/
def modifyPair (s : BrowserBridge) (id : Nat) (f : Pair → Pair) : BrowserBridge :=
  { s with objects := s.objects.modify id fun e => (e.1, f e.2) }

def cleanup (s : BrowserBridge) (key : String) : BrowserBridge :=
  match s.current key with
  | some p => if p.session = none ∧ p.browser = none then { s with pairs := s.pairs.delete key } else s
  | none => s

def isOpen (s : BrowserBridge) (browser : Nat) : Bool :=
  s.browsers[browser]?.any fun b => b.state = .open

/-- Send a message to a browser, if there is one and its socket is open. -/
def send (s : BrowserBridge) (browser : Option Nat) (m : BridgeMessage) : BrowserBridge :=
  match browser with
  | some w => if s.isOpen w then { s with sent := s.sent ++ [(w, m)] } else s
  | none => s

def onBrowser (s : BrowserBridge) (key : String) : BrowserBridge :=
  if key = "" then s else
  let (s, id) := s.pair key
  let ws := s.browsers.length
  let s : BrowserBridge :=
    { s with browsers := s.browsers ++ [{ key := key, pair := id, state := .open }] }
  let s := s.modifyPair id fun p => { p with browser := some ws }
  match s.current key with
  | some p => if p.session.isSome then s.send (some ws) (.linked p.callerFrom p.callId) else s
  | none => s

def onStart (s : BrowserBridge) (m : BridgeStart) : BrowserBridge :=
  let key := keyOf m
  let (s, id) := s.pair key
  let session := s.sessions.length
  let callerFrom := m.callerFrom.filter (· ≠ "")
  let s : BrowserBridge := { s with
    sessions := s.sessions ++ [{ bridgeKey := key, callId := m.callId, live := true }] }
  let s := s.modifyPair id fun p =>
    { p with session := some session, callerFrom := callerFrom, callId := m.callId }
  s.send ((s.current key).bind Pair.browser) (.linked callerFrom m.callId)

/-- The browser that hears the audio of a key. -/
def listener (s : BrowserBridge) (key : String) : Option Nat :=
  if key = "" then none
  else ((s.current key).bind Pair.browser).filter fun w => s.isOpen w

def onAudio (s : BrowserBridge) (session : Nat) (key : String) : BrowserBridge :=
  match s.listener key with
  | some w =>
    let playing := (s.current key).bind Pair.session
    { s with sent := s.sent ++ [(w, .audio session playing)] }
  | none => s

def onStop (s : BrowserBridge) (key : String) : BrowserBridge :=
  if key = "" then s else
  match s.pairs.get? key with
  | none => s
  | some id =>
    let s := s.send ((s.current key).bind Pair.browser) .stop
    let s := s.modifyPair id fun p =>
      { p with session := none, callerFrom := none, callId := none }
    s.cleanup key

/-- `if (p.browser === ws) p.browser = undefined` -/
def detach (s : BrowserBridge) (ws : Nat) (b : BridgeBrowser) : BrowserBridge :=
  s.modifyPair b.pair fun p => if p.browser = some ws then { p with browser := none } else p

def setState (s : BrowserBridge) (ws : Nat) (b : BridgeBrowser) (state : SocketState) :
    BrowserBridge :=
  { s with browsers := s.browsers.set ws { b with state := state } }

/-- Have the session of a socket's own pair object do something. -/
def tell (s : BrowserBridge) (b : BridgeBrowser) (c : SessionCommand) : BrowserBridge :=
  match s.objects[b.pair]?.bind fun e => e.2.session with
  | some session => { s with told := s.told ++ [(session, c)] }
  | none => s

def step (s : BrowserBridge) : BridgeEvent → Option BrowserBridge
  | .onStart m => some (s.onStart m)
  | .onAudio session => s.sessions[session]?.map fun k => s.onAudio session k.bridgeKey
  | .onStop session =>
    match s.sessions[session]? with
    | some k =>
      if k.live then
        some ({ s with sessions := s.sessions.set session { k with live := false } }.onStop
          k.bridgeKey)
      else none
    | none => none
  | .browser key => some (s.onBrowser key)
  | .mic ws => s.browsers[ws]?.bind fun b =>
    if b.state = .closed then none else some (s.tell b .sendAudio)
  | .hangup ws => s.browsers[ws]?.bind fun b =>
    if b.state = .closed then none else some (s.tell b .close)
  | .closing ws => s.browsers[ws]?.bind fun b =>
    if b.state = .open then some (s.setState ws b .closing) else none
  | .close ws => s.browsers[ws]?.bind fun b =>
    if b.state = .closed then none
    else some (((s.setState ws b .closed).detach ws b).cleanup b.key)
  | .error ws => s.browsers[ws]?.bind fun b =>
    if b.state = .closed then none else some ((s.setState ws b .failed).detach ws b)

end BrowserBridge

end CallNet.Streaming
