import CallNet.ForStd.Prog
import CallNet.Engine.Database
import CallNet.Engine.EnqueueCaller
import CallNet.Engine.IvrFlow
import CallNet.Engine.QueueService

/-!
# What the call path asks of its environment

The INVITE pipeline (`sip/sip.server.ts`, `sip/routes`, `sip/ivr.system.ts`,
`services/trunk.service.ts`) is modelled as programs that perform `Effect`s: reads of
the in-memory state, which other calls change in between, requests to the SIP stack and
the media server, and writes of the call log.  A request that may be rejected answers
with an `Except`, and the program throws the error it gets.

Console output is left out.
-/

namespace CallNet

/-! ## Configuration -/

structure TrunkConfig where
  name : String
  host : String
  port : Nat
  username : String
  password : String
  callerNumber : String
  enabled : Bool
  /-- `TRUNK_PREFIX` -/
  dialPrefix : String
  inboundIps : List String
deriving DecidableEq, Repr

/-- The part of `core/config.ts` the call path reads, and whether the server has a media
    layer and the routing module. -/
structure Config where
  emergencyNumbers : List String
  sipPeers : List SipPeer
  trunk : TrunkConfig
  billing : BillingConfig
  serverDomain : String
  sipRateLimit : Nat
  sipRateWindowMs : Nat
  ivrEnabled : Bool
  voicemailEnabled : Bool
  voicemailFsDir : String
  voicemailMaxSec : Nat
  soundsBasePath : String
  holdMusic : String
  ttsEngine : String
  ttsVoice : String
  pushEnabled : Bool
  pushAlways : Bool
  teamsDefaultDialIn : String
  teamsDtmfDelayMs : Nat
  conferenceProfile : String
  /-- -1 is unlimited. -/
  conferenceMaxMembers : Int
  queueMoh : String
  queueRingTimeoutSecs : Nat
  queueMaxWaitSecs : Nat
  hasIvr : Bool
  hasRouting : Bool

/-! ## Data -/

/-- An incoming INVITE. -/
structure Request where
  sourceAddress : String
  uri : Option String
  callingNumber : Option String
  callingName : Option String
  calledNumber : String
  /-- `req.get(name)` -/
  get : String → Option String
  /-- `req.headers[name]` -/
  headers : String → Option String
  body : String

/-- A failure of the SIP stack or the media server. -/
structure SipError where
  status : Option Nat := none
  message : String := ""
deriving DecidableEq, Repr

/-- A SIP dialog, or an endpoint of the media server. -/
structure Leg where
  key : Nat
  localSdp : Option String := none
  remoteSdp : Option String := none
deriving DecidableEq, Repr

/-- An outbound INVITE. -/
structure OutboundInvite where
  uri : String
  localSdp : String
  fromHeader : String
  auth : Option (String × String) := none
  proxy : Option String := none
deriving DecidableEq, Repr

/-- What a handler of a leg's `destroy` event does. -/
inductive DestroyAct where
  | destroy (leg : Leg)
  /-- `updateCall(callId, { status: ended, endTime: now })` -/
  | endCall (callId : String)
  | audit (event extension : String) (metadata : List (String × String))
  /-- `hooks.onLeft`, once. -/
  | leaveConference (roomId extension : String)
  /-- `onTrunkEnd` of a meeting: an apology within the window after the bridge, then
      every leg is destroyed. -/
  | endMeeting (caller : Leg) (legs : List Leg)
deriving DecidableEq, Repr

inductive RuleDestination where
  | ivr
  | extension
  | pstn
  | voicemail
  | aiAgent
deriving DecidableEq, Repr

/-- The string of a destination type, as it appears in audit details. -/
def RuleDestination.text : RuleDestination → String
  | .ivr => "ivr"
  | .extension => "extension"
  | .pstn => "pstn"
  | .voicemail => "voicemail"
  | .aiAgent => "ai_agent"

/-- An enabled per-user routing rule. -/
structure RoutingRule where
  ownerExtension : String
  destinationType : RuleDestination
  destinationValue : String
deriving DecidableEq, Repr

inductive WidgetRouteType where
  | trunk
  | ivr
  | extension
deriving DecidableEq, Repr

/-- The string of a widget route type, as it appears in audit details. -/
def WidgetRouteType.text : WidgetRouteType → String
  | .trunk => "trunk"
  | .ivr => "ivr"
  | .extension => "extension"

/-- The claims of a widget capability token. -/
structure WidgetTokenClaims where
  keyId : Int
  owner : String
  destination : String
  callerId : String
  routeType : Option WidgetRouteType
deriving DecidableEq, Repr

/-- What the routing module decides, as far as the handlers look at it. -/
structure Decision where
  playAnnouncement : Bool
  reason : Option String
  announcementKey : Option String
deriving DecidableEq, Repr

structure RoutingContext where
  callId : String
  callerNumber : String
  calledNumber : String
  targetExtension : Option String := none
  targetQueueId : Option String := none
  preferQueue : Bool := false
deriving DecidableEq, Repr

/-- An email connector, as far as the flow interpreter looks at it. -/
structure Connector where
  type : String
  enabled : Bool
deriving DecidableEq, Repr

/-- An entry of a fixed-window rate limiter. -/
structure RateEntry where
  count : Nat
  resetAt : Nat
deriving DecidableEq, Repr

/-- What a read of the in-memory database sees. -/
structure Snapshot where
  dir : Directory
  rater : Option RatingService

structure Voicemail where
  id : String
  mailbox : String
  fromLeg : String
  fromName : String
  file : String
  duration : Int
deriving DecidableEq, Repr

/-! ## Effects -/

inductive Effect where
  -- the abuse guard and the rate limiters
  | isBanned (ip : String)
  | recordOffense (ip reason : String)
  | sipRates
  | setSipRates (m : OrdMap String RateEntry)
  | teamsAttempts
  | setTeamsAttempts (m : OrdMap String RateEntry)
  -- reads
  | snapshot
  | getRoutingRule (number : String)
  | getIvrFlow (extension : String)
  | getConnector (id : Rat)
  | verifyWidgetToken (token : String)
  | randomUUID
  | nowMs
  /-- `new Date().toISOString()` -/
  | timestamp
  /-- `now.getHours()` and `now.getDay()` -/
  | hoursAndDay
  /-- `YYYYMMDD` of the day. -/
  | dateDir
  -- the call log and its observers
  | logCall (data : CallLog)
  | updateCall (callId : String) (updates : CallUpdate)
  | audit (event extension : String) (metadata : List (String × String)) (ip : Option String)
  | notify (extension event : String) (data : List (String × String))
  | sendIncomingCall (extension callId fromLeg fromName : String)
  | addVoicemail (vm : Voicemail)
  | sendConnectorEmail (connectorId : Rat) (recipient subject body : String)
  /-- The `result` of a successful webhook. -/
  | fetch (url method : String)
  -- the SIP stack
  | send (status : Nat) (reason : Option String) (headers : List (String × String))
  | finalResponseSent
  | createB2BUA (uri : String) (timeoutMs : Option Nat) (passFailure : Bool)
  | createUAC (invite : OutboundInvite)
  | createUAS (localSdp : String)
  | onDestroy (leg : Leg) (acts : List DestroyAct)
  | destroy (leg : Leg)
  -- the media server
  | ensureConnected
  | isConnected
  | connectCaller
  | createEndpoint
  | execute (endpoint : Leg) (app arg : String)
  | executeAsync (endpoint : Leg) (app arg : String)
  | play (endpoint : Leg) (file : String)
  /-- Play a prompt until a key is pressed, no key comes in time or the caller hangs up. -/
  | playAndWait (endpoint : Leg) (prompt : String) (waitMs : Nat)
  | isHungUp (endpoint : Leg)
  | record (endpoint : Leg) (path : String) (timeLimitSecs : Nat)
  | modify (endpoint : Leg) (sdp : String)
  | bridge (endpoint other : Leg)
  | join (endpoint : Leg) (room profile : String)
  | sleep (ms : Nat)
  -- the routing module
  | evaluate (ctx : RoutingContext)
  | announcement (key : Option String)
  -- queues and conferences
  | queues
  | queue (op : Acd.Op)
  | enqueueCaller (queueId callId : String) (opts : EnqueueCaller.Options)
  /-- The participants of a room, and whether each has joined. -/
  | getRoom (roomId : String)
  | ensureRoom (roomId host hostName : String)
  | markRinging (roomId extension : String)
  | markJoined (roomId extension name : String)
  | markLeft (roomId extension : String)

/-- The answer to an effect. -/
def Effect.Answer : Effect → Type
  | .isBanned _ | .finalResponseSent | .ensureConnected | .isConnected | .isHungUp _ => Bool
  | .sipRates | .teamsAttempts => OrdMap String RateEntry
  | .snapshot => Snapshot
  | .getRoutingRule _ => Option RoutingRule
  | .getIvrFlow _ => Option IvrFlowGraph
  | .getConnector _ => Option Connector
  | .verifyWidgetToken _ => Option WidgetTokenClaims
  | .randomUUID | .timestamp | .dateDir => String
  | .nowMs => Nat
  | .hoursAndDay => Nat × Nat
  | .fetch _ _ => Option String
  | .createB2BUA _ _ _ | .connectCaller => Except SipError (Leg × Leg)
  | .createUAC _ | .createUAS _ | .createEndpoint => Except SipError Leg
  | .execute _ _ _ | .play _ _ | .modify _ _ | .bridge _ _ | .join _ _ _
  | .sendConnectorEmail _ _ _ _ => Except SipError Unit
  | .playAndWait _ _ _ => Option String
  | .record _ _ _ => Except SipError (Option Int)
  | .evaluate _ => Except SipError Decision
  | .announcement _ => Option String
  | .queues => Acd.QueueService
  | .enqueueCaller _ _ _ => EnqueueCaller.Outcome
  | .getRoom _ => Option (List (String × Bool))
  | .ensureRoom _ _ _ => List (String × Bool)
  | .recordOffense _ _ | .setSipRates _ | .setTeamsAttempts _ | .logCall _ | .updateCall _ _
  | .audit _ _ _ _ | .notify _ _ _ | .sendIncomingCall _ _ _ _ | .addVoicemail _
  | .send _ _ _ | .onDestroy _ _ | .destroy _ | .executeAsync _ _ _ | .sleep _
  | .queue _ | .markRinging _ _ | .markJoined _ _ _ | .markLeft _ _ => Unit

/-- The signature of the call path. -/
abbrev effects : Signature := ⟨Effect, Effect.Answer⟩

/-- What has happened: the effects performed, with their answers. -/
abbrev History := List (Prog.Event effects)

/-- The effect was answered by `x`. -/
abbrev Effect.event (e : Effect) (x : e.Answer) : Prog.Event effects := ⟨e, x⟩

/-- Programs of the call path. -/
abbrev CallProg := Prog effects SipError

/-- Perform an effect. -/
def ask (e : Effect) : CallProg e.Answer := Prog.perform (S := effects) e

/-- `await`: the value of a request, or its error thrown. -/
def ofExcept {α : Type} : Except SipError α → CallProg α
  | .ok a => pure a
  | .error err => Prog.throw err

/-- `try { await ... } catch { }` around one request. -/
def ignoring (e : Effect) : CallProg Unit := do
  let _ ← ask e
  pure ()

def send (status : Nat) (reason : Option String := none)
    (headers : List (String × String) := []) : CallProg Unit :=
  ask (.send status reason headers)

/-- `if (!res.finalResponseSent) res.send(...)` -/
def sendUnlessFinal (status : Nat) (reason : Option String := none)
    (headers : List (String × String) := []) : CallProg Unit := do
  let sent : Bool ← ask .finalResponseSent
  if sent then pure () else send status reason headers

def updateCall (callId : String) (updates : CallUpdate) : CallProg Unit :=
  ask (.updateCall callId updates)

/-- `updateCall(callId, { status })` -/
def setStatus (callId : String) (status : CallStatus) : CallProg Unit :=
  updateCall callId { status := some status }

/-- `updateCall(callId, { status: 'failed', direction })` -/
def setFailed (callId : String) (direction : CallDirection) : CallProg Unit :=
  updateCall callId { status := some .failed, direction := some direction }

def audit (event extension : String) (metadata : List (String × String))
    (ip : Option String := none) : CallProg Unit :=
  ask (.audit event extension metadata ip)

def notify (extension event : String) (data : List (String × String)) : CallProg Unit :=
  ask (.notify extension event data)

/-- The users as they are now. -/
def directory : CallProg Directory := do
  let snap : Snapshot ← ask .snapshot
  pure snap.dir

end CallNet
