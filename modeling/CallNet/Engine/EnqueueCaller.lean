import CallNet.ForStd.Machine

/-!
# Answering a caller into a queue and distributing them to an agent

`IVRSystem.enqueueCaller` and `ringAgent` of `sip/ivr.system.ts`, for one caller.

The function is asynchronous: it is modelled as a machine whose `Phase` is the
`await` it is suspended at, and whose events are what can happen there: the awaited
promise settles, a leg emits `destroy`, or a ring that was given up on settles late.
Between two awaits the code runs without interruption, so one event takes it from
one await to the next.  The head of the `while` loop is a phase of its own only
because three paths lead to it; nothing can happen there but the loop's own test.

The media server and the SIP stack are the environment: which promise settles when,
and which leg is destroyed when, is up to the run.  `trace` lists what the function
does to the outside, in order; it and `callerGone`, `unheard`, `unchecked` and
`agentGone` are history, which no step reads.
-/

namespace CallNet.EnqueueCaller

/-- What `nextAgent` offers. -/
structure Agent where
  extension : String
  contactUri : String
  name : String
deriving DecidableEq, Repr

structure Options where
  queueName : String
  moh : String
  ringTimeoutMs : Nat
  maxWaitMs : Nat
  callerNumber : String
  callerName : String
  /-- `config.server.domain`. -/
  domain : String

inductive Outcome where
  | connected (agent : String)
  | abandoned
  | timeout
  | failed
deriving DecidableEq, Repr

/-- The calls of `opts.hooks`. -/
inductive Hook where
  | onWaiting
  | onRingAgent (ext : String)
  | onAgentNoAnswer (ext : String)
  | onConnected (ext : String)
  | onAbandoned
  | onTimeout
  | onEnded
deriving DecidableEq, Repr

/-- The outbound INVITE to an agent. -/
structure Invite where
  uri : String
  localSdp : String
  /-- The `From` header: the original caller on the agent's phone. -/
  fromHeader : String
  xQueue : String
deriving DecidableEq, Repr

/-- What the function does to the outside.  Attempts are numbered from 1. -/
inductive Act where
  | send (status : Nat) (reason : String)
  | play (file : String)
  | executeAsync (app : String) (arg : String)
  | hook (h : Hook)
  | invite (attempt : Nat) (req : Invite)
  | cancelInvite (attempt : Nat)
  | modify (attempt : Nat)
  | stopMusic
  | bridge (attempt : Nat)
  | destroyUac (attempt : Nat)
  | destroyEndpoint (attempt : Nat)
  /-- `teardown` destroys both of the caller's legs. -/
  | teardown
  /-- The far end destroyed one of the caller's legs (not the function's own doing). -/
  | callerDestroyed
deriving DecidableEq, Repr

/-- A handler of a leg's `destroy` event. -/
inductive Listener where
  | onCallerGone
  | onLegGone (attempt : Nat)
deriving DecidableEq, Repr

/-- The `await` the function is suspended at. -/
inductive Phase where
  | ensureConnected
  | connectCaller
  | prepareVoice
  | holdPrompt
  /-- The test of the `while` loop. -/
  | loop
  /-- No agent is free: waiting `pollIntervalMs`. -/
  | poll
  | createEndpoint (agent : Agent)
  /-- `ringAgent`; `settled` holds whether it resolved to a dialog. -/
  | ring (agent : Agent) (settled : Option Bool)
  | modify (agent : Agent)
  | stopMusic (agent : Agent)
  | bridge (agent : Agent)
  /-- The prompt played when no agent answered in time. -/
  | goodbye
  | returned (outcome : Outcome)
deriving DecidableEq, Repr

structure State where
  phase : Phase
  /-- `aLeg` and `dialog` exist. -/
  legs : Bool
  finalResponseSent : Bool
  abandoned : Bool
  bridged : Bool
  torndown : Bool
  endedNotified : Bool
  /-- The attempt whose ring is in flight. -/
  cancelActiveRing : Option Nat
  deadline : Nat
  /-- Attempts begun; the current one has this number. -/
  attempts : Nat
  /-- Rings given up on whose INVITE has not been answered yet. -/
  givenUp : List Nat
  /-- `destroy` handlers of `dialog`, and likewise of `aLeg`. -/
  callerListeners : List Listener
  /-- Attempts whose agent legs carry `onLegGone`. -/
  agentListeners : List Nat
  trace : List Act
  /-- The caller's leg was destroyed, by the far end or by `teardown`. -/
  callerGone : Bool
  /-- A leg was destroyed with a handler other than `onCallerGone`, or none. -/
  unheard : Bool
  /-- The caller's leg was destroyed where `abandoned` is not tested afterwards:
      in `createEndpoint`, `modify` or the break of the hold music. -/
  unchecked : Bool
  /-- A leg of the current attempt's agent was destroyed since its bridge began. -/
  agentGone : Bool
deriving DecidableEq, Repr

/-- The call of `enqueueCaller`, with the INVITE left open. -/
def init : State :=
  { phase := .ensureConnected, legs := false, finalResponseSent := false
    abandoned := false, bridged := false, torndown := false, endedNotified := false
    cancelActiveRing := none, deadline := 0, attempts := 0, givenUp := []
    callerListeners := [], agentListeners := [], trace := []
    callerGone := false, unheard := false, unchecked := false, agentGone := false }

namespace State

def emit (s : State) (a : Act) : State := { s with trace := s.trace ++ [a] }

def hook (s : State) (h : Hook) : State := s.emit (.hook h)

def goto (s : State) (p : Phase) : State := { s with phase := p }

/-! ## The local functions of `enqueueCaller` and `ringAgent` -/

/-- Destroy both of the caller's legs, once. -/
def teardown (s : State) : State :=
  if s.torndown then s
  else ({ s with torndown := true, callerGone := true }).emit .teardown

/-- Call `hooks.onEnded`, once. -/
def notifyEnded (s : State) : State :=
  if s.endedNotified then s
  else ({ s with endedNotified := true }).hook .onEnded

/-- `cancel` of `ringAgent`: withdraw the INVITE and resolve to `null`, unless the
    ring has settled. -/
def cancel (s : State) (attempt : Nat) : State :=
  match s.phase with
  | .ring agent none =>
    ({ s with
        phase := .ring agent (some false)
        givenUp := attempt :: s.givenUp }).emit (.cancelInvite attempt)
  | _ => s

/-- The caller hung up: stop ringing and let the loop unwind. -/
def onCallerGone (s : State) : State :=
  let s := { s with abandoned := true }
  match s.cancelActiveRing with
  | some attempt => s.cancel attempt
  | none => s

/-- A leg of a bridged (or to be bridged) pair was destroyed. -/
def onLegGone (s : State) (attempt : Nat) : State :=
  (((s.emit (.destroyUac attempt)).emit (.destroyEndpoint attempt)).notifyEnded).teardown

def runListener (s : State) : Listener → State
  | .onCallerGone => s.onCallerGone
  | .onLegGone attempt => s.onLegGone attempt

/-- The outer `catch`. -/
def fail (s : State) : State :=
  if s.bridged then s.goto (.returned .failed)
  else
    let s := s.notifyEnded.teardown
    let s := if s.finalResponseSent then s
      else ({ s with finalResponseSent := true }).emit (.send 480 "Temporarily Unavailable")
    s.goto (.returned .failed)

/-- The `catch` around `modify` and `bridge`: drop the agent and go on. -/
def attemptFailed (s : State) (agent : Agent) : State :=
  (((s.emit (.destroyUac s.attempts)).emit (.destroyEndpoint s.attempts)).hook
    (.onAgentNoAnswer agent.extension)).goto .loop

/-- Replace `onCallerGone` by `onLegGone` on the caller's legs, and put `onLegGone`
    on the agent's. -/
def swapListeners (s : State) : State :=
  { s with
    callerListeners := s.callerListeners.erase .onCallerGone ++ [.onLegGone s.attempts]
    agentListeners := s.attempts :: s.agentListeners }

end State

/-! ## The machine -/

inductive Event where
  /-- `ensureConnected` resolved. -/
  | ensured (up : Bool)
  | connected
  /-- `connectCaller` threw; the stack may have sent a final response already. -/
  | connectFailed (finalResponseSent : Bool)
  | voiceReady
  | promptPlayed (now : Nat)
  /-- The loop's test, at a time and with what `nextAgent` would return. -/
  | iterate (now : Nat) (agent : Option Agent)
  | pollElapsed
  | endpointReady (localSdp : String)
  /-- `createEndpoint` rejected (or `createUAC` threw before it sent anything). -/
  | endpointFailed
  /-- The agent answered the INVITE. -/
  | answered
  /-- The INVITE failed. -/
  | declined
  | ringTimeout
  /-- The settled ring's result reaches the loop. -/
  | ringResumed
  | modified
  | modifyFailed
  /-- `execute('break')` settled; its error is ignored. -/
  | musicStopped
  | bridged
  | bridgeFailed
  | goodbyePlayed
  /-- `dialog` or `aLeg` emits `destroy`. -/
  | callerDestroyed
  /-- The `uac` or `bLeg` of an attempt emits `destroy`. -/
  | agentDestroyed (attempt : Nat)
  /-- The INVITE of a ring given up on is answered after all, or fails. -/
  | lateAnswer (attempt : Nat)
  | lateFailure (attempt : Nat)
deriving DecidableEq, Repr

/-- The phases after which the code goes on to an agent without testing `abandoned`. -/
def Phase.isUnchecked : Phase → Bool
  | .createEndpoint _ | .modify _ | .stopMusic _ => true
  | _ => false

/-- `dialog` or `aLeg` emits `destroy`: its handlers run in order. -/
def State.callerDestroyed (s : State) : State :=
  let t := { s with
    callerGone := true
    unheard := s.unheard || !s.callerListeners.contains Listener.onCallerGone
    unchecked := s.unchecked || s.phase.isUnchecked }
  s.callerListeners.foldl State.runListener (t.emit .callerDestroyed)

/-- The phases in which the current attempt's agent is bridged, or about to be. -/
def Phase.isBridging : Phase → Bool
  | .bridge _ | .returned (.connected _) => true
  | _ => false

/-- An agent leg emits `destroy`. -/
def State.agentDestroyed (s : State) (attempt : Nat) : State :=
  let s := { s with
    agentGone := s.agentGone || (attempt == s.attempts && s.phase.isBridging) }
  if attempt ∈ s.agentListeners then ({ s with unheard := true }).onLegGone attempt else s

/-- The body of the `while` loop up to its first `await`, or the code after the loop. -/
def State.iterate (s : State) (now : Nat) (agent : Option Agent) : State :=
  if !s.abandoned ∧ now < s.deadline then
    match agent with
    | none => s.goto .poll
    | some agent =>
      (({ s with attempts := s.attempts + 1, agentGone := false }).hook (.onRingAgent agent.extension)).goto
        (.createEndpoint agent)
  else if s.abandoned then
    ((s.hook .onAbandoned).notifyEnded.teardown).goto (.returned .abandoned)
  else
    (s.emit (.play "say:All of our agents are busy. Please try again later. Goodbye.")).goto
      .goodbye

/-- After `ringAgent`: an agent that answered a caller who is still there goes on to
    the bridge, otherwise the attempt is dropped. -/
def State.ringResumed (s : State) (agent : Agent) (uac : Bool) : State :=
  let s := { s with cancelActiveRing := none }
  if !uac ∨ s.abandoned then
    let s := if uac then s.emit (.destroyUac s.attempts) else s
    let s := s.emit (.destroyEndpoint s.attempts)
    let s := if !uac ∧ !s.abandoned then s.hook (.onAgentNoAnswer agent.extension) else s
    s.goto .loop
  else
    (s.emit (.modify s.attempts)).goto (.modify agent)

def Options.inviteTo (o : Options) (agent : Agent) (localSdp : String) : Invite :=
  { uri := agent.contactUri
    localSdp := localSdp
    fromHeader := s!"\"{o.callerName}\" <sip:{o.callerNumber}@{o.domain}>"
    xQueue := o.queueName }

/-- One event: from one `await` to the next. -/
def step (o : Options) (s : State) (e : Event) : Option State :=
  match e with
  | .ensured up =>
    match s.phase with
    | .ensureConnected =>
      if up then some (s.goto .connectCaller)
      else
        let s := if s.finalResponseSent then s
          else ({ s with finalResponseSent := true }).emit (.send 480 "Temporarily Unavailable")
        some (s.goto (.returned .failed))
    | _ => none
  | .connected =>
    match s.phase with
    | .connectCaller =>
      some (({ s with legs := true, finalResponseSent := true }).goto .prepareVoice)
    | _ => none
  | .connectFailed sent =>
    match s.phase with
    | .connectCaller => some ({ s with finalResponseSent := sent }).fail
    | _ => none
  | .voiceReady =>
    match s.phase with
    | .prepareVoice =>
      some ((s.emit (.play "say:Please hold while we connect you to an agent.")).goto .holdPrompt)
    | _ => none
  | .promptPlayed now =>
    match s.phase with
    | .holdPrompt =>
      let s := { s with
        callerListeners := s.callerListeners ++ [Listener.onCallerGone]
        deadline := now + o.maxWaitMs }
      some (((s.hook .onWaiting).emit (.executeAsync "playback" o.moh)).goto .loop)
    | _ => none
  | .iterate now agent =>
    match s.phase with
    | .loop => some (s.iterate now agent)
    | _ => none
  | .pollElapsed =>
    match s.phase with
    | .poll => some (s.goto .loop)
    | _ => none
  | .endpointReady sdp =>
    match s.phase with
    | .createEndpoint agent =>
      some ((({ s with cancelActiveRing := some s.attempts }).emit
        (.invite s.attempts (o.inviteTo agent sdp))).goto (.ring agent none))
    | _ => none
  | .endpointFailed =>
    match s.phase with
    | .createEndpoint _ => some s.fail
    | _ => none
  | .answered =>
    match s.phase with
    | .ring agent none => some (s.goto (.ring agent (some true)))
    | _ => none
  | .declined =>
    match s.phase with
    | .ring agent none => some (s.goto (.ring agent (some false)))
    | _ => none
  | .ringTimeout =>
    match s.phase with
    | .ring _ none => some (s.cancel s.attempts)
    | _ => none
  | .ringResumed =>
    match s.phase with
    | .ring agent (some uac) => some (s.ringResumed agent uac)
    | _ => none
  | .modified =>
    match s.phase with
    | .modify agent => some ((s.emit .stopMusic).goto (.stopMusic agent))
    | _ => none
  | .modifyFailed =>
    match s.phase with
    | .modify agent => some (s.attemptFailed agent)
    | _ => none
  | .musicStopped =>
    match s.phase with
    | .stopMusic agent => some ((s.swapListeners.emit (.bridge s.attempts)).goto (.bridge agent))
    | _ => none
  | .bridged =>
    match s.phase with
    | .bridge agent =>
      some ((({ s with bridged := true }).hook (.onConnected agent.extension)).goto
        (.returned (.connected agent.extension)))
    | _ => none
  | .bridgeFailed =>
    match s.phase with
    | .bridge agent => some (s.attemptFailed agent)
    | _ => none
  | .goodbyePlayed =>
    match s.phase with
    | .goodbye => some (((s.hook .onTimeout).notifyEnded.teardown).goto (.returned .timeout))
    | _ => none
  | .callerDestroyed =>
    -- the loop's test is synchronous: no event is delivered between two awaits
    if s.legs ∧ s.phase ≠ .loop then some s.callerDestroyed else none
  | .agentDestroyed attempt =>
    if attempt ≤ s.attempts ∧ s.phase ≠ .loop then some (s.agentDestroyed attempt) else none
  | .lateAnswer attempt =>
    if attempt ∈ s.givenUp ∧ s.phase ≠ .loop then
      some (({ s with givenUp := s.givenUp.erase attempt }).emit (.destroyUac attempt))
    else none
  | .lateFailure attempt =>
    if attempt ∈ s.givenUp ∧ s.phase ≠ .loop then
      some { s with givenUp := s.givenUp.erase attempt }
    else none

/-! ## Steps -/

/-- What an event does, and at which `await` it can happen. -/
inductive Steps (o : Options) (s : State) : Event → State → Prop
  | mediaUp (hp : s.phase = .ensureConnected) :
      Steps o s (.ensured true) (s.goto .connectCaller)
  | mediaDown (hp : s.phase = .ensureConnected) :
      Steps o s (.ensured false)
        ((if s.finalResponseSent then s
          else ({ s with finalResponseSent := true }).emit
            (.send 480 "Temporarily Unavailable")).goto (.returned .failed))
  | connected (hp : s.phase = .connectCaller) :
      Steps o s .connected
        (({ s with legs := true, finalResponseSent := true }).goto .prepareVoice)
  | connectFailed (sent : Bool) (hp : s.phase = .connectCaller) :
      Steps o s (.connectFailed sent) ({ s with finalResponseSent := sent }).fail
  | voiceReady (hp : s.phase = .prepareVoice) :
      Steps o s .voiceReady
        ((s.emit (.play "say:Please hold while we connect you to an agent.")).goto .holdPrompt)
  | promptPlayed (now : Nat) (hp : s.phase = .holdPrompt) :
      Steps o s (.promptPlayed now)
        (((({ s with
            callerListeners := s.callerListeners ++ [Listener.onCallerGone]
            deadline := now + o.maxWaitMs }).hook .onWaiting).emit
          (.executeAsync "playback" o.moh)).goto .loop)
  | iterate (now : Nat) (agent : Option Agent) (hp : s.phase = .loop) :
      Steps o s (.iterate now agent) (s.iterate now agent)
  | pollElapsed (hp : s.phase = .poll) : Steps o s .pollElapsed (s.goto .loop)
  | endpointReady (sdp : String) (agent : Agent) (hp : s.phase = .createEndpoint agent) :
      Steps o s (.endpointReady sdp)
        ((({ s with cancelActiveRing := some s.attempts }).emit
          (.invite s.attempts (o.inviteTo agent sdp))).goto (.ring agent none))
  | endpointFailed (agent : Agent) (hp : s.phase = .createEndpoint agent) :
      Steps o s .endpointFailed s.fail
  | answered (agent : Agent) (hp : s.phase = .ring agent none) :
      Steps o s .answered (s.goto (.ring agent (some true)))
  | declined (agent : Agent) (hp : s.phase = .ring agent none) :
      Steps o s .declined (s.goto (.ring agent (some false)))
  | ringTimeout (agent : Agent) (hp : s.phase = .ring agent none) :
      Steps o s .ringTimeout (s.cancel s.attempts)
  | ringResumed (agent : Agent) (uac : Bool) (hp : s.phase = .ring agent (some uac)) :
      Steps o s .ringResumed (s.ringResumed agent uac)
  | modified (agent : Agent) (hp : s.phase = .modify agent) :
      Steps o s .modified ((s.emit .stopMusic).goto (.stopMusic agent))
  | modifyFailed (agent : Agent) (hp : s.phase = .modify agent) :
      Steps o s .modifyFailed (s.attemptFailed agent)
  | musicStopped (agent : Agent) (hp : s.phase = .stopMusic agent) :
      Steps o s .musicStopped ((s.swapListeners.emit (.bridge s.attempts)).goto (.bridge agent))
  | bridged (agent : Agent) (hp : s.phase = .bridge agent) :
      Steps o s .bridged
        ((({ s with bridged := true }).hook (.onConnected agent.extension)).goto
          (.returned (.connected agent.extension)))
  | bridgeFailed (agent : Agent) (hp : s.phase = .bridge agent) :
      Steps o s .bridgeFailed (s.attemptFailed agent)
  | goodbyePlayed (hp : s.phase = .goodbye) :
      Steps o s .goodbyePlayed
        (((s.hook .onTimeout).notifyEnded.teardown).goto (.returned .timeout))
  | callerDestroyed (hlegs : s.legs = true) (hp : s.phase ≠ .loop) :
      Steps o s .callerDestroyed s.callerDestroyed
  | agentDestroyed (attempt : Nat) (hle : attempt ≤ s.attempts) (hp : s.phase ≠ .loop) :
      Steps o s (.agentDestroyed attempt) (s.agentDestroyed attempt)
  | lateAnswer (attempt : Nat) (hmem : attempt ∈ s.givenUp) (hp : s.phase ≠ .loop) :
      Steps o s (.lateAnswer attempt)
        (({ s with givenUp := s.givenUp.erase attempt }).emit (.destroyUac attempt))
  | lateFailure (attempt : Nat) (hmem : attempt ∈ s.givenUp) (hp : s.phase ≠ .loop) :
      Steps o s (.lateFailure attempt) { s with givenUp := s.givenUp.erase attempt }

theorem steps_of_step {o : Options} {s s' : State} {e : Event} (h : step o s e = some s') :
    Steps o s e s' := by
  cases e with
  | ensured up =>
    simp only [step] at h
    split at h
    · rename_i hp
      cases up with
      | true =>
        cases h
        exact .mediaUp hp
      | false =>
        cases h
        exact .mediaDown hp
    · cases h
  | callerDestroyed | agentDestroyed attempt | lateAnswer attempt | lateFailure attempt =>
    obtain ⟨hguard, h⟩ := Option.ite_none_right_eq_some.mp h
    cases h
    constructor
    · exact hguard.1
    · exact hguard.2
  | connected | connectFailed | voiceReady | promptPlayed | iterate | pollElapsed
  | endpointReady | endpointFailed | answered | declined | ringTimeout | ringResumed
  | modified | modifyFailed | musicStopped | bridged | bridgeFailed | goodbyePlayed =>
    -- each settles the promise of one `await`
    simp only [step] at h
    split at h
    · cases h
      constructor
      assumption
    · cases h

end CallNet.EnqueueCaller
