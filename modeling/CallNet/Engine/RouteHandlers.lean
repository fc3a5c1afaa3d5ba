import CallNet.Engine.ExtensionRouting

/-!
# Route handlers

The handlers of `sip/routes`, tried in order on every INVITE.  A handler answers whether it
took the call.
-/

namespace CallNet

/-- What the handlers know of a call. -/
structure CallContext where
  req : Request
  calledNumber : String
  callingNumber : String
  callId : String
  /-- Set when the INVITE carried a valid widget token. -/
  widget : Option WidgetTokenClaims

/-- The optional route of a handler, if it is of the handler's type. -/
def routeOf (type : RouteType) (route : Option DialResult) : Option DialResult :=
  route.filter fun r => r.type = type

/-! ## Inbound PSTN calls -/

/-- Whether there is a media layer and it is connected. -/
def ivrConnected (cfg : Config) : CallProg Bool :=
  if cfg.hasIvr then ask .isConnected else pure false

/-- The target of a trunk call is not registered: an IVR number, or nobody. -/
def trunkToUnregistered (cfg : Config) (rt : Runtime) (ctx : CallContext) (target : String) :
    CallProg Bool := do
  let connected ← ivrConnected cfg
  if connected ∧ (resolve cfg.emergencyNumbers target).type = .ivr then do
    (handleIncomingCall cfg rt ctx.req none).tryCatch fun _ => do
      sendUnlessFinal 503
      setStatus ctx.callId .failed
    pure true
  else do
    send 480
    setStatus ctx.callId .missed
    pure true

def TrunkInboundHandler (cfg : Config) (rt : Runtime) (ctx : CallContext) : CallProg Bool :=
  if !cfg.trunk.isFromTrunk rt ctx.req.sourceAddress then pure false
  else do
    let dir ← directory
    match dir.findPstnForwardTarget ctx.calledNumber with
    | none => do
      -- no matching DID is configured
      send 480
      setStatus ctx.callId .missed
      pure true
    | some (_, target) => do
      audit "call_start" ctx.callingNumber
        [("to", target), ("callId", ctx.callId), ("type", "pstn_inbound")]
        (some ctx.req.sourceAddress)
      match dir.getRegistration target with
      | some contact => do
        routeToExtension cfg ctx.req contact ctx.callId
        pure true
      | none => trunkToUnregistered cfg rt ctx target

/-- A call that does not come from the trunk is left to the other handlers. -/
theorem TrunkInboundHandler_declines {cfg : Config} {rt : Runtime} {ctx : CallContext}
    (hsource : cfg.trunk.isFromTrunk rt ctx.req.sourceAddress = false) :
    TrunkInboundHandler cfg rt ctx = pure false := by
  unfold TrunkInboundHandler
  rw [hsource]
  rfl

/-! ## Widget calls -/

/-- Compare two digit strings allowing for a country-code or trunk-prefix offset. -/
def digitsEqual (a b : List Char) : Bool :=
  if a = [] ∨ b = [] then false
  else if a = b then true
  else
    let (shorter, longer) := if a.length ≤ b.length then (a, b) else (b, a)
    7 ≤ shorter.length ∧ shorter.isSuffixOf longer

/-- Refuse a widget call. -/
def refuseWidget (ctx : CallContext) (claims : WidgetTokenClaims) (metadata : List (String × String))
    (direction : CallDirection) : CallProg Bool := do
  audit "call_blocked" ("widget:" ++ toString claims.keyId) metadata (some ctx.req.sourceAddress)
  setFailed ctx.callId direction
  send 403 (some "Forbidden")
  pure true

/-- Bridge a widget call to the trunk, presenting the token's caller id. -/
def widgetToTrunk (cfg : Config) (ctx : CallContext) (claims : WidgetTokenClaims)
    (destination : String) : CallProg Bool := do
  let callerId := if claims.callerId = "" then none else some claims.callerId
  audit "call_start" ("widget:" ++ toString claims.keyId)
    [("to", destination), ("owner", claims.owner), ("callerId", callerId.getD ""),
     ("callId", ctx.callId), ("via", "widget")] (some ctx.req.sourceAddress)
  let ok ← routeCall cfg ctx.req destination callerId
  updateCall ctx.callId
    { status := some (if ok then .answered else .failed), direction := some .outbound }
  pure true

def WidgetHandler (cfg : Config) (ctx : CallContext) (route : DialResult) : CallProg Bool :=
  match ctx.widget with
  | none => pure false
  | some claims =>
    -- the token pins the destination, in the dialed or the normalized form
    let want := toDigits claims.destination
    let normalized := toDigits route.normalizedNumber
    let routeType := claims.routeType.getD .trunk
    if !(digitsEqual want (toDigits ctx.calledNumber) || digitsEqual want normalized) then
      refuseWidget ctx claims
        [("reason", "widget_destination_mismatch"), ("to", ctx.calledNumber),
         ("allowed", claims.destination), ("owner", claims.owner), ("callId", ctx.callId)] .outbound
    else if routeType ≠ .trunk then
      if route.type = .external then
        refuseWidget ctx claims
          [("reason", "widget_route_type_mismatch"), ("to", ctx.calledNumber),
           ("routeType", routeType.text), ("owner", claims.owner), ("callId", ctx.callId)] .inbound
      else pure false
    else if !cfg.trunk.enabled then do
      send 503 (some "Trunk Unavailable")
      setFailed ctx.callId .outbound
      pure true
    else
      widgetToTrunk cfg ctx claims
        (if digitsEqual want normalized then route.normalizedNumber else claims.destination)

/-- A call without a widget token is left to the other handlers. -/
theorem WidgetHandler_declines {cfg : Config} {ctx : CallContext} {route : DialResult}
    (hw : ctx.widget = none) : WidgetHandler cfg ctx route = pure false := by
  unfold WidgetHandler
  rw [hw]

/-! ## Gates -/

/-- `ctx.callingNumber || 'unknown'` -/
def CallContext.caller (ctx : CallContext) : String :=
  if ctx.callingNumber = "" then "unknown" else ctx.callingNumber

/-- The toll-fraud gate of a handler: an unregistered caller is refused. -/
def refuseUnregistered (ctx : CallContext) (details : List (String × String))
    (reason : Option String := some "Forbidden") : CallProg Bool := do
  audit "call_blocked" ctx.caller details (some ctx.req.sourceAddress)
  setFailed ctx.callId .outbound
  send 403 reason
  pure true

/-- `!caller || !isRegistered(caller)` -/
def CallContext.unregistered (ctx : CallContext) (dir : Directory) : Bool :=
  ctx.callingNumber = "" || !dir.isRegistered ctx.callingNumber

/-! ## Meetings and conferences -/

/-- Joins a caller may place in a minute. -/
def TEAMS_LIMIT : Nat := 5

/-- The limiter of meeting joins: the table after one more, and whether it is allowed. -/
def allowMeeting (attempts : OrdMap String RateEntry) (caller : String) (now : Nat) :
    OrdMap String RateEntry × Bool :=
  match attempts.get? caller with
  | none => (attempts.set caller ⟨1, now + 60000⟩, true)
  | some entry =>
    if entry.resetAt < now then (attempts.set caller ⟨1, now + 60000⟩, true)
    else if TEAMS_LIMIT ≤ entry.count then (attempts, false)
    else (attempts.set caller ⟨entry.count + 1, entry.resetAt⟩, true)

/-- A join of a registered caller, within the rate limit. -/
def joinMeeting (cfg : Config) (ctx : CallContext) (dialIn confId : String) : CallProg Bool := do
  let attempts : OrdMap String RateEntry ← ask .teamsAttempts
  let now : Nat ← ask .nowMs
  let (attempts, allowed) := allowMeeting attempts ctx.callingNumber now
  ask (.setTeamsAttempts attempts)
  if !allowed then do
    send 429 (some "Too Many Requests")
    pure true
  else do
    updateCall ctx.callId { toLeg := some ("teams:" ++ confId), direction := some .outbound }
    let ok ← joinTeamsMeeting cfg dialIn confId
    setStatus ctx.callId (if ok then .answered else .failed)
    pure true

/-- The digits of the `X-Teams-Conf-Id` header. -/
def Request.confId (req : Request) : String :=
  String.ofList (toDigits ((req.get "X-Teams-Conf-Id").getD ""))

/-- The dial-in number of the `X-Teams-Number` header, or the default one. -/
def Request.dialIn (cfg : Config) (req : Request) : String :=
  let number := (req.get "X-Teams-Number").getD ""
  trim (if number = "" then cfg.teamsDefaultDialIn else number)

def TeamsMeetingHandler (cfg : Config) (ctx : CallContext) : CallProg Bool :=
  if ctx.req.confId = "" then pure false
  else if !cfg.trunk.enabled ∨ !cfg.hasIvr then do
    send 503
    pure true
  else if ctx.req.dialIn cfg = "" then do
    send 400 (some "Missing dial-in number")
    pure true
  else do
    let dir ← directory
    if ctx.unregistered dir then
      refuseUnregistered ctx
        [("reason", "unregistered_teams"), ("confId", ctx.req.confId), ("callId", ctx.callId)]
    else joinMeeting cfg ctx (ctx.req.dialIn cfg) ctx.req.confId

/-- The participants of a room, which is created if need be. -/
def openRoom (roomId caller callerName : String) : CallProg (List (String × Bool)) := do
  let existing : Option (List (String × Bool)) ← ask (.getRoom roomId)
  match existing with
  | some room => pure room
  | none => ask (.ensureRoom roomId caller callerName)

/-- A registered caller into a room, unless it is full. -/
def joinRoom (cfg : Config) (ctx : CallContext) (roomId : String) : CallProg Bool := do
  let caller := ctx.callingNumber
  let shown := (ctx.req.get "X-Display-Name").getD ""
  let callerName := if shown = "" then caller else shown
  let room ← openRoom roomId caller callerName
  if 0 ≤ cfg.conferenceMaxMembers ∧
      cfg.conferenceMaxMembers ≤ (room.filter Prod.snd).length ∧
      caller ∉ room.map Prod.fst then do
    send 486 (some "Conference Full")
    pure true
  else do
    ask (.markRinging roomId caller)
    updateCall ctx.callId { toLeg := some ("conf:" ++ roomId), direction := some .outbound }
    let ok ← joinConference cfg ("conf-" ++ roomId) roomId caller callerName
    setStatus ctx.callId (if ok then .answered else .failed)
    pure true

def ConferenceHandler (cfg : Config) (ctx : CallContext) (route : Option DialResult) :
    CallProg Bool :=
  match routeOf .conference route with
  | none => pure false
  | some route =>
    if !cfg.hasIvr then do
      send 503
      pure true
    else do
      let dir ← directory
      if ctx.unregistered dir then
        refuseUnregistered ctx
          [("reason", "unregistered_conference"), ("roomId", route.target), ("callId", ctx.callId)]
          none
      else joinRoom cfg ctx route.target

/-! ## Queues -/

/-- The agents of a queue that are not offline. -/
def onlineAgents (svc : Acd.QueueService) (queueId : String) : Nat :=
  match svc.queues.get? queueId with
  | some queue => (queue.agents.values.filter fun a => a.state ≠ .offline).length
  | none => 0

/-- Hold the caller for an agent, and record how that ended. -/
def holdForAgent (cfg : Config) (ctx : CallContext) (queueId queueName caller : String) :
    CallProg Bool := do
  let shown := (ctx.req.get "X-Display-Name").getD ""
  let callerName := if shown ≠ "" then shown
    else if truthy ctx.req.callingName then ctx.req.callingName.getD "" else caller
  ask (.queue (.enqueue queueId ctx.callId caller callerName))
  updateCall ctx.callId { toLeg := some ("queue:" ++ queueId), status := some .answered }
  let outcome : EnqueueCaller.Outcome ← ask (.enqueueCaller queueId ctx.callId
    { queueName, moh := cfg.queueMoh, ringTimeoutMs := cfg.queueRingTimeoutSecs * 1000
      maxWaitMs := cfg.queueMaxWaitSecs * 1000, callerNumber := caller, callerName
      domain := cfg.serverDomain })
  match outcome with
  | .connected agent => do
    updateCall ctx.callId { status := some .answered, toLeg := some ("agent:" ++ agent) }
    pure true
  | .abandoned | .timeout => do
    setStatus ctx.callId .missed
    pure true
  | .failed => do
    ask (.queue (.dequeue queueId ctx.callId))
    setStatus ctx.callId .failed
    pure true

/-- What a caller is told when no agent is online. -/
def noAgentsText (cfg : Config) : CallProg (Option String) :=
  if cfg.hasRouting then ask (.announcement (some "no_agents_online"))
  else pure (some "No agents are currently online. Please call back during working hours.")

/-- The no-agents gate, and then the queue itself. -/
def enterQueue (cfg : Config) (ctx : CallContext) (queueId queueName caller : String) :
    CallProg Bool := do
  let svc : Acd.QueueService ← ask .queues
  if onlineAgents svc queueId = 0 then do
    updateCall ctx.callId { toLeg := some ("queue:" ++ queueId), status := some .missed }
    let text ← noAgentsText cfg
    playUnavailable cfg text
    pure true
  else holdForAgent cfg ctx queueId queueName caller

/-- The business-hours gate of a queue: `none` when the caller may enter. -/
def queueClosed (cfg : Config) (ctx : CallContext) (queueId caller : String) :
    CallProg (Option Decision) :=
  if !cfg.hasRouting then pure none
  else do
    let decision : Except SipError Decision ← ask (.evaluate
      { callId := ctx.callId, callerNumber := caller, calledNumber := ctx.calledNumber
        targetQueueId := some queueId, preferQueue := true })
    match decision with
    | .ok d =>
      pure (if d.playAnnouncement ∧ d.reason = some "outside_company_hours" then some d else none)
    | .error _ => pure none

def QueueHandler (cfg : Config) (rt : Runtime) (ctx : CallContext) (route : Option DialResult) :
    CallProg Bool :=
  match routeOf .queue route with
  | none => pure false
  | some route =>
    if !cfg.hasIvr then do
      send 503
      pure true
    else do
      let svc : Acd.QueueService ← ask .queues
      match svc.queues.get? route.target with
      | none => do
        send 404 (some "Queue Not Found")
        pure true
      | some queue => do
        let dir ← directory
        if !cfg.trunk.isFromTrunk rt ctx.req.sourceAddress ∧ !dir.isRegistered ctx.caller then do
          audit "call_blocked" ctx.caller
            [("reason", "unregistered_queue"), ("queueId", route.target), ("callId", ctx.callId)]
            (some ctx.req.sourceAddress)
          setStatus ctx.callId .failed
          send 403
          pure true
        else do
          let closed ← queueClosed cfg ctx route.target ctx.caller
          match closed with
          | some d => do
            updateCall ctx.callId
              { toLeg := some ("queue:" ++ route.target), status := some .missed }
            let text : Option String ← ask (.announcement d.announcementKey)
            playUnavailable cfg text
            pure true
          | none => enterQueue cfg ctx route.target queue.name ctx.caller

/-! ## Emergency, IVR and internal calls -/

def EmergencyHandler (cfg : Config) (ctx : CallContext) (route : Option DialResult) :
    CallProg Bool :=
  match routeOf .emergency route with
  | none => pure false
  | some route => do
    audit "call_start" ctx.callingNumber
      [("to", route.target), ("callId", ctx.callId), ("type", "emergency")]
      (some ctx.req.sourceAddress)
    if cfg.trunk.enabled then do
      let ok ← routeCall cfg ctx.req route.target
      setStatus ctx.callId (if ok then .answered else .failed)
      pure true
    else do
      send 503
      setStatus ctx.callId .failed
      pure true

def IvrHandler (cfg : Config) (rt : Runtime) (ctx : CallContext) (route : Option DialResult) :
    CallProg Bool :=
  match routeOf .ivr route with
  | none => pure false
  | some route => do
    let connected ← ivrConnected cfg
    if !connected ∨ !cfg.ivrEnabled then pure false
    else do
      audit "call_start" ctx.callingNumber
        [("to", route.target), ("callId", ctx.callId), ("type", "ivr")]
        (some ctx.req.sourceAddress)
      (handleIncomingCall cfg rt ctx.req (some (ctx.callId, route.target))).tryCatch fun _ => do
        sendUnlessFinal 503
        setStatus ctx.callId .failed
      pure true

/-- The schedule gate of an extension: whether the call was answered with an announcement. -/
def scheduleGate (cfg : Config) (ctx : CallContext) (extension : String) : CallProg Bool :=
  if !(cfg.hasRouting && cfg.hasIvr) then pure false
  else do
    let decision : Except SipError Decision ← ask (.evaluate
      { callId := ctx.callId, callerNumber := ctx.callingNumber
        calledNumber := ctx.calledNumber, targetExtension := some extension })
    match decision with
    | .ok d =>
      if d.playAnnouncement then do
        let text : Option String ← ask (.announcement d.announcementKey)
        playUnavailable cfg text
        setStatus ctx.callId .missed
        pure true
      else pure false
    | .error _ => pure false

/-- An extension nobody has closed: ring it, or what its user chose instead. -/
def routeInternal (cfg : Config) (ctx : CallContext) (target : String) : CallProg Bool := do
  let dir ← directory
  match dir.getRegistration target with
  | some contact =>
    if ((dir.getUser target).map SipUser.dnd).getD false then do
      routeDoNotDisturb cfg ctx.req target ctx.callId ctx.callingNumber
      pure true
    else do
      routeToExtension cfg ctx.req contact ctx.callId
      pure true
  | none =>
    -- an unknown extension is left to the other handlers, unless a widget is pinned to it
    if (dir.getUser target).isNone ∧
        (ctx.widget.bind WidgetTokenClaims.routeType) ≠ some .extension then pure false
    else do
      routeUnreachable cfg ctx.req target ctx.callId ctx.callingNumber .offline
      pure true

def InternalHandler (cfg : Config) (ctx : CallContext) (route : Option DialResult) :
    CallProg Bool :=
  match routeOf .internal route with
  | none => pure false
  | some route => do
    let closed ← scheduleGate cfg ctx route.target
    if closed then pure true else routeInternal cfg ctx route.target

/-! ## Outbound calls -/

/-- Restrict a SIP user part to safe characters. -/
def sanitizeUser (value : String) : String :=
  String.ofList (value.toList.filter fun c => isAlnum c ∨ c ∈ ['+', '.', '_', '-'])

/-- The Request-URI to a peer. -/
def SipPeer.outboundUri (peer : SipPeer) (user : String) : String :=
  let userPart := if user = "" then "" else sanitizeUser user ++ "@"
  let hostPort := peer.host ++ (match peer.port with
    | some (p + 1) => ":" ++ toString (p + 1)
    | _ => "")
  let transport := if truthy peer.transport then ";transport=" ++ peer.transport.getD "" else ""
  "sip:" ++ userPart ++ hostPort ++ transport

/-- The `From` header to a peer. -/
def SipPeer.fromHeader (cfg : Config) (peer : SipPeer) (dir : Directory) (caller : String) : String :=
  let callerId := (dir.getUser caller).bind SipUser.outboundCallerId
  let shown := if truthy peer.fromUser then peer.fromUser.getD ""
    else if truthy callerId then callerId.getD "" else caller
  let user := sanitizeUser shown
  let host := if truthy peer.fromHost then peer.fromHost.getD "" else cfg.serverDomain
  "<sip:" ++ (if user = "" then "anonymous" else user) ++ "@" ++ host ++ ">"

/-- The INVITE to a peer. -/
def SipPeer.invite (cfg : Config) (peer : SipPeer) (dir : Directory) (caller user localSdp : String) :
    OutboundInvite :=
  { uri := peer.outboundUri user
    localSdp
    fromHeader := peer.fromHeader cfg dir caller
    auth := if truthy peer.username then some (peer.username.getD "", peer.password.getD "")
      else none
    proxy := if truthy peer.proxy then
        let proxy := peer.proxy.getD ""
        some (if "sip:".toList.isPrefixOf proxy.toList then proxy else "sip:" ++ proxy)
      else none }

/-- `user@host` split at the last `@`. -/
def splitTarget (target : String) : String × String :=
  let cs := target.toList.reverse
  match cs.span (· ≠ '@') with
  | (host, _ :: user) => (String.ofList user.reverse, String.ofList host.reverse)
  | (host, []) => ("", String.ofList host.reverse)

/-- A call of a registered user to an approved peer. -/
def callPeer (cfg : Config) (ctx : CallContext) (peer : SipPeer) (user target : String) :
    CallProg Bool := do
  let dir ← directory
  updateCall ctx.callId { toLeg := some target, direction := some .outbound }
  let connect : CallProg Bool := do
    let uac : Leg ← ofExcept (← ask (.createUAC
      (peer.invite cfg dir ctx.callingNumber user ctx.req.body)))
    let _ ← connectOutboundLeg uac
    setStatus ctx.callId .answered
    pure true
  connect.tryCatch fun err => do
    let status := err.status.getD 0
    setFailed ctx.callId .outbound
    sendUnlessFinal (if 400 ≤ status ∧ status ≤ 699 then status else 503)
    pure true

def SipUriHandler (cfg : Config) (ctx : CallContext) (route : Option DialResult) :
    CallProg Bool :=
  match routeOf .sipUri route with
  | none => pure false
  | some route => do
    let dir ← directory
    if ctx.unregistered dir then
      refuseUnregistered ctx
        [("reason", "unregistered_sip_peer"), ("to", route.normalizedNumber),
         ("callId", ctx.callId)]
    else
      let (user, host) := splitTarget route.target
      match findSipPeer cfg.sipPeers host.toLower with
      | none => do
        setFailed ctx.callId .outbound
        send 403 (some "Forbidden")
        pure true
      | some peer => callPeer cfg ctx peer user route.target

/-- Refuse an outbound call that billing does not allow. -/
def refuseBilling (ctx : CallContext) (details : List (String × String)) (status : Nat)
    (reason : String) : CallProg Bool := do
  audit "call_blocked" ctx.callingNumber details (some ctx.req.sourceAddress)
  setFailed ctx.callId .outbound
  send status (some reason)
  pure true

/-- The outbound call of a registered caller, past every gate. -/
def dialExternal (cfg : Config) (ctx : CallContext) (number : String) : CallProg Bool := do
  let dir ← directory
  let ok ← routeCall cfg ctx.req number
    ((dir.getUser ctx.callingNumber).bind SipUser.outboundCallerId)
  setStatus ctx.callId (if ok then .answered else .failed)
  pure true

/-- The billing gates of a registered caller: a destination without a rate, and a wallet
    that does not cover the cheapest possible charge. -/
def billingGates (cfg : Config) (ctx : CallContext) (number : String) : CallProg Bool := do
  let snap : Snapshot ← ask .snapshot
  let caller := ctx.callingNumber
  if cfg.billing.blockUnrated ∧ snap.dir.isUnratedDestination snap.rater number caller then
    refuseBilling ctx
      [("reason", "unrated_destination"), ("to", number), ("callId", ctx.callId)] 403 "Forbidden"
  else
    let estimate := if cfg.billing.prepaidEnabled then
        (snap.dir.estimateMinCharge snap.rater number caller).filter fun e => 0 < e.1
      else none
    let balance := ((snap.dir.getUser caller).bind SipUser.balance).getD 0
    match estimate.filter fun e => balance < e.1 with
    | some (required, currency) =>
      refuseBilling ctx
        [("reason", "insufficient_balance"), ("to", number), ("balance", toString balance),
         ("required", toString required), ("currency", currency), ("callId", ctx.callId)]
        402 "Payment Required"
    | none => dialExternal cfg ctx number

def ExternalHandler (cfg : Config) (ctx : CallContext) (route : Option DialResult) :
    CallProg Bool :=
  match routeOf .external route with
  | none => pure false
  | some route =>
    if !cfg.trunk.enabled then pure false
    else do
      let dir ← directory
      if ctx.unregistered dir then
        refuseUnregistered ctx
          [("reason", "unregistered_external"), ("to", route.normalizedNumber),
           ("callId", ctx.callId)]
      else billingGates cfg ctx route.normalizedNumber

end CallNet
