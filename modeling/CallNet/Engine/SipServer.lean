import CallNet.Engine.RouteHandlers

/-!
# The INVITE pipeline

`handleInvite` of `sip/sip.server.ts`: the screens before a call is logged, the routing
rules, and the handlers in order.
-/

namespace CallNet

/-! ## Screens -/

/-- The fixed-window limiter per source: the table after one more request, and whether it
    is within the limit. -/
def checkSipRate (cfg : Config) (rates : OrdMap String RateEntry) (ip : String) (now : Nat) :
    OrdMap String RateEntry × Bool :=
  match rates.get? ip with
  | none => (rates.set ip ⟨1, now + cfg.sipRateWindowMs⟩, true)
  | some entry =>
    if entry.resetAt < now then (rates.set ip ⟨1, now + cfg.sipRateWindowMs⟩, true)
    else (rates.set ip ⟨entry.count + 1, entry.resetAt⟩, entry.count + 1 ≤ cfg.sipRateLimit)

/-- The `X-Widget-Token` header. -/
def Request.widgetToken (req : Request) : String :=
  let header := (req.get "X-Widget-Token").getD ""
  trim (if header = "" then (req.headers "x-widget-token").getD "" else header)

/-- The verified claims of the widget token, if the INVITE carries a valid one. -/
def parseWidgetToken (req : Request) : CallProg (Option WidgetTokenClaims) :=
  if req.widgetToken = "" then pure none
  else do
    let claims : Option WidgetTokenClaims ← ask (.verifyWidgetToken req.widgetToken)
    pure claims

/-- Whether an INVITE from outside the trunk is worth processing. -/
def isInviteLegitimate (dir : Directory) (route : DialResult) (caller : String) : Bool :=
  match route.type with
  | .internal => (dir.getUser route.target).isSome
  | .external | .sipUri | .conference | .queue => dir.isRegistered caller
  | .ivr | .emergency => true
  | .blocked => false

/-- The number an INVITE is for. -/
def Request.called (req : Request) : String := req.uriUser.getD req.calledNumber

/-- The caller a call is attributed to: the token's caller id, else the `From` number. -/
def callerIdentity (req : Request) (claims : Option WidgetTokenClaims) : String :=
  let own := (claims.map WidgetTokenClaims.callerId).getD ""
  if own = "" then req.caller else own

/-- The route of an INVITE: an approved peer, else the dial plan; an extension that is no
    user but has an enabled flow is IVR. -/
def inviteRoute (cfg : Config) (rt : Runtime) (dir : Directory) (req : Request) : DialResult :=
  let route := (resolveExternalSip rt.parseUri cfg.sipPeers (req.uri.getD "")).getD
    (resolve cfg.emergencyNumbers req.called)
  if route.type = .internal ∧ (dir.getUser route.target).isNone ∧
      dir.isIvrFlowExtension route.target then
    { route with type := .ivr }
  else route

/-! ## Routing rules -/

/-- The route a rule sends a call to. -/
def ruleRoute (ctx : CallContext) (type : RouteType) (rule : RoutingRule) : DialResult :=
  { type, target := rule.destinationValue, originalNumber := ctx.calledNumber
    normalizedNumber := rule.destinationValue }

/-- Apply a matched routing rule; whether the call was handled. -/
def dispatchRoutingRule (cfg : Config) (rt : Runtime) (ctx : CallContext) (rule : RoutingRule) :
    CallProg Bool :=
  match rule.destinationType with
  | .ivr => IvrHandler cfg rt ctx (some (ruleRoute ctx .ivr rule))
  | .extension => InternalHandler cfg ctx (some (ruleRoute ctx .internal rule))
  | .pstn =>
    -- not gated on the caller: the forward is the rule owner's own configuration
    if !cfg.trunk.enabled then do
      sendUnlessFinal 480
      setStatus ctx.callId .missed
      pure true
    else do
      let ok ← routeCall cfg ctx.req
        (resolve cfg.emergencyNumbers rule.destinationValue).normalizedNumber
      setStatus ctx.callId (if ok then .answered else .failed)
      pure true
  | .voicemail =>
    if cfg.voicemailEnabled ∧ cfg.hasIvr then do
      let dir ← directory
      let saved ← recordVoicemail cfg rule.ownerExtension ctx.callingNumber
        (ctx.req.displayName dir ctx.callingNumber)
      setStatus ctx.callId (if saved then .voicemail else .missed)
      pure true
    else do
      sendUnlessFinal 480
      setStatus ctx.callId .missed
      pure true
  | .aiAgent => pure false

/-- Look up the rule of the called number and apply it; widget calls have none. -/
def applyRoutingRule (cfg : Config) (rt : Runtime) (ctx : CallContext) : CallProg Bool :=
  if ctx.widget.isSome then pure false
  else do
    let rule? : Option RoutingRule ← ask (.getRoutingRule ctx.calledNumber)
    match rule? with
    | none => pure false
    | some rule => do
      audit "call_routed" ctx.callingNumber
        [("to", ctx.calledNumber), ("callId", ctx.callId),
         ("destinationType", rule.destinationType.text),
         ("destinationValue", if rule.destinationValue = "" then rule.ownerExtension
           else rule.destinationValue)] (some ctx.req.sourceAddress)
      dispatchRoutingRule cfg rt ctx rule

/-! ## The pipeline -/

/-- Wake the callee's device when it is not registered. -/
def pushWakeUp (cfg : Config) (ctx : CallContext) : CallProg Unit :=
  if !cfg.pushEnabled ∨ ctx.widget.isSome then pure ()
  else do
    let dir ← directory
    if (dir.getUser ctx.calledNumber).isSome ∧
        (cfg.pushAlways ∨ !dir.isRegistered ctx.calledNumber) then
      ask (.sendIncomingCall ctx.calledNumber ctx.callId ctx.callingNumber
        (dir.nameOr ctx.callingNumber))
    else pure ()

/-- The handlers after `TrunkInboundHandler`, by priority. -/
def routeHandlers (cfg : Config) (rt : Runtime) (ctx : CallContext) (route : DialResult) :
    List (CallProg Bool) :=
  [WidgetHandler cfg ctx route,
   TeamsMeetingHandler cfg ctx,
   ConferenceHandler cfg ctx (some route),
   QueueHandler cfg rt ctx (some route),
   EmergencyHandler cfg ctx (some route),
   IvrHandler cfg rt ctx (some route),
   InternalHandler cfg ctx (some route),
   SipUriHandler cfg ctx (some route),
   ExternalHandler cfg ctx (some route)]

/-- Try handlers in order until one takes the call. -/
def firstHandler : List (CallProg Bool) → CallProg Bool
  | [] => pure false
  | handle :: rest => do
    let handled ← handle
    if handled then pure true else firstHandler rest

/-- A handler that declines is passed over. -/
theorem firstHandler_skip (rest : List (CallProg Bool)) :
    firstHandler (pure false :: rest) = firstHandler rest := rfl

/-- A logged call on its way through the rule and the handlers. -/
def routeCallContext (cfg : Config) (rt : Runtime) (ctx : CallContext) (route : DialResult) :
    CallProg Unit := do
  let ruled ← applyRoutingRule cfg rt ctx
  if ruled then pure ()
  else do
    pushWakeUp cfg ctx
    let handled ← firstHandler (TrunkInboundHandler cfg rt ctx :: routeHandlers cfg rt ctx route)
    if handled then pure ()
    else do
      send 480
      setStatus ctx.callId .missed

/-- Log a legitimate call and route it. -/
def acceptInvite (cfg : Config) (rt : Runtime) (req : Request)
    (claims : Option WidgetTokenClaims) (dir : Directory) (route : DialResult) :
    CallProg Unit := do
  let caller := callerIdentity req claims
  let callId : String ← ask .randomUUID
  let startTime : String ← ask .timestamp
  ask (.logCall
    { id := callId, fromLeg := caller, toLeg := req.called, fromName := dir.nameOr caller
      status := .ringing, direction := .inbound, startTime })
  audit "call_start" caller [("to", req.called), ("callId", callId)] (some req.sourceAddress)
  routeCallContext cfg rt
    { req, calledNumber := req.called, callingNumber := caller, callId, widget := claims } route

/-- Screen an INVITE that is within the rate limit. -/
def screenInvite (cfg : Config) (rt : Runtime) (req : Request) : CallProg Unit := do
  let claims ← parseWidgetToken req
  let caller := callerIdentity req claims
  let dir ← directory
  let route := inviteRoute cfg rt dir req
  if !cfg.trunk.isFromTrunk rt req.sourceAddress ∧ claims.isNone ∧
      !isInviteLegitimate dir route caller then do
    ask (.recordOffense req.sourceAddress ("unroutable:" ++ route.type.text))
    audit "call_blocked" caller
      [("to", req.called), ("reason", "unroutable_or_spoofed"), ("route", route.type.text)]
      (some req.sourceAddress)
    send 403
  else acceptInvite cfg rt req claims dir route

/-- Refuse banned and flooding sources, screen the others. -/
def guardInvite (cfg : Config) (rt : Runtime) (req : Request) : CallProg Unit := do
  let banned : Bool ← ask (.isBanned req.sourceAddress)
  if banned then send 403
  else do
    let rates : OrdMap String RateEntry ← ask .sipRates
    let now : Nat ← ask .nowMs
    let (rates, allowed) := checkSipRate cfg rates req.sourceAddress now
    ask (.setSipRates rates)
    if !allowed then do
      ask (.recordOffense req.sourceAddress "invite_flood")
      send 429
    else screenInvite cfg rt req

/-- The handler of an INVITE. -/
def handleInvite (cfg : Config) (rt : Runtime) (req : Request) : CallProg Unit :=
  (guardInvite cfg rt req).tryCatch fun _ => sendUnlessFinal 500

end CallNet
