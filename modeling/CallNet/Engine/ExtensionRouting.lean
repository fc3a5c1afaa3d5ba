import CallNet.Engine.IvrSystem

/-!
# Calls to an extension

`routeToExtension` of `sip/sip.server.ts` and what it falls back to when the device cannot
be reached: forwarding, the user's mobile, voicemail, an announcement.
-/

namespace CallNet

/-- Why a call enters the fallback chain. -/
inductive UnreachableReason where
  | busy
  | noAnswer
  | offline
deriving DecidableEq, Repr

def UnreachableReason.text : UnreachableReason → String
  | .busy => "busy"
  | .noAnswer => "no_answer"
  | .offline => "offline"

/-- The group of `/sip:([^@]+)/` in the rest of a URI. -/
def uriUserChars : List Char → Option (List Char)
  | [] => none
  | c :: cs =>
    match stripPrefix? "sip:".toList (c :: cs) with
    | some (d :: ds) =>
      if d = '@' then uriUserChars cs else some ((d :: ds).takeWhile (· ≠ '@'))
    | _ => uriUserChars cs

/-- The user part of a Request-URI, if the expression matches. -/
def Request.uriUser (req : Request) : Option String :=
  req.uri.bind fun uri => (uriUserChars uri.toList).map String.ofList

/-- The extension `routeToExtension` takes for the called one. -/
def Request.calledExt (req : Request) : String := req.uriUser.getD ""

/-- The group of `/<([^>]+)>/` in the rest of a contact. -/
def bracketedChars : List Char → Option (List Char)
  | [] => none
  | '<' :: cs =>
    let inside := cs.takeWhile (· ≠ '>')
    if inside ≠ [] ∧ inside.length < cs.length then some inside else bracketedChars cs
  | _ :: cs => bracketedChars cs

/-- The SIP URI of a registered contact. -/
def contactUri (contact : String) : String :=
  match bracketedChars contact.toList with
  | some uri => String.ofList uri
  | none => contact

/-- `getUser(number)?.name || number` -/
def Directory.nameOr (d : Directory) (number : String) : String :=
  let name := ((d.getUser number).map SipUser.name).getD ""
  if name = "" then number else name

/-- `req.callingName || getUser(number)?.name || number` -/
def Request.displayName (req : Request) (d : Directory) (number : String) : String :=
  if truthy req.callingName then req.callingName.getD "" else d.nameOr number

/-- The handlers of an answered B2BUA call: either end destroys the other, and the call
    ends. -/
def endWith (uas uac : Leg) (onDestroy : List DestroyAct) : CallProg Unit := do
  ask (.onDestroy uas (.destroy uac :: onDestroy))
  ask (.onDestroy uac (.destroy uas :: onDestroy))

/-- Forward to another extension, or to its user's mobile when it is not registered. -/
def forwardCall (cfg : Config) (req : Request) (target callId callingNumber : String) :
    CallProg Unit := do
  let dir ← directory
  match dir.getRegistration target with
  | none => do
    match dir.getUser target with
    | some targetUser =>
      if truthy targetUser.mobile ∧ cfg.trunk.enabled then do
        let ok ← routeCall cfg req (targetUser.mobile.getD "")
        setStatus callId (if ok then .answered else .failed)
      else notRegistered
    | none => notRegistered
  | some contact => do
    notify callingNumber "forwarding" [("target", target), ("callId", callId)]
    let call : Except SipError (Leg × Leg) ← ask (.createB2BUA (contactUri contact) none true)
    match call with
    | .ok (uas, uac) => do
      notify callingNumber "answered" [("target", target), ("callId", callId)]
      audit "call_forwarded" callingNumber [("to", target), ("callId", callId)]
      endWith uas uac [.endCall callId]
      setStatus callId .answered
    | .error _ => do
      notify callingNumber "failed" [("reason", "forward_failed"), ("callId", callId)]
      setStatus callId .failed
      sendUnlessFinal 503
where
  notRegistered : CallProg Unit := do
    notify callingNumber "unavailable" [("callId", callId)]
    setStatus callId .missed
    sendUnlessFinal 480

/-- Voicemail, as the fallback of `routeUnreachable` and of Do Not Disturb. -/
def toVoicemail (cfg : Config) (req : Request) (calledExt callId callingNumber : String)
    (unsaved : CallStatus) (reason : String) : CallProg Unit := do
  let dir ← directory
  let saved ← recordVoicemail cfg calledExt callingNumber (req.displayName dir callingNumber)
  setStatus callId (if saved then .voicemail else unsaved)
  notify callingNumber "unavailable"
    [("target", calledExt), ("reason", reason), ("callId", callId)]

/-- The spoken status of a callee that did not take the call. -/
def UnreachableReason.message : UnreachableReason → Option String
  | .busy =>
    some "The person you are trying to reach is currently busy. Please try again later."
  | .noAnswer =>
    some "The person you are trying to reach is not answering. Please try again later."
  | .offline => none

/-- The status recorded when nobody took the call. -/
def UnreachableReason.status : UnreachableReason → CallStatus
  | .offline => .unreachable
  | _ => .missed

/-- The fallback chain: the user's mobile, forward-on-unavailable, voicemail when offline,
    a spoken status, a plain 480. -/
def routeUnreachable (cfg : Config) (req : Request) (calledExt callId callingNumber : String)
    (reason : UnreachableReason) : CallProg Unit := do
  let dir ← directory
  let mobile := (dir.getUser calledExt).bind SipUser.mobile
  if truthy mobile ∧ cfg.trunk.enabled then do
    let ok ← routeCall cfg req (mobile.getD "")
    setStatus callId (if ok then .answered else .unreachable)
    if ok then pure ()
    else
      notify callingNumber "unavailable"
        [("target", calledExt), ("reason", "pstn_failed"), ("callId", callId)]
  else do
    let target := (dir.getForwarding calledExt).unavailable
    if truthy target then forwardCall cfg req (target.getD "") callId callingNumber
    else if reason = .offline ∧ cfg.voicemailEnabled ∧ cfg.hasIvr then
      toVoicemail cfg req calledExt callId callingNumber .unreachable "voicemail"
    else if cfg.hasIvr then do
      playUnavailable cfg reason.message
      setStatus callId reason.status
      notify callingNumber "unavailable"
        [("target", calledExt), ("reason", reason.text), ("callId", callId)]
    else do
      notify callingNumber "unavailable"
        [("target", calledExt), ("reason", reason.text), ("callId", callId)]
      setStatus callId reason.status
      sendUnlessFinal 480 (some "User Unavailable")
        [("Reason", "SIP;cause=480;text=\"User is unreachable\"")]

/-- The target is registered but does not want to be disturbed: voicemail or a silent 480. -/
def routeDoNotDisturb (cfg : Config) (req : Request) (calledExt callId callingNumber : String) :
    CallProg Unit :=
  if cfg.voicemailEnabled ∧ cfg.hasIvr then
    toVoicemail cfg req calledExt callId callingNumber .missed "dnd"
  else do
    notify callingNumber "unavailable"
      [("target", calledExt), ("reason", "dnd"), ("callId", callId)]
    setStatus callId .missed
    sendUnlessFinal 480 (some "Do Not Disturb")
      [("Reason", "SIP;cause=480;text=\"Do Not Disturb\"")]

/-- `err.message?.includes('timeout')` -/
def SipError.isTimeout (err : SipError) : Bool :=
  decide ("timeout".toList <:+: err.message.toList)

/-- The B2BUA call failed: forward, fall back or give up, by the status. -/
def extensionFailed (cfg : Config) (req : Request) (calledExt callId callingNumber : String)
    (err : SipError) : CallProg Unit := do
  let status := err.status.getD 0
  let dir ← directory
  let forwarding := dir.getForwarding calledExt
  if status = 486 ∨ status = 603 then do
    audit "call_declined" callingNumber
      [("to", calledExt), ("callId", callId), ("status", toString status)]
    if truthy forwarding.busy then
      forwardCall cfg req (forwarding.busy.getD "") callId callingNumber
    else do
      notify callingNumber "declined" [("reason", "busy"), ("callId", callId)]
      routeUnreachable cfg req calledExt callId callingNumber .busy
  else if status = 408 ∨ err.isTimeout then
    if truthy forwarding.noAnswer then
      forwardCall cfg req (forwarding.noAnswer.getD "") callId callingNumber
    else do
      notify callingNumber "no_answer" [("callId", callId)]
      routeUnreachable cfg req calledExt callId callingNumber .noAnswer
  else if status = 487 then setStatus callId .missed
  else if status ∈ [480, 410, 404, 503, 500, 0] then
    routeUnreachable cfg req calledExt callId callingNumber .offline
  else do
    audit "call_failed" callingNumber
      [("to", calledExt), ("callId", callId), ("error", err.message)]
    notify callingNumber "failed" [("reason", "error"), ("callId", callId)]
    setStatus callId .missed
    sendUnlessFinal 503

/-- Ring the called extension at its contact. -/
def routeToExtension (cfg : Config) (req : Request) (contact callId : String) :
    CallProg Unit := do
  let calledExt := req.calledExt
  let callingNumber := req.caller
  let dir ← directory
  if dir.isBlocked calledExt callingNumber then do
    notify callingNumber "declined" [("reason", "blocked"), ("callId", callId)]
    setStatus callId .missed
    send 603 (some "Decline")
  else do
    notify callingNumber "ringing" [("target", calledExt), ("callId", callId)]
    let call : Except SipError (Leg × Leg) ←
      ask (.createB2BUA (contactUri contact) (some 15000) false)
    match call with
    | .ok (uas, uac) => do
      notify callingNumber "answered" [("target", calledExt), ("callId", callId)]
      audit "call_answered" callingNumber [("to", calledExt), ("callId", callId)]
      endWith uas uac [.endCall callId,
        .audit "call_ended" callingNumber [("to", calledExt), ("callId", callId)]]
      setStatus callId .answered
    | .error err => extensionFailed cfg req calledExt callId callingNumber err

end CallNet
