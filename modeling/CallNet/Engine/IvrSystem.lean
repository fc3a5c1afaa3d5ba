import CallNet.Engine.TrunkService

/-!
# The media layer

The parts of `sip/ivr.system.ts` the INVITE pipeline enters, and the interpreter of IVR
flows (`sip/ivr/flow-runner.ts`).  `enqueueCaller` has a model of its own; the live audio
stream and the table of active calls are left out.
-/

namespace CallNet

/-! ## Prompts -/

/-- Play a file, tolerating a missing one. -/
def playSafe (endpoint : Leg) (file : String) : CallProg Unit := ignoring (.play endpoint file)

/-- Set the speech engine and voice. -/
def setVoice (cfg : Config) (endpoint : Leg) : CallProg Unit := do
  ofExcept (← ask (.execute endpoint "set" ("tts_engine=" ++ cfg.ttsEngine)))
  ofExcept (← ask (.execute endpoint "set" ("tts_voice=" ++ cfg.ttsVoice)))

/-- Configure the voice and add a short lead-in silence, as far as that works. -/
def prepareVoice (cfg : Config) (endpoint : Leg) : CallProg Unit :=
  (do
    setVoice cfg endpoint
    ofExcept (← ask (.play endpoint "silence_stream://500"))).tryCatch fun _ => pure ()

/-- The attempts of `promptAndCollect` that are left. -/
def collectLoop (endpoint : Leg) (prompt : String) (waitMs : Nat) (valid : Option String) :
    Nat → CallProg String
  | 0 => pure ""
  | tries + 1 => do
    let heard : Option String ← ask (.playAndWait endpoint prompt waitMs)
    match heard with
    -- the caller hung up
    | none => pure ""
    | some digit =>
      if digit ≠ "" ∧ (!truthy valid ∨ digit.toList <:+: (valid.getD "").toList) then pure digit
      else collectLoop endpoint prompt waitMs valid tries

/-- Play a prompt and collect one digit; empty when there is none. -/
def promptAndCollect (endpoint : Leg) (prompt : String) (waitMs tries : Nat)
    (valid : Option String) : CallProg String := do
  ofExcept (← ask (.execute endpoint "set" "playback_terminators=0123456789*#"))
  collectLoop endpoint prompt waitMs valid (max 1 tries)

/-! ## Voicemail and announcements -/

/-- Destroy a caller's endpoint and dialog. -/
def destroyLegs (endpoint dialog : Leg) : CallProg Unit := do
  ask (.destroy endpoint)
  ask (.destroy dialog)

/-- Record a message on a connected endpoint; whether one was saved. -/
def captureVoicemail (cfg : Config) (endpoint : Leg) (mailbox callerNumber fromName : String)
    (greeting : Option String := none) (maxSeconds : Option Nat := none) : CallProg Bool :=
  if !cfg.voicemailEnabled then pure false
  else do
    let id : String ← ask .randomUUID
    let day : String ← ask .dateDir
    let fileTs : Nat ← ask .nowMs
    let relPath := mailbox ++ "/" ++ day ++ "/vm_" ++ toString fileTs ++ ".wav"
    let startedAt : Nat ← ask .nowMs
    (setVoice cfg endpoint).tryCatch fun _ => pure ()
    playSafe endpoint (if truthy greeting then greeting.getD ""
      else "say:The person you are trying to reach is unavailable. Please leave a message " ++
        "after the tone. Press zero when you are finished.")
    playSafe endpoint "tone_stream://%(500,0,800)"
    ofExcept (← ask (.execute endpoint "set" "playback_terminators=0#"))
    let recordSeconds : Option Int ← ofExcept (← ask (.record endpoint
      (cfg.voicemailFsDir ++ "/" ++ relPath) (maxSeconds.getD cfg.voicemailMaxSec)))
    let now : Nat ← ask .nowMs
    let duration := recordSeconds.getD (mathRound ((((now : Int) - startedAt : Int) : Rat) / 1000))
    let name := if fromName = "" then callerNumber else fromName
    ask (.addVoicemail { id, mailbox, fromLeg := callerNumber, fromName := name, file := relPath
                         duration })
    notify mailbox "voicemail" [("id", id), ("from", callerNumber), ("fromName", name)]
    pure true

/-- Answer the call of an offline user and capture a voicemail; whether one was saved. -/
def recordVoicemail (cfg : Config) (mailbox callerNumber fromName : String) : CallProg Bool :=
  let unavailable : CallProg Bool := do
    sendUnlessFinal 480 (some "Temporarily Unavailable")
    pure false
  if !cfg.voicemailEnabled then pure false
  else do
    let up : Bool ← ask .ensureConnected
    if !up then unavailable
    else do
      let caller : Except SipError (Leg × Leg) ← ask .connectCaller
      match caller with
      | .error _ => unavailable
      | .ok (endpoint, dialog) => do
        let saved ← (captureVoicemail cfg endpoint mailbox callerNumber fromName).tryCatch
          fun _ => unavailable
        destroyLegs endpoint dialog
        pure saved

/-- Answer the caller, play an announcement, and hang up. -/
def playUnavailable (cfg : Config) (message : Option String) : CallProg Unit := do
  let up : Bool ← ask .ensureConnected
  if !up then sendUnlessFinal 480 (some "Temporarily Unavailable")
  else do
    let caller : Except SipError (Leg × Leg) ← ask .connectCaller
    match caller with
    | .error _ => sendUnlessFinal 480 (some "Temporarily Unavailable")
    | .ok (endpoint, dialog) => do
      prepareVoice cfg endpoint
      let text := if truthy message then message.getD ""
        else "The person you are trying to reach is not available right now. " ++
          "Please try again later."
      playSafe endpoint ("say:" ++ text)
      destroyLegs endpoint dialog

/-! ## Meetings and conferences -/

/-- Destroy legs one after the other. -/
def destroyAll : List Leg → CallProg Unit
  | [] => pure ()
  | leg :: legs => do
    ask (.destroy leg)
    destroyAll legs

/-- The `catch` of a meeting join: apologise, tear down, refuse if nothing was answered. -/
def meetingFailed (aLeg : Leg) (legs : List Leg) : CallProg Bool := do
  playSafe aLeg "say:Sorry, we could not join the meeting. Goodbye."
  destroyAll legs
  sendUnlessFinal 480 (some "Temporarily Unavailable")
  pure true

/-- The answered trunk leg: send the conference id, install the handlers and bridge. -/
def bridgeMeeting (cfg : Config) (aLeg dialog bLeg uac : Leg) (conferenceId : String) :
    CallProg Bool := do
  let legs := [uac, bLeg, aLeg, dialog]
  ofExcept (← ask (.modify bLeg (uac.remoteSdp.getD "")))
  ask (.sleep cfg.teamsDtmfDelayMs)
  ignoring (.execute bLeg "send_dtmf" (conferenceId ++ "#"))
  ask (.onDestroy uac [.endMeeting aLeg legs])
  ask (.onDestroy dialog [.endMeeting aLeg legs])
  ask (.onDestroy bLeg [.endMeeting aLeg legs])
  ask (.onDestroy aLeg (legs.map .destroy))
  ofExcept (← ask (.bridge aLeg bLeg))
  pure true

/-- The meeting leg, once the caller is on the media server: dial in through the trunk and
    join the two. -/
def joinMeetingLeg (cfg : Config) (aLeg dialog bLeg : Leg) (dialInNumber conferenceId : String) :
    CallProg Bool := do
  let dialed : Option (Option Leg) ←
    ((createOutboundLeg cfg dialInNumber (bLeg.localSdp.getD "")).bind fun uac =>
      pure (some uac)).tryCatch fun _ => pure none
  match dialed with
  | none => meetingFailed aLeg [bLeg, aLeg, dialog]
  | some none => do
    playSafe aLeg "say:The meeting service is unavailable. Goodbye."
    destroyAll [bLeg, aLeg, dialog]
    pure true
  | some (some uac) =>
    (bridgeMeeting cfg aLeg dialog bLeg uac conferenceId).tryCatch fun _ =>
      meetingFailed aLeg [uac, bLeg, aLeg, dialog]

/-- Join the caller into a meeting by its PSTN dial-in number; `false` only when the media
    server is down. -/
def joinTeamsMeeting (cfg : Config) (dialInNumber conferenceId : String) : CallProg Bool := do
  let up : Bool ← ask .ensureConnected
  if !up then do
    sendUnlessFinal 480 (some "Temporarily Unavailable")
    pure false
  else do
    let caller : Except SipError (Leg × Leg) ← ask .connectCaller
    match caller with
    | .error _ => do
      sendUnlessFinal 480 (some "Temporarily Unavailable")
      pure true
    | .ok (aLeg, dialog) => do
      prepareVoice cfg aLeg
      playSafe aLeg "say:Connecting you to the meeting. Please hold."
      let bLeg? : Except SipError Leg ← ask .createEndpoint
      match bLeg? with
      | .error _ => meetingFailed aLeg [aLeg, dialog]
      | .ok bLeg => joinMeetingLeg cfg aLeg dialog bLeg dialInNumber conferenceId

/-- Join the caller into a conference room; whether that worked.  `onLeft` is called once,
    by the legs' handlers or here. -/
def joinConference (cfg : Config) (roomName roomId caller callerName : String) :
    CallProg Bool := do
  let up : Bool ← ask .ensureConnected
  if !up then do
    sendUnlessFinal 480 (some "Temporarily Unavailable")
    pure false
  else do
    let failed (legs : List Leg) : CallProg Bool := do
      ask (.markLeft roomId caller)
      destroyAll legs
      sendUnlessFinal 480 (some "Temporarily Unavailable")
      pure false
    let connected : Except SipError (Leg × Leg) ← ask .connectCaller
    match connected with
    | .error _ => failed []
    | .ok (endpoint, dialog) => do
      prepareVoice cfg endpoint
      playSafe endpoint "say:You are joining the conference."
      ask (.onDestroy dialog
        [.leaveConference roomId caller, .destroy endpoint, .destroy dialog])
      ask (.onDestroy endpoint [.leaveConference roomId caller])
      let joined : Except SipError Unit ← ask (.join endpoint roomName cfg.conferenceProfile)
      match joined with
      | .ok _ => do
        ask (.markJoined roomId caller callerName)
        pure true
      | .error _ => failed [endpoint, dialog]

/-! ## IVR flows -/

inductive FlowResult where
  | completed
  | voicemail
  | transferred
  | announced
  | hangup
  | error
deriving DecidableEq, Repr

/-- The call a flow runs for. -/
structure FlowCall where
  endpoint : Leg
  callId : String
  callerNumber : String
  fromName : String
  /-- The dialed DID or extension that selected the flow. -/
  dialedNumber : String

/-- Department ids and the names of their queues. -/
def departments : List (String × String) :=
  [("sales", "sales_queue"), ("support", "support_queue"), ("billing", "billing_queue"),
   ("care", "care_queue")]

/-- What the media server is told to bridge to for an external target. -/
def sipBridgeTarget (target : String) : String :=
  "sofia/external/" ++ (if "sip:".toList <:+: target.toList then target else "sip:" ++ target)

/-- Bridge the caller straight to a SIP address. -/
def flowBridge (call : FlowCall) (target : String) : CallProg Unit :=
  ignoring (.execute call.endpoint "bridge" (sipBridgeTarget target))

/-- Route the caller to a department queue or an extension; `false` when the call is outside
    business hours and was told so. -/
def flowTransfer (cfg : Config) (call : FlowCall) (department : Option String) : CallProg Bool :=
  let parked : CallProg Bool := do
    setStatus call.callId .answered
    ask (.executeAsync call.endpoint "playback" cfg.holdMusic)
    pure true
  if !cfg.hasRouting then parked
  else do
    let queueName := (department.bind fun d => departments.lookup d).or department
    let decision : Except SipError Decision ← ask (.evaluate
      { callId := call.callId, callerNumber := call.callerNumber
        calledNumber := call.dialedNumber, targetQueueId := queueName, preferQueue := true })
    match decision with
    | .ok d =>
      if d.playAnnouncement ∧ d.reason = some "outside_company_hours" then do
        let text : Option String ← ask (.announcement (some (d.announcementKey.getD
          "company_closed")))
        playSafe call.endpoint ("say:" ++ text.getD "Our company is currently closed.")
        setStatus call.callId .missed
        pure false
      else parked
    | .error _ => parked

/-- Send an email through a configured connector, as far as that works. -/
def flowSendEmail (rt : Runtime) (connectorId recipient subject body : String) : CallProg Unit :=
  match rt.toNumber connectorId with
  | none => pure ()
  | some id =>
    if id ≤ 0 then pure ()
    else do
      let connector : Option Connector ← ask (.getConnector id)
      match connector with
      | none => pure ()
      | some c =>
        if c.type ≠ "email" ∨ !c.enabled then pure ()
        else ignoring (.sendConnectorEmail id recipient subject body)

/-- Where a node leads, with the digits read so far; or how the flow ends. -/
inductive FlowStep where
  | goto (node : Option IvrGraphNode) (lastDigit digits : String)
  | done (result : FlowResult)

/-- `s.slice(-1)` -/
def lastChar (s : String) : String := String.ofList (s.toList.drop (s.toList.length - 1))

/-- The end of a meeting node: bridge to the target, or go on when there is none. -/
def joinMeetingTarget (call : FlowCall) (flow : IvrFlowGraph) (node : IvrGraphNode)
    (target lastDigit digits : String) : CallProg FlowStep :=
  if target = "" then do
    playSafe call.endpoint "say:We could not verify that meeting ID."
    pure (.goto (flow.fallback node.id) lastDigit digits)
  else do
    flowBridge call target
    pure (.done .transferred)

/-- Play a node's prompt, if it can be played. -/
def playPrompt (cfg : Config) (call : FlowCall) (prompt : Option Prompt) : CallProg Unit :=
  match renderPrompt cfg.soundsBasePath prompt with
  | some file => playSafe call.endpoint file
  | none => pure ()

def promptOr (cfg : Config) (prompt : Option Prompt) (fallback : String) : String :=
  (renderPrompt cfg.soundsBasePath prompt).getD fallback

/-- A menu: the pressed digit's edge, else the invalid prompt and the fallback edge. -/
def runMenu (cfg : Config) (call : FlowCall) (flow : IvrFlowGraph) (node : IvrGraphNode)
    (prompt : Option Prompt) (validDigits : Option String) (tries timeoutMs : Option Nat)
    (invalidPrompt : Option Prompt) (options : List MenuOption) (lastDigit digits : String) :
    CallProg FlowStep := do
  let valid := if truthy validDigits then validDigits.getD ""
    else String.join (options.map MenuOption.digit)
  let digit ← promptAndCollect call.endpoint (promptOr cfg prompt "say:Please make a selection.")
    (timeoutMs.getD 7000) (tries.getD 2) (some valid)
  let hungUp : Bool ← ask (.isHungUp call.endpoint)
  if hungUp then pure (.done .hangup)
  else
    let lastDigit := if digit = "" then lastDigit else digit
    let digits := digits ++ digit
    let target := if digit = "" then none else resolveMenuTarget options flow.edges node.id digit
    match target.filter (· ≠ "") with
    | some target => pure (.goto (nodeById flow.nodes target) lastDigit digits)
    | none => do
      playPrompt cfg call invalidPrompt
      pure (.goto (flow.fallback node.id) lastDigit digits)

/-- A meeting whose webhook turns the collected digits into the target. -/
def runMeetingInternal (cfg : Config) (call : FlowCall) (flow : IvrFlowGraph)
    (node : IvrGraphNode) (prompt : Option Prompt) (apiUrl method : Option String)
    (lastDigit digits : String) : CallProg FlowStep := do
  let entered ← promptAndCollect call.endpoint (promptOr cfg prompt
    "say:Please enter the meeting ID.") 10000 3 none
  let hungUp : Bool ← ask (.isHungUp call.endpoint)
  if hungUp then pure (.done .hangup)
  else if entered = "" then pure (.goto (flow.fallback node.id) lastDigit digits)
  else if !truthy apiUrl then
    joinMeetingTarget call flow node "" (lastChar entered) (digits ++ entered)
  else do
    let url := substituteVars (apiUrl.getD "")
      [("digits", entered), ("meetingId", entered), ("caller_id", call.callerNumber)]
    let result : Option String ← ask (.fetch url (method.getD "GET"))
    joinMeetingTarget call flow node (result.getD "") (lastChar entered) (digits ++ entered)

/-- A meeting at the domain of a chosen provider. -/
def runMeetingExternal (cfg : Config) (call : FlowCall) (flow : IvrFlowGraph)
    (node : IvrGraphNode) (providerPrompt idPrompt : Option Prompt)
    (providers : List MeetingProvider) (lastDigit digits : String) : CallProg FlowStep := do
  let chosen ← promptAndCollect call.endpoint (promptOr cfg providerPrompt
    "say:Please select a provider.") 5000 3 none
  let chosen := String.ofList (chosen.toList.take 1)
  let hungUp : Bool ← ask (.isHungUp call.endpoint)
  if hungUp then pure (.done .hangup)
  else if chosen = "" then pure (.goto (flow.fallback node.id) lastDigit digits)
  else
    match providers.find? fun p => p.digit = chosen with
    | none => do
      playSafe call.endpoint "say:Invalid selection."
      pure (.goto (flow.fallback node.id) lastDigit digits)
    | some provider =>
      if provider.domain = "" then do
        playSafe call.endpoint "say:Invalid selection."
        pure (.goto (flow.fallback node.id) lastDigit digits)
      else do
        let entered ← promptAndCollect call.endpoint (promptOr cfg idPrompt
          "say:Please enter the meeting ID.") 10000 3 none
        let hungUp : Bool ← ask (.isHungUp call.endpoint)
        if hungUp then pure (.done .hangup)
        else if entered = "" then pure (.goto (flow.fallback node.id) lastDigit digits)
        else
          joinMeetingTarget call flow node (entered ++ "@" ++ provider.domain)
            (lastChar entered) (digits ++ entered)

/-- One node of a flow. -/
def runNode (cfg : Config) (rt : Runtime) (call : FlowCall) (flow : IvrFlowGraph)
    (node : IvrGraphNode) (lastDigit digits : String) : CallProg FlowStep :=
  match node.data with
  | .start greeting => do
    playPrompt cfg call greeting
    pure (.goto (flow.next node.id) lastDigit digits)
  | .play prompt => do
    playPrompt cfg call prompt
    pure (.goto (flow.next node.id) lastDigit digits)
  | .menu prompt validDigits tries timeoutMs invalidPrompt options =>
    runMenu cfg call flow node prompt validDigits tries timeoutMs invalidPrompt options lastDigit
      digits
  | .condition data => do
    let now : Nat × Nat ← ask .hoursAndDay
    let truthy := evaluateCondition rt data
      { callerId := call.callerNumber, dialedNumber := call.dialedNumber, lastDigit, digits
        hours := now.1, day := now.2 }
    pure (.goto (flow.branch node.id truthy) lastDigit digits)
  | .transfer department _ _ => do
    let transferred ← flowTransfer cfg call department
    pure (.done (if transferred then .transferred else .announced))
  | .meetingJoinInternal prompt apiUrl method =>
    runMeetingInternal cfg call flow node prompt apiUrl method lastDigit digits
  | .meetingJoinExternal providerPrompt idPrompt providers =>
    runMeetingExternal cfg call flow node providerPrompt idPrompt providers lastDigit digits
  | .voicemail mailbox maxSeconds greeting => do
    let named := trim (mailbox.getD "")
    let _ ← captureVoicemail cfg call.endpoint (if named = "" then call.dialedNumber else named)
      call.callerNumber call.fromName (renderPrompt cfg.soundsBasePath greeting) maxSeconds
    pure (.done .voicemail)
  | .email connectorId recipient subject body => do
    let vars := [("caller_id", call.callerNumber), ("caller_number", call.callerNumber),
      ("destination_number", call.dialedNumber), ("dialed_number", call.dialedNumber),
      ("last_digit", lastDigit), ("digits", digits)]
    flowSendEmail rt (connectorId.getD "") (substituteVars (recipient.getD "") vars)
      (substituteVars (subject.getD "") vars) (substituteVars (body.getD "") vars)
    pure (.goto (flow.next node.id) lastDigit digits)
  | .hangup => pure (.done .hangup)
  | .unknown _ => pure (.done .error)

/-- Hard ceiling on node hops. -/
def MAX_HOPS : Nat := 50

/-- The interpreter's loop, with the hops that are left. -/
def runFlowLoop (cfg : Config) (rt : Runtime) (call : FlowCall) (flow : IvrFlowGraph) :
    Nat → Option IvrGraphNode → String → String → CallProg FlowResult
  | _, none, _, _ => pure .completed
  | 0, some _, _, _ => pure .error
  | hops + 1, some node, lastDigit, digits => do
    let hungUp : Bool ← ask (.isHungUp call.endpoint)
    if hungUp then pure .hangup
    else do
      let step ← runNode cfg rt call flow node lastDigit digits
      match step with
      | .done result => pure result
      | .goto next lastDigit digits => runFlowLoop cfg rt call flow hops next lastDigit digits

/-- Run a flow against a connected caller. -/
def runFlow (cfg : Config) (rt : Runtime) (call : FlowCall) (flow : IvrFlowGraph) :
    CallProg FlowResult :=
  match findStart flow.nodes with
  | none => pure .error
  | some start => runFlowLoop cfg rt call flow MAX_HOPS (some start) "" ""

/-! ## The IVR -/

/-- The status a finished flow leaves on the call. -/
def FlowResult.status : FlowResult → CallStatus
  | .voicemail => .voicemail
  | .announced => .missed
  | _ => .answered

/-- Run the custom flow; unless it transferred the caller, the call is over. -/
def runFlowForCall (cfg : Config) (rt : Runtime) (flow : IvrFlowGraph)
    (endpoint dialog : Leg) (callId callerNumber calledNumber : String) : CallProg Unit := do
  setStatus callId .answered
  let dir ← directory
  let fromName := ((dir.getUser callerNumber).map SipUser.name).getD ""
  let result ← runFlow cfg rt
    { endpoint, callId, callerNumber, dialedNumber := calledNumber
      fromName := if fromName = "" then callerNumber else fromName } flow
  if result = .transferred then pure ()
  else do
    setStatus callId result.status
    destroyLegs dialog endpoint

/-- The built-in language and department menus, and the hold music after them. -/
def builtInMenu (cfg : Config) (endpoint : Leg) (callId : String) : CallProg Unit := do
  playSafe endpoint "say:Welcome to Enjoys Voice."
  let lang ← promptAndCollect endpoint "say:Press 1 for English. Press 2 for Hindi." 7000 2
    (some "12")
  let menuPrompt := if lang = "2" then
      "say:hi:1 बिक्री. 2 तकनीकी सहायता. 3 बिलिंग. 9 ग्राहक सेवा."
    else "say:Press 1 for Sales. Press 2 for Support. Press 3 for Billing. " ++
      "Press 9 for Customer Care."
  let _ ← promptAndCollect endpoint menuPrompt 7000 2 (some "1239")
  setStatus callId .answered
  ask (.executeAsync endpoint "playback" cfg.holdMusic)

/-- The caller on the media server: the published flow of the dialed number, or the
    built-in menu. -/
def serveIvr (cfg : Config) (rt : Runtime) (endpoint dialog : Leg)
    (callId callerNumber calledNumber : String) : CallProg Unit := do
  prepareVoice cfg endpoint
  let flow? : Option IvrFlowGraph ← ask (.getIvrFlow calledNumber)
  match flow? with
  | some flow =>
    if flow.enabled ∧ flow.nodes ≠ [] then
      runFlowForCall cfg rt flow endpoint dialog callId callerNumber calledNumber
    else builtInMenu cfg endpoint callId
  | none => builtInMenu cfg endpoint callId

/-- The caller's number as the handlers see it: `req.callingNumber || 'unknown'`. -/
def Request.caller (req : Request) : String :=
  if truthy req.callingNumber then req.callingNumber.getD "" else "unknown"

/-- Log an IVR call that the pipeline did not log; the new call id. -/
def logIvrCall (callerNumber calledNumber : String) : CallProg String := do
  let callId : String ← ask .randomUUID
  let startTime : String ← ask .timestamp
  let dir ← directory
  let name := ((dir.getUser callerNumber).map SipUser.name).getD ""
  ask (.logCall
    { id := callId, fromLeg := callerNumber, toLeg := calledNumber
      fromName := if name = "" then callerNumber else name
      status := .ringing, direction := .inbound, startTime })
  pure callId

/-- Answer the caller on the media server and serve the call. -/
def answerIvr (cfg : Config) (rt : Runtime) (callId callerNumber calledNumber : String) :
    CallProg Unit := do
  let up : Bool ← ask .ensureConnected
  if !up then do
    send 503
    setStatus callId .failed
  else do
    let failed : CallProg Unit := do
      setStatus callId .failed
      sendUnlessFinal 503 (some "Service Unavailable")
    let caller : Except SipError (Leg × Leg) ← ask .connectCaller
    match caller with
    | .error _ => failed
    | .ok (endpoint, dialog) =>
      (serveIvr cfg rt endpoint dialog callId callerNumber calledNumber).tryCatch fun _ => do
        failed
        destroyLegs dialog endpoint

/-- Answer a call into the IVR, under the call id of the pipeline and the number it dialed,
    or under a call id of its own. -/
def handleIncomingCall (cfg : Config) (rt : Runtime) (req : Request)
    (existing : Option (String × String)) : CallProg Unit :=
  let dialed := (existing.map Prod.snd).getD ""
  let calledNumber := if dialed ≠ "" then dialed
    else if req.calledNumber ≠ "" then req.calledNumber else "unknown"
  match existing with
  | some (callId, _) => answerIvr cfg rt callId req.caller calledNumber
  | none => do
    let callId ← logIvrCall req.caller calledNumber
    answerIvr cfg rt callId req.caller calledNumber

end CallNet
