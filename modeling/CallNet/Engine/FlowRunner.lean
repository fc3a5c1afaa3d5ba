import CallNet.Engine.IvrSystem

/-!
# The flow interpreter over its handlers

`runFlow` of `sip/ivr/flow-runner.ts` does all its media work through the
`FlowRunnerHandlers` it is given.  Here it is a program over the handlers' calls, so that
what it does can be stated for whatever they answer; the IVR system's own handlers
(`sip/ivr.system.ts`) turn it into the interpreter of `Engine/IvrSystem`.
-/

namespace CallNet.FlowRunner

/-! ## Handlers -/

/-- The options of `collect`, as far as more than the log reads them. -/
structure CollectOpts where
  valid : Option String := none
  tries : Nat
  waitMs : Nat
deriving DecidableEq, Repr

structure TransferOpts where
  department : Option String := none
  extension : Option String := none
  ringSeconds : Option Nat := none
  isExternalSip : Bool := false
deriving DecidableEq, Repr

structure EmailOpts where
  connectorId : String
  recipient : String
  subject : String
  body : String
deriving DecidableEq, Repr

/-- What the interpreter asks of its surroundings. -/
inductive Op where
  | play (file : String)
  | collect (prompt : String) (opts : CollectOpts)
  | voicemail (mailbox : String) (greeting : Option String) (maxSeconds : Option Nat)
  | transfer (opts : TransferOpts)
  | sendEmail (opts : EmailOpts)
  | isHungUp
  -- not handlers: the webhook of a meeting node and the clock of a condition
  | fetch (url method : String)
  | hoursAndDay
deriving DecidableEq, Repr

/-- How a call settles; a handler's promise may be rejected. -/
def Op.Answer : Op → Type
  | .play _ | .voicemail _ _ _ | .sendEmail _ => Except SipError Unit
  | .collect _ _ => Except SipError String
  | .transfer _ => Except SipError Bool
  | .isHungUp => Bool
  | .fetch _ _ => Option String
  | .hoursAndDay => Nat × Nat

/-- The handlers that act on the caller's channel or on their behalf. -/
def Op.IsMedia : Op → Prop
  | .play _ | .collect _ _ | .voicemail _ _ _ | .transfer _ | .sendEmail _ => True
  | .isHungUp | .fetch _ _ | .hoursAndDay => False

/-- The signature of the interpreter. -/
abbrev handlers : Signature := ⟨Op, Op.Answer⟩

/-- Programs of the interpreter. -/
abbrev FlowProg := Prog handlers SipError

/-- The calls of a run, with how they settled. -/
abbrev Calls := List (Prog.Event handlers)

/-- Make one call. -/
def ask (o : Op) : FlowProg o.Answer := Prog.perform (S := handlers) o

def play (file : String) : FlowProg Unit := do
  let settled : Except SipError Unit ← ask (.play file)
  Prog.ofExcept settled

def collect (prompt : String) (opts : CollectOpts) : FlowProg String := do
  let settled : Except SipError String ← ask (.collect prompt opts)
  Prog.ofExcept settled

def voicemail (mailbox : String) (greeting : Option String) (maxSeconds : Option Nat) :
    FlowProg Unit := do
  let settled : Except SipError Unit ← ask (.voicemail mailbox greeting maxSeconds)
  Prog.ofExcept settled

def transfer (opts : TransferOpts) : FlowProg Bool := do
  let settled : Except SipError Bool ← ask (.transfer opts)
  Prog.ofExcept settled

def sendEmail (opts : EmailOpts) : FlowProg Unit := do
  let settled : Except SipError Unit ← ask (.sendEmail opts)
  Prog.ofExcept settled

def isHungUp : FlowProg Bool := ask .isHungUp

/-- The `result` of a successful webhook. -/
def fetch (url method : String) : FlowProg (Option String) := ask (.fetch url method)

/-! ## Interpreter -/

/-- The channel facts of a call. -/
structure Context where
  callId : String
  callerNumber : String
  /-- The dialed DID or extension that selected the flow. -/
  dialedNumber : String
deriving DecidableEq, Repr

/-- Play a node's prompt, if it can be played. -/
def playPrompt (basePath : String) (prompt : Option Prompt) : FlowProg Unit :=
  match renderPrompt basePath prompt with
  | some file => play file
  | none => pure ()

def promptOr (basePath : String) (prompt : Option Prompt) (fallback : String) : String :=
  (renderPrompt basePath prompt).getD fallback

/-- A menu: the pressed digit's edge, else the invalid prompt and the fallback edge. -/
def runMenu (basePath : String) (flow : IvrFlowGraph) (node : IvrGraphNode)
    (prompt : Option Prompt) (validDigits : Option String) (tries timeoutMs : Option Nat)
    (invalidPrompt : Option Prompt) (options : List MenuOption) (lastDigit digits : String) :
    FlowProg FlowStep := do
  let valid := if truthy validDigits then validDigits.getD ""
    else String.join (options.map MenuOption.digit)
  let digit ← collect (promptOr basePath prompt "say:Please make a selection.")
    { valid := some valid, tries := tries.getD 2, waitMs := timeoutMs.getD 7000 }
  -- '' is both no input and a hangup
  let hungUp ← isHungUp
  if hungUp then pure (.done .hangup)
  else
    let lastDigit := if digit = "" then lastDigit else digit
    let digits := digits ++ digit
    let target := if digit = "" then none else resolveMenuTarget options flow.edges node.id digit
    match target.filter (· ≠ "") with
    | some target => pure (.goto (nodeById flow.nodes target) lastDigit digits)
    | none => do
      playPrompt basePath invalidPrompt
      pure (.goto (flow.fallback node.id) lastDigit digits)

/-- The end of a meeting node: bridge to the target, or go on when there is none. -/
def joinMeetingTarget (flow : IvrFlowGraph) (node : IvrGraphNode)
    (target lastDigit digits : String) : FlowProg FlowStep :=
  if target = "" then do
    play "say:We could not verify that meeting ID."
    pure (.goto (flow.fallback node.id) lastDigit digits)
  else do
    -- whether the bridge came about is not looked at
    let _ ← transfer { extension := some target, isExternalSip := true }
    pure (.done .transferred)

/-- A meeting whose webhook turns the collected digits into the target. -/
def runMeetingInternal (basePath : String) (ctx : Context) (flow : IvrFlowGraph)
    (node : IvrGraphNode) (prompt : Option Prompt) (apiUrl method : Option String)
    (lastDigit digits : String) : FlowProg FlowStep := do
  let entered ← collect (promptOr basePath prompt "say:Please enter the meeting ID.")
    { tries := 3, waitMs := 10000 }
  let hungUp ← isHungUp
  if hungUp then pure (.done .hangup)
  else if entered = "" then pure (.goto (flow.fallback node.id) lastDigit digits)
  else if !truthy apiUrl then
    joinMeetingTarget flow node "" (lastChar entered) (digits ++ entered)
  else do
    let url := substituteVars (apiUrl.getD "")
      [("digits", entered), ("meetingId", entered), ("caller_id", ctx.callerNumber)]
    let result ← fetch url (method.getD "GET")
    joinMeetingTarget flow node (result.getD "") (lastChar entered) (digits ++ entered)

/-- A meeting at the domain of a chosen provider. -/
def runMeetingExternal (basePath : String) (flow : IvrFlowGraph) (node : IvrGraphNode)
    (providerPrompt idPrompt : Option Prompt) (providers : List MeetingProvider)
    (lastDigit digits : String) : FlowProg FlowStep := do
  let chosen ← collect (promptOr basePath providerPrompt "say:Please select a provider.")
    { tries := 3, waitMs := 5000 }
  let chosen := String.ofList (chosen.toList.take 1)
  let hungUp ← isHungUp
  if hungUp then pure (.done .hangup)
  else if chosen = "" then pure (.goto (flow.fallback node.id) lastDigit digits)
  else
    match providers.find? fun p => p.digit = chosen with
    | none => do
      play "say:Invalid selection."
      pure (.goto (flow.fallback node.id) lastDigit digits)
    | some provider =>
      if provider.domain = "" then do
        play "say:Invalid selection."
        pure (.goto (flow.fallback node.id) lastDigit digits)
      else do
        let entered ← collect (promptOr basePath idPrompt "say:Please enter the meeting ID.")
          { tries := 3, waitMs := 10000 }
        let hungUp ← isHungUp
        if hungUp then pure (.done .hangup)
        else if entered = "" then pure (.goto (flow.fallback node.id) lastDigit digits)
        else
          joinMeetingTarget flow node (entered ++ "@" ++ provider.domain)
            (lastChar entered) (digits ++ entered)

/-- One node of a flow. -/
def runNode (basePath : String) (rt : Runtime) (ctx : Context) (flow : IvrFlowGraph)
    (node : IvrGraphNode) (lastDigit digits : String) : FlowProg FlowStep :=
  match node.data with
  | .start greeting => do
    playPrompt basePath greeting
    pure (.goto (flow.next node.id) lastDigit digits)
  | .play prompt => do
    playPrompt basePath prompt
    pure (.goto (flow.next node.id) lastDigit digits)
  | .menu prompt validDigits tries timeoutMs invalidPrompt options =>
    runMenu basePath flow node prompt validDigits tries timeoutMs invalidPrompt options lastDigit
      digits
  | .condition data => do
    let now : Nat × Nat ← ask .hoursAndDay
    let truthy := evaluateCondition rt data
      { callerId := ctx.callerNumber, dialedNumber := ctx.dialedNumber, lastDigit, digits
        hours := now.1, day := now.2 }
    pure (.goto (flow.branch node.id truthy) lastDigit digits)
  | .transfer department extension ringSeconds => do
    let transferred ← transfer { department, extension, ringSeconds }
    pure (.done (if transferred then .transferred else .announced))
  | .meetingJoinInternal prompt apiUrl method =>
    runMeetingInternal basePath ctx flow node prompt apiUrl method lastDigit digits
  | .meetingJoinExternal providerPrompt idPrompt providers =>
    runMeetingExternal basePath flow node providerPrompt idPrompt providers lastDigit digits
  | .voicemail mailbox maxSeconds greeting => do
    let named := trim (mailbox.getD "")
    voicemail (if named = "" then ctx.dialedNumber else named) (renderPrompt basePath greeting)
      maxSeconds
    pure (.done .voicemail)
  | .email connectorId recipient subject body => do
    let vars := [("caller_id", ctx.callerNumber), ("caller_number", ctx.callerNumber),
      ("destination_number", ctx.dialedNumber), ("dialed_number", ctx.dialedNumber),
      ("last_digit", lastDigit), ("digits", digits)]
    sendEmail
      { connectorId := connectorId.getD "", recipient := substituteVars (recipient.getD "") vars
        subject := substituteVars (subject.getD "") vars
        body := substituteVars (body.getD "") vars }
    pure (.goto (flow.next node.id) lastDigit digits)
  | .hangup => pure (.done .hangup)
  | .unknown _ => pure (.done .error)

/-- The interpreter's loop, with the hops that are left. -/
def runFlowLoop (basePath : String) (rt : Runtime) (ctx : Context) (flow : IvrFlowGraph) :
    Nat → Option IvrGraphNode → String → String → FlowProg FlowResult
  | _, none, _, _ => pure .completed
  | 0, some _, _, _ => pure .error
  | hops + 1, some node, lastDigit, digits => do
    let hungUp ← isHungUp
    if hungUp then pure .hangup
    else do
      let step ← runNode basePath rt ctx flow node lastDigit digits
      match step with
      | .done result => pure result
      | .goto next lastDigit digits => runFlowLoop basePath rt ctx flow hops next lastDigit digits

/-- Run a flow against a connected caller. -/
def runFlow (basePath : String) (rt : Runtime) (ctx : Context) (flow : IvrFlowGraph) :
    FlowProg FlowResult :=
  match findStart flow.nodes with
  | none => pure .error
  | some start => runFlowLoop basePath rt ctx flow MAX_HOPS (some start) "" ""

/-! ## The handlers of the IVR system -/

/-- `flowTransfer`: an external target is bridged to directly, anything else is routed. -/
def transferTo (cfg : Config) (call : FlowCall) (opts : TransferOpts) : CallProg Bool :=
  if opts.isExternalSip ∧ truthy opts.extension then do
    let bridged : Except SipError Unit ← CallNet.ask (.execute call.endpoint "bridge"
      (sipBridgeTarget (opts.extension.getD "")))
    pure bridged.toBool
  else flowTransfer cfg call opts.department

/-- What the IVR system does for a call of the interpreter. -/
def serve (cfg : Config) (rt : Runtime) (call : FlowCall) : ∀ o : Op, CallProg o.Answer
  | .play file => (playSafe call.endpoint file).attempt
  | .collect prompt opts =>
    (promptAndCollect call.endpoint prompt opts.waitMs opts.tries opts.valid).attempt
  | .voicemail mailbox greeting maxSeconds =>
    (do
      let _ ← captureVoicemail cfg call.endpoint mailbox call.callerNumber call.fromName greeting
        maxSeconds
      pure ()).attempt
  | .transfer opts => (transferTo cfg call opts).attempt
  | .sendEmail opts =>
    (flowSendEmail rt opts.connectorId opts.recipient opts.subject opts.body).attempt
  | .isHungUp => CallNet.ask (.isHungUp call.endpoint)
  | .fetch url method => CallNet.ask (.fetch url method)
  | .hoursAndDay => CallNet.ask .hoursAndDay

/-- The facts of a call that the interpreter reads. -/
def contextOf (call : FlowCall) : Context :=
  { callId := call.callId, callerNumber := call.callerNumber, dialedNumber := call.dialedNumber }

/-! ### The two readings agree -/

section Interp

variable {cfg : Config} {rt : Runtime} {call : FlowCall} {flow : IvrFlowGraph}
  {node : IvrGraphNode} {lastDigit digits : String}

theorem serve_total (o : Op) : (serve cfg rt call o).Total := by
  cases o with
  | isHungUp => exact fun _ => trivial
  | fetch url method => exact fun _ => trivial
  | hoursAndDay => exact fun _ => trivial
  | _ => exact Prog.attempt_total _

/-- A handler that is run to its end, and its value taken or its error thrown. -/
theorem interp_settled {α : Type} (p : CallProg α) :
    (p.attempt.bind fun settled =>
      (Prog.ofExcept settled : FlowProg α).interp (serve cfg rt call)) = p := by
  simp only [Prog.interp_ofExcept]
  exact Prog.attempt_bind_ofExcept p

theorem interp_play (file : String) :
    (play file).interp (serve cfg rt call) = playSafe call.endpoint file := interp_settled _

theorem interp_collect (prompt : String) (opts : CollectOpts) :
    (collect prompt opts).interp (serve cfg rt call) =
      promptAndCollect call.endpoint prompt opts.waitMs opts.tries opts.valid := interp_settled _

theorem interp_transfer (opts : TransferOpts) :
    (transfer opts).interp (serve cfg rt call) = transferTo cfg call opts := interp_settled _

theorem interp_voicemail (mailbox : String) (greeting : Option String) (maxSeconds : Option Nat) :
    (voicemail mailbox greeting maxSeconds).interp (serve cfg rt call) =
      (captureVoicemail cfg call.endpoint mailbox call.callerNumber call.fromName greeting
        maxSeconds).bind fun _ => .pure () := interp_settled _

theorem interp_sendEmail (opts : EmailOpts) :
    (sendEmail opts).interp (serve cfg rt call) =
      flowSendEmail rt opts.connectorId opts.recipient opts.subject opts.body := interp_settled _

theorem interp_fetch (url method : String) :
    (fetch url method).interp (serve cfg rt call) = CallNet.ask (.fetch url method) :=
  Prog.interp_perform _

theorem interp_isHungUp :
    isHungUp.interp (serve cfg rt call) = CallNet.ask (.isHungUp call.endpoint) :=
  Prog.interp_perform _

theorem interp_playPrompt (prompt : Option Prompt) :
    (playPrompt cfg.soundsBasePath prompt).interp (serve cfg rt call) =
      CallNet.playPrompt cfg call prompt := by
  unfold playPrompt CallNet.playPrompt
  cases renderPrompt cfg.soundsBasePath prompt with
  | none => rfl
  | some file => exact interp_play file

theorem interp_ite {α : Type} {c : Prop} [Decidable c] (p q : FlowProg α) :
    (if c then p else q).interp (serve cfg rt call) =
      if c then p.interp (serve cfg rt call) else q.interp (serve cfg rt call) := by
  split <;> rfl

theorem interp_runMenu (prompt : Option Prompt) (validDigits : Option String)
    (tries timeoutMs : Option Nat) (invalidPrompt : Option Prompt) (options : List MenuOption) :
    (runMenu cfg.soundsBasePath flow node prompt validDigits tries timeoutMs invalidPrompt options
        lastDigit digits).interp (serve cfg rt call) =
      CallNet.runMenu cfg call flow node prompt validDigits tries timeoutMs invalidPrompt options
        lastDigit digits := by
  unfold runMenu CallNet.runMenu
  simp only [Prog.bind_eq, Prog.interp_bind, interp_collect, interp_isHungUp, interp_ite]
  congr 1
  funext digit
  congr 1
  funext hungUp
  cases hungUp with
  | true => rfl
  | false =>
    simp only [Bool.false_eq_true, if_false]
    generalize Option.filter _ _ = target
    cases target with
    | some target => rfl
    | none =>
      simp only [Prog.interp_bind, interp_playPrompt]
      rfl

theorem interp_joinMeetingTarget (target : String) :
    (joinMeetingTarget flow node target lastDigit digits).interp (serve cfg rt call) =
      CallNet.joinMeetingTarget call flow node target lastDigit digits := by
  unfold joinMeetingTarget CallNet.joinMeetingTarget
  rw [interp_ite]
  split
  · rw [Prog.bind_eq, Prog.interp_bind, interp_play]
    rfl
  · rename_i htarget
    have hbridge : transferTo cfg call { extension := some target, isExternalSip := true } =
        (CallNet.ask (.execute call.endpoint "bridge" (sipBridgeTarget target))).bind
          fun bridged => .pure (Except.toBool bridged) :=
      if_pos ⟨rfl, truthy_some_iff.mpr htarget⟩
    rw [Prog.bind_eq, Prog.interp_bind, interp_transfer, hbridge]
    rfl

theorem interp_runMeetingInternal (prompt : Option Prompt) (apiUrl method : Option String) :
    (runMeetingInternal cfg.soundsBasePath (contextOf call) flow node prompt apiUrl method lastDigit
        digits).interp (serve cfg rt call) =
      CallNet.runMeetingInternal cfg call flow node prompt apiUrl method lastDigit digits := by
  unfold runMeetingInternal CallNet.runMeetingInternal
  simp only [Prog.bind_eq, Prog.interp_bind, interp_collect, interp_isHungUp, interp_ite]
  congr 1
  funext entered
  congr 1
  funext hungUp
  refine if_congr Iff.rfl rfl (if_congr Iff.rfl rfl (if_congr Iff.rfl ?_ ?_))
  · exact interp_joinMeetingTarget ""
  · simp only [interp_fetch, interp_joinMeetingTarget]
    rfl

theorem interp_runMeetingExternal (providerPrompt idPrompt : Option Prompt)
    (providers : List MeetingProvider) :
    (runMeetingExternal cfg.soundsBasePath flow node providerPrompt idPrompt providers lastDigit
        digits).interp (serve cfg rt call) =
      CallNet.runMeetingExternal cfg call flow node providerPrompt idPrompt providers lastDigit
        digits := by
  unfold runMeetingExternal CallNet.runMeetingExternal
  simp only [Prog.bind_eq, Prog.interp_bind, interp_collect, interp_isHungUp, interp_ite]
  congr 1
  funext chosen
  congr 1
  funext hungUp
  refine if_congr Iff.rfl rfl (if_congr Iff.rfl rfl ?_)
  generalize List.find? _ providers = provider
  cases provider with
  | none =>
    simp only [Prog.interp_bind, interp_play]
    rfl
  | some provider =>
    simp only [Prog.interp_bind, interp_play, interp_ite, interp_collect, interp_isHungUp,
      interp_joinMeetingTarget]
    rfl

theorem interp_runNode :
    (runNode cfg.soundsBasePath rt (contextOf call) flow node lastDigit digits).interp
        (serve cfg rt call) = CallNet.runNode cfg rt call flow node lastDigit digits := by
  unfold runNode CallNet.runNode
  cases node.data with
  | start greeting =>
    simp only [Prog.bind_eq, Prog.interp_bind, interp_playPrompt]
    rfl
  | play prompt =>
    simp only [Prog.bind_eq, Prog.interp_bind, interp_playPrompt]
    rfl
  | menu prompt validDigits tries timeoutMs invalidPrompt options =>
    exact interp_runMenu prompt validDigits tries timeoutMs invalidPrompt options
  | condition data => rfl
  | transfer department extension ringSeconds =>
    simp only [Prog.bind_eq, Prog.interp_bind, interp_transfer]
    rfl
  | meetingJoinInternal prompt apiUrl method => exact interp_runMeetingInternal prompt apiUrl method
  | meetingJoinExternal providerPrompt idPrompt providers =>
    exact interp_runMeetingExternal providerPrompt idPrompt providers
  | voicemail mailbox maxSeconds greeting =>
    simp only [Prog.bind_eq, Prog.interp_bind, interp_voicemail, Prog.bind_assoc]
    rfl
  | email connectorId recipient subject body =>
    simp only [Prog.bind_eq, Prog.interp_bind, interp_sendEmail]
    rfl
  | hangup => rfl
  | unknown kind => rfl

theorem interp_runFlowLoop (hops : Nat) (current : Option IvrGraphNode) :
    (runFlowLoop cfg.soundsBasePath rt (contextOf call) flow hops current lastDigit digits).interp
        (serve cfg rt call) = CallNet.runFlowLoop cfg rt call flow hops current lastDigit digits := by
  induction hops generalizing current lastDigit digits with
  | zero => cases current <;> rfl
  | succ hops ih =>
    cases current with
    | none => rfl
    | some node =>
      simp only [runFlowLoop, CallNet.runFlowLoop, Prog.bind_eq, Prog.interp_bind,
        interp_isHungUp, interp_ite, interp_runNode]
      congr 1
      funext hungUp
      refine if_congr Iff.rfl rfl ?_
      congr 1
      funext step
      -- a step that goes on is the next hop of both loops
      cases step with
      | done result => rfl
      | goto next lastDigit digits => exact ih next

/-- With the handlers of the IVR system, the interpreter is the one that runs there. -/
theorem interp_runFlow (cfg : Config) (rt : Runtime) (call : FlowCall) (flow : IvrFlowGraph) :
    (runFlow cfg.soundsBasePath rt (contextOf call) flow).interp (serve cfg rt call) =
      CallNet.runFlow cfg rt call flow := by
  unfold runFlow CallNet.runFlow
  cases findStart flow.nodes with
  | none => rfl
  | some start => exact interp_runFlowLoop MAX_HOPS (some start)

/-- What a call sees of a flow is a run of the interpreter against the handlers, each of its
    calls carried out by the IVR system. -/
theorem run_runFlow_iff {v : History} {r : Except SipError FlowResult} :
    Prog.Run (CallNet.runFlow cfg rt call flow) v r ↔
      ∃ t, Prog.Run (runFlow cfg.soundsBasePath rt (contextOf call) flow) t r ∧
        Prog.CarriedOut (serve cfg rt call) t v := by
  rw [← interp_runFlow cfg rt call flow]
  exact Prog.run_interp_iff serve_total

end Interp

/-! ## The flow branch of a call -/

/-- What the surrounding code does when the flow has ended: the caller's leg stays up after a
    transfer and is torn down after anything else, a failure included. -/
def afterFlow (endpoint dialog : Leg) (callId : String) :
    Except SipError FlowResult → CallProg Unit
  | .ok result =>
    if result = .transferred then pure ()
    else do
      setStatus callId result.status
      destroyLegs dialog endpoint
  | .error _ => do
    setStatus callId .failed
    sendUnlessFinal 503 (some "Service Unavailable")
    destroyLegs dialog endpoint

theorem afterFlow_total (endpoint dialog : Leg) (callId : String) (result : FlowResult) :
    (afterFlow endpoint dialog callId (.ok result)).Total := by
  unfold afterFlow
  dsimp only
  split
  · trivial
  · exact fun _ _ _ => trivial

/-- The `catch` covers the flow only, since the cleanup cannot fail. -/
theorem tryCatch_afterFlow (endpoint dialog : Leg) (callId : String) (p : CallProg FlowResult) :
    ((p.bind fun result => afterFlow endpoint dialog callId (.ok result)).tryCatch fun err =>
      afterFlow endpoint dialog callId (.error err)) =
        p.attempt.bind (afterFlow endpoint dialog callId) := by
  rw [Prog.tryCatch_bind (afterFlow_total endpoint dialog callId)]
  congr 1
  funext outcome
  cases outcome <;> rfl

/-- The flow branch of a call inside the `try` of `handleIncomingCall`: run the flow to its end,
    however it ends, then clean up. -/
theorem runFlowForCall_tryCatch (cfg : Config) (rt : Runtime) (flow : IvrFlowGraph)
    (endpoint dialog : Leg) (callId callerNumber calledNumber : String) :
    ((runFlowForCall cfg rt flow endpoint dialog callId callerNumber calledNumber).tryCatch
        fun _ => do
          setStatus callId .failed
          sendUnlessFinal 503 (some "Service Unavailable")
          destroyLegs dialog endpoint) = (do
      setStatus callId .answered
      let dir ← directory
      let fromName := ((dir.getUser callerNumber).map SipUser.name).getD ""
      let call : FlowCall :=
        { endpoint, callId, callerNumber, dialedNumber := calledNumber
          fromName := if fromName = "" then callerNumber else fromName }
      let outcome : Except SipError FlowResult ←
        ((runFlow cfg.soundsBasePath rt (contextOf call) flow).interp (serve cfg rt call)).attempt
      afterFlow endpoint dialog callId outcome) := by
  simp only [interp_runFlow]
  -- the status and the read of the directory cannot fail
  exact congrArg (Prog.op _) (funext fun _ => congrArg (Prog.op _) (funext fun snap =>
    tryCatch_afterFlow endpoint dialog callId _))

end CallNet.FlowRunner
