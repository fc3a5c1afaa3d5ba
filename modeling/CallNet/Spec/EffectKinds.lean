import CallNet.Engine.SipServer
import CallNet.Spec.Performs

/-!
# Kinds of effects

What an effect is about, and for each program of the media layer and for the handlers which
kinds of effects they perform.  Most properties of the call path concern a few kinds, and
every program that performs none of them can be passed over.
-/

namespace CallNet

inductive EffectKind where
  /-- Bans and rate limits. -/
  | guard
  | read
  | rule
  | flow
  | token
  | log
  | update
  | note
  | mail
  /-- Webhooks and emails. -/
  | outside
  | reply
  | query
  /-- A B2BUA call. -/
  | ring
  /-- An outbound leg. -/
  | leg
  /-- The caller's side of a dialog. -/
  | answer
  | hook
  | hangup
  | media
  | queue
  | room
deriving DecidableEq, Repr

def Effect.kind : Effect → EffectKind
  | .isBanned _ | .recordOffense _ _ | .sipRates | .setSipRates _ | .teamsAttempts
  | .setTeamsAttempts _ => .guard
  | .snapshot | .getConnector _ | .randomUUID | .nowMs | .timestamp | .hoursAndDay | .dateDir
  | .evaluate _ | .announcement _ | .queues => .read
  | .getRoutingRule _ => .rule
  | .getIvrFlow _ => .flow
  | .verifyWidgetToken _ => .token
  | .logCall _ => .log
  | .updateCall _ _ => .update
  | .audit _ _ _ _ | .notify _ _ _ | .sendIncomingCall _ _ _ _ => .note
  | .addVoicemail _ => .mail
  | .sendConnectorEmail _ _ _ _ | .fetch _ _ => .outside
  | .send _ _ _ => .reply
  | .finalResponseSent => .query
  | .createB2BUA _ _ _ => .ring
  | .createUAC _ => .leg
  | .createUAS _ | .connectCaller => .answer
  | .onDestroy _ _ => .hook
  | .destroy _ => .hangup
  | .ensureConnected | .isConnected | .createEndpoint | .execute _ _ _ | .executeAsync _ _ _
  | .play _ _ | .playAndWait _ _ _ | .isHungUp _ | .record _ _ _ | .modify _ _ | .bridge _ _
  | .join _ _ _ | .sleep _ => .media
  | .queue _ | .enqueueCaller _ _ _ => .queue
  | .getRoom _ | .ensureRoom _ _ _ | .markRinging _ _ | .markJoined _ _ _ | .markLeft _ _ => .room

/-- The program performs effects of these kinds only. -/
abbrev Uses (K : EffectKind → Prop) {α : Type} (p : CallProg α) : Prop := Performs (fun e => K e.kind) p

theorem Uses.weaken {K K' : EffectKind → Prop} {α : Type} {p : CallProg α} (hp : Uses K p)
    (h : ∀ k, K k → K' k) : Uses K' p := hp.mono fun _ he => h _ he

/-- What is played to an answered caller, until it is hung up. -/
def EffectKind.Playing : EffectKind → Prop
  | .media | .hangup => True
  | _ => False

/-- What happens on the endpoint of an answered caller. -/
def EffectKind.Inner : EffectKind → Prop
  | .media | .read | .update | .note | .mail | .outside | .hangup | .hook => True
  | _ => False

theorem EffectKind.Playing.inner {k : EffectKind} (h : k.Playing) : k.Inner := by
  cases k <;> trivial

section Playing

variable {cfg : Config}

theorem playSafe_playing (endpoint : Leg) (file : String) :
    Uses EffectKind.Playing (playSafe endpoint file) := performs_ignoring trivial

theorem setVoice_playing (endpoint : Leg) : Uses EffectKind.Playing (setVoice cfg endpoint) := by
  have hset : ∀ arg, Uses EffectKind.Playing (ask (.execute endpoint "set" arg)) :=
    fun arg => performs_ask trivial
  refine performs_bind (hset _) fun _ => performs_bind (performs_ofExcept _) fun _ => ?_
  exact performs_bind (hset _) fun _ => performs_ofExcept _

theorem prepareVoice_playing (endpoint : Leg) :
    Uses EffectKind.Playing (prepareVoice cfg endpoint) := by
  refine performs_tryCatch (performs_bind (setVoice_playing endpoint) fun _ => ?_)
    fun _ => performs_pure _
  exact performs_bind (performs_ask trivial) fun _ => performs_ofExcept _

theorem destroyLegs_playing (endpoint dialog : Leg) :
    Uses EffectKind.Playing (destroyLegs endpoint dialog) :=
  performs_bind (performs_ask trivial) fun _ => performs_ask trivial

end Playing

section Inner

variable {cfg : Config} {rt : Runtime}

theorem Uses.inner {α : Type} {p : CallProg α} (hp : Uses EffectKind.Playing p) :
    Uses EffectKind.Inner p := hp.weaken fun _ h => h.inner

theorem playSafe_inner (endpoint : Leg) (file : String) :
    Uses EffectKind.Inner (playSafe endpoint file) := (playSafe_playing _ _).inner

theorem collectLoop_inner (endpoint : Leg) (prompt : String) (waitMs : Nat)
    (valid : Option String) (tries : Nat) :
    Uses EffectKind.Inner (collectLoop endpoint prompt waitMs valid tries) := by
  induction tries with
  | zero => exact performs_pure _
  | succ tries ih =>
    refine performs_bind (performs_ask trivial) fun heard => ?_
    cases heard with
    | none => exact performs_pure _
    | some digit => exact performs_ite (fun _ => performs_pure _) fun _ => ih

theorem promptAndCollect_inner (endpoint : Leg) (prompt : String) (waitMs tries : Nat)
    (valid : Option String) :
    Uses EffectKind.Inner (promptAndCollect endpoint prompt waitMs tries valid) := by
  refine performs_bind (performs_ask trivial) fun _ => ?_
  exact performs_bind (performs_ofExcept _) fun _ => collectLoop_inner _ _ _ _ _

theorem destroyAll_inner (legs : List Leg) : Uses EffectKind.Inner (destroyAll legs) := by
  induction legs with
  | nil => exact performs_pure _
  | cons leg legs ih => exact performs_bind (performs_ask trivial) fun _ => ih

theorem destroyLegs_inner (endpoint dialog : Leg) :
    Uses EffectKind.Inner (destroyLegs endpoint dialog) := (destroyLegs_playing _ _).inner

theorem notify_inner (extension event : String) (data : List (String × String)) :
    Uses EffectKind.Inner (notify extension event data) := performs_ask trivial

theorem setStatus_inner (callId : String) (status : CallStatus) :
    Uses EffectKind.Inner (setStatus callId status) := performs_ask trivial

theorem directory_inner : Uses EffectKind.Inner directory := performs_directory trivial

theorem captureVoicemail_inner (endpoint : Leg) (mailbox caller name : String)
    (greeting : Option String) (maxSeconds : Option Nat) :
    Uses EffectKind.Inner (captureVoicemail cfg endpoint mailbox caller name greeting maxSeconds) := by
  refine performs_ite (fun _ => performs_pure _) fun _ => ?_
  refine performs_bind (performs_ask trivial) fun _ => performs_bind (performs_ask trivial)
    fun _ => performs_bind (performs_ask trivial) fun _ => ?_
  refine performs_bind (performs_ask trivial) fun _ => ?_
  refine performs_bind (performs_tryCatch (setVoice_playing _).inner fun _ => performs_pure _) fun _ => ?_
  refine performs_bind (playSafe_inner _ _) fun _ => performs_bind (playSafe_inner _ _) fun _ => ?_
  refine performs_bind (performs_ask trivial) fun _ => ?_
  refine performs_bind (performs_ofExcept _) fun _ => performs_bind (performs_ask trivial)
    fun _ => performs_bind (performs_ofExcept _) fun _ => ?_
  refine performs_bind (performs_ask trivial) fun _ => performs_bind (performs_ask trivial)
    fun _ => ?_
  exact performs_bind (notify_inner _ _ _) fun _ => performs_pure _

theorem bridgeMeeting_inner (aLeg dialog bLeg uac : Leg) (conferenceId : String) :
    Uses EffectKind.Inner (bridgeMeeting cfg aLeg dialog bLeg uac conferenceId) := by
  have hhook : ∀ leg acts, Uses EffectKind.Inner (ask (.onDestroy leg acts)) :=
    fun leg acts => performs_ask trivial
  refine performs_bind (performs_ask trivial) fun _ => ?_
  refine performs_bind (performs_ofExcept _) fun _ => performs_bind (performs_ask trivial) fun _ => ?_
  refine performs_bind (performs_ignoring trivial) fun _ => ?_
  refine performs_bind (hhook _ _) fun _ => performs_bind (hhook _ _) fun _ => ?_
  refine performs_bind (hhook _ _) fun _ => performs_bind (hhook _ _) fun _ => ?_
  refine performs_bind (performs_ask trivial) fun _ => ?_
  exact performs_bind (performs_ofExcept _) fun _ => performs_pure _

/-! ### Flows -/

theorem flowTransfer_inner (call : FlowCall) (department : Option String) :
    Uses EffectKind.Inner (flowTransfer cfg call department) := by
  have hpark : Uses EffectKind.Inner (do
      setStatus call.callId .answered
      ask (.executeAsync call.endpoint "playback" cfg.holdMusic)
      pure true) :=
    performs_bind (setStatus_inner _ _) fun _ => performs_bind (performs_ask trivial) fun _ =>
      performs_pure _
  refine performs_ite (fun _ => hpark) fun _ => performs_bind (performs_ask trivial) fun decision => ?_
  cases decision with
  | error _ => exact hpark
  | ok d =>
    refine performs_ite (fun _ => performs_bind (performs_ask trivial) fun _ => ?_) fun _ => hpark
    refine performs_bind (playSafe_inner _ _) fun _ => ?_
    exact performs_bind (setStatus_inner _ _) fun _ => performs_pure _

theorem flowSendEmail_inner (connectorId recipient subject body : String) :
    Uses EffectKind.Inner (flowSendEmail rt connectorId recipient subject body) := by
  unfold flowSendEmail
  split
  · exact performs_pure _
  · refine performs_ite (fun _ => performs_pure _) fun _ => ?_
    refine performs_bind (performs_ask trivial) fun connector => ?_
    cases connector with
    | none => exact performs_pure _
    | some c => exact performs_ite (fun _ => performs_pure _) fun _ => performs_ignoring trivial

theorem joinMeetingTarget_inner (call : FlowCall) (flow : IvrFlowGraph) (node : IvrGraphNode)
    (target lastDigit digits : String) :
    Uses EffectKind.Inner (joinMeetingTarget call flow node target lastDigit digits) := by
  refine performs_ite (fun _ => ?_) fun _ => ?_
  · exact performs_bind (playSafe_inner _ _) fun _ => performs_pure _
  · exact performs_bind (performs_ignoring trivial) fun _ => performs_pure _

theorem playPrompt_inner (call : FlowCall) (prompt : Option Prompt) :
    Uses EffectKind.Inner (playPrompt cfg call prompt) := by
  unfold playPrompt
  split
  · exact playSafe_inner _ _
  · exact performs_pure _

/-- Read digits, and go on unless the caller hung up. -/
theorem collect_inner {α : Type} {endpoint : Leg} {prompt : String} {waitMs tries : Nat}
    {valid : Option String} {f : String → Bool → CallProg α}
    (hf : ∀ digits hungUp, Uses EffectKind.Inner (f digits hungUp)) :
    Uses EffectKind.Inner (do
      let digits ← promptAndCollect endpoint prompt waitMs tries valid
      let hungUp : Bool ← ask (.isHungUp endpoint)
      f digits hungUp) :=
  performs_bind (promptAndCollect_inner _ _ _ _ _) fun digits =>
    performs_bind (performs_ask trivial) fun hungUp => hf digits hungUp

theorem runMenu_inner (call : FlowCall) (flow : IvrFlowGraph) (node : IvrGraphNode)
    (prompt : Option Prompt) (validDigits : Option String) (tries timeoutMs : Option Nat)
    (invalidPrompt : Option Prompt) (options : List MenuOption) (lastDigit digits : String) :
    Uses EffectKind.Inner (runMenu cfg call flow node prompt validDigits tries timeoutMs
      invalidPrompt options lastDigit digits) := by
  refine collect_inner fun digit hungUp => performs_ite (fun _ => performs_pure _) fun _ => ?_
  dsimp only
  split
  · exact performs_pure _
  · exact performs_bind (playPrompt_inner _ _) fun _ => performs_pure _

theorem runMeetingInternal_inner (call : FlowCall) (flow : IvrFlowGraph) (node : IvrGraphNode)
    (prompt : Option Prompt) (apiUrl method : Option String) (lastDigit digits : String) :
    Uses EffectKind.Inner
      (runMeetingInternal cfg call flow node prompt apiUrl method lastDigit digits) := by
  refine collect_inner fun entered hungUp => performs_ite (fun _ => performs_pure _) fun _ => ?_
  refine performs_ite (fun _ => performs_pure _) fun _ => performs_ite (fun _ => ?_) fun _ => ?_
  · exact joinMeetingTarget_inner _ _ _ _ _ _
  · exact performs_bind (performs_ask trivial) fun result => joinMeetingTarget_inner _ _ _ _ _ _

theorem runMeetingExternal_inner (call : FlowCall) (flow : IvrFlowGraph) (node : IvrGraphNode)
    (providerPrompt idPrompt : Option Prompt) (providers : List MeetingProvider)
    (lastDigit digits : String) :
    Uses EffectKind.Inner
      (runMeetingExternal cfg call flow node providerPrompt idPrompt providers lastDigit digits) := by
  have hinvalid : Uses EffectKind.Inner (do
      playSafe call.endpoint "say:Invalid selection."
      pure (FlowStep.goto (flow.fallback node.id) lastDigit digits)) :=
    performs_bind (playSafe_inner _ _) fun _ => performs_pure _
  refine collect_inner fun chosen hungUp => performs_ite (fun _ => performs_pure _) fun _ => ?_
  refine performs_ite (fun _ => performs_pure _) fun _ => ?_
  split
  · exact hinvalid
  · refine performs_ite (fun _ => hinvalid) fun _ => collect_inner fun entered hungUp => ?_
    refine performs_ite (fun _ => performs_pure _) fun _ => ?_
    exact performs_ite (fun _ => performs_pure _) fun _ => joinMeetingTarget_inner _ _ _ _ _ _

/-- One node, by its kind. -/
theorem runNode_inner (call : FlowCall) (flow : IvrFlowGraph) (node : IvrGraphNode)
    (lastDigit digits : String) :
    Uses EffectKind.Inner (runNode cfg rt call flow node lastDigit digits) := by
  unfold runNode
  split
  case h_1 => exact performs_bind (playPrompt_inner _ _) fun _ => performs_pure _
  case h_2 => exact performs_bind (playPrompt_inner _ _) fun _ => performs_pure _
  case h_3 => exact runMenu_inner _ _ _ _ _ _ _ _ _ _ _
  case h_4 => exact performs_bind (performs_ask trivial) fun _ => performs_pure _
  case h_5 => exact performs_bind (flowTransfer_inner _ _) fun _ => performs_pure _
  case h_6 => exact runMeetingInternal_inner _ _ _ _ _ _ _ _
  case h_7 => exact runMeetingExternal_inner _ _ _ _ _ _ _ _
  case h_8 => exact performs_bind (captureVoicemail_inner _ _ _ _ _ _) fun _ => performs_pure _
  case h_9 => exact performs_bind (flowSendEmail_inner _ _ _ _) fun _ => performs_pure _
  case h_10 => exact performs_pure _
  case h_11 => exact performs_pure _

/-- The loop, by induction on the hops that are left. -/
theorem runFlowLoop_inner (call : FlowCall) (flow : IvrFlowGraph) (hops : Nat)
    (start : Option IvrGraphNode) (lastDigit digits : String) :
    Uses EffectKind.Inner (runFlowLoop cfg rt call flow hops start lastDigit digits) := by
  induction hops generalizing start lastDigit digits with
  | zero => cases start <;> exact performs_pure _
  | succ hops ih =>
    cases start with
    | none => exact performs_pure _
    | some node =>
      refine performs_bind (performs_ask trivial) fun hungUp => ?_
      refine performs_ite (fun _ => performs_pure _) fun _ => ?_
      refine performs_bind (runNode_inner _ _ _ _ _) fun step => ?_
      cases step with
      | done result => exact performs_pure _
      | goto next lastDigit digits => exact ih _ _ _

theorem runFlowForCall_inner (flow : IvrFlowGraph) (endpoint dialog : Leg)
    (callId callerNumber calledNumber : String) :
    Uses EffectKind.Inner
      (runFlowForCall cfg rt flow endpoint dialog callId callerNumber calledNumber) := by
  refine performs_bind (setStatus_inner _ _) fun _ => performs_bind directory_inner fun dir => ?_
  refine performs_bind ?_ fun result => performs_ite (fun _ => performs_pure _) fun _ => ?_
  · unfold runFlow
    split
    · exact performs_pure _
    · exact runFlowLoop_inner _ _ _ _ _ _
  · exact performs_bind (setStatus_inner _ _) fun _ => destroyLegs_inner _ _

theorem builtInMenu_inner (endpoint : Leg) (callId : String) :
    Uses EffectKind.Inner (builtInMenu cfg endpoint callId) := by
  refine performs_bind (playSafe_inner _ _) fun _ => ?_
  refine performs_bind (promptAndCollect_inner _ _ _ _ _) fun lang => ?_
  refine performs_bind (promptAndCollect_inner _ _ _ _ _) fun _ => ?_
  exact performs_bind (setStatus_inner _ _) fun _ => performs_ask trivial

end Inner

end CallNet
