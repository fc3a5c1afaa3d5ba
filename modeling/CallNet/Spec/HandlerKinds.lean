import CallNet.Spec.EffectKinds

/-!
# What the handlers perform

For every route handler the kinds of effects it performs.  A device is rung only by the
trunk's and the internal handler, and legs are originated only by the handlers that dial.
-/

namespace CallNet

/-- The caller is answered or refused, and told so. -/
def EffectKind.Speaking : EffectKind → Prop
  | .reply | .query | .answer => True
  | k => k.Playing

/-- The caller is answered and its leg tied to another one. -/
def EffectKind.Tying : EffectKind → Prop
  | .answer | .hook => True
  | _ => False

/-- The caller is bridged to a trunk leg, or refused. -/
def EffectKind.Bridging : EffectKind → Prop
  | .leg | .answer | .hook | .reply => True
  | _ => False

/-- The caller is answered, told something, or refused. -/
def EffectKind.Answering : EffectKind → Prop
  | .reply | .query | .answer => True
  | k => k.Inner

/-- A call that may be put through to a leg. -/
def EffectKind.Dialing : EffectKind → Prop
  | .leg | .guard => True
  | k => k.Answering

/-- Anything an admitted call may need: no ban, no other token. -/
def EffectKind.Calling : EffectKind → Prop
  | .token => False
  | _ => True

/-- A call into a flow. -/
def EffectKind.Serving : EffectKind → Prop
  | .flow | .log => True
  | k => k.Answering

/-- A call into a conference room or a queue. -/
def EffectKind.Hosting : EffectKind → Prop
  | .room | .queue => True
  | k => k.Answering

theorem EffectKind.Playing.speaking {k : EffectKind} (h : k.Playing) : k.Speaking := by
  cases k <;> trivial

theorem EffectKind.Speaking.answering {k : EffectKind} (h : k.Speaking) : k.Answering := by
  cases k <;> trivial

theorem EffectKind.Tying.bridging {k : EffectKind} (h : k.Tying) : k.Bridging := by
  cases k <;> trivial

theorem EffectKind.Bridging.dialing {k : EffectKind} (h : k.Bridging) : k.Dialing := by
  cases k <;> trivial

theorem EffectKind.Inner.answering {k : EffectKind} (h : k.Inner) : k.Answering := by
  cases k <;> trivial

theorem EffectKind.Answering.dialing {k : EffectKind} (h : k.Answering) : k.Dialing := by
  cases k <;> trivial

theorem EffectKind.Answering.serving {k : EffectKind} (h : k.Answering) : k.Serving := by
  cases k <;> trivial

theorem EffectKind.Answering.hosting {k : EffectKind} (h : k.Answering) : k.Hosting := by
  cases k <;> trivial

section Uses

variable {α : Type} {cfg : Config} {rt : Runtime} {req : Request} {ctx : CallContext}

theorem Uses.answering {p : CallProg α} (hp : Uses EffectKind.Inner p) :
    Uses EffectKind.Answering p := hp.weaken fun _ h => h.answering

theorem Uses.dialing {p : CallProg α} (hp : Uses EffectKind.Answering p) :
    Uses EffectKind.Dialing p := hp.weaken fun _ h => h.dialing

theorem Uses.serving {p : CallProg α} (hp : Uses EffectKind.Answering p) :
    Uses EffectKind.Serving p := hp.weaken fun _ h => h.serving

theorem Uses.hosting {p : CallProg α} (hp : Uses EffectKind.Answering p) :
    Uses EffectKind.Hosting p := hp.weaken fun _ h => h.hosting

/-! ## Answering the caller -/

theorem sendUnlessFinal_speaking (status : Nat) (reason : Option String)
    (headers : List (String × String)) :
    Uses EffectKind.Speaking (sendUnlessFinal status reason headers) :=
  performs_sendUnlessFinal trivial trivial

theorem sendUnlessFinal_answering (status : Nat) (reason : Option String)
    (headers : List (String × String)) :
    Uses EffectKind.Answering (sendUnlessFinal status reason headers) :=
  (sendUnlessFinal_speaking _ _ _).weaken fun _ h => h.answering

theorem playSafe_answering (endpoint : Leg) (file : String) :
    Uses EffectKind.Answering (playSafe endpoint file) := (playSafe_inner _ _).answering

theorem recordVoicemail_answering (mailbox caller name : String) :
    Uses EffectKind.Answering (recordVoicemail cfg mailbox caller name) := by
  have hno : Uses EffectKind.Answering (do
      sendUnlessFinal 480 (some "Temporarily Unavailable")
      pure false) :=
    performs_bind (sendUnlessFinal_answering _ _ _) fun _ => performs_pure _
  refine performs_ite (fun _ => performs_pure _) fun _ => performs_then trivial fun up => ?_
  refine performs_ite (fun _ => hno) fun _ => performs_then trivial fun caller => ?_
  cases caller with
  | error _ => exact hno
  | ok legs =>
    refine performs_bind (performs_tryCatch ?_ fun _ => hno) fun _ => ?_
    · exact (captureVoicemail_inner _ _ _ _ _ _).answering
    · exact performs_bind (destroyLegs_inner _ _).answering fun _ => performs_pure _

theorem playUnavailable_speaking (message : Option String) :
    Uses EffectKind.Speaking (playUnavailable cfg message) := by
  refine performs_then trivial fun up => ?_
  refine performs_ite (fun _ => sendUnlessFinal_speaking _ _ _) fun _ => ?_
  refine performs_then trivial fun caller => ?_
  cases caller with
  | error _ => exact sendUnlessFinal_speaking _ _ _
  | ok legs =>
    have hplay : ∀ file, Uses EffectKind.Playing (do
        prepareVoice cfg legs.1
        playSafe legs.1 file
        destroyLegs legs.1 legs.2) := fun file =>
      performs_bind (prepareVoice_playing _) fun _ => performs_bind (playSafe_playing _ _) fun _ =>
        destroyLegs_playing _ _
    exact (hplay _).weaken fun _ h => h.speaking

theorem playUnavailable_answering (message : Option String) :
    Uses EffectKind.Answering (playUnavailable cfg message) :=
  (playUnavailable_speaking _).weaken fun _ h => h.answering

theorem meetingFailed_answering (aLeg : Leg) (legs : List Leg) :
    Uses EffectKind.Answering (meetingFailed aLeg legs) := by
  refine performs_bind (playSafe_answering _ _) fun _ => ?_
  refine performs_bind (destroyAll_inner _).answering fun _ => ?_
  exact performs_bind (sendUnlessFinal_answering _ _ _) fun _ => performs_pure _

/-! ## Legs -/

theorem connectOutboundLeg_tying (uac : Leg) :
    Uses EffectKind.Tying (connectOutboundLeg uac) := by
  refine performs_then trivial fun answer => performs_bind (performs_ofExcept _) fun uas => ?_
  exact performs_then trivial fun _ => performs_then trivial fun _ => performs_pure _

theorem routeCall_bridging (number : String) (callerId : Option String) :
    Uses EffectKind.Bridging (routeCall cfg req number callerId) := by
  have hno : Uses EffectKind.Bridging (do send 503; pure false) :=
    performs_then trivial fun _ => performs_pure _
  refine performs_ite (fun _ => hno) fun _ => performs_tryCatch (performs_bind ?_ ?_) fun _ => hno
  · refine performs_ite (fun _ => performs_pure _) fun _ => performs_then trivial fun answer => ?_
    exact performs_bind (performs_ofExcept _) fun uac => performs_pure _
  · intro uac?
    cases uac? with
    | none => exact hno
    | some uac => exact (connectOutboundLeg_tying uac).weaken fun _ h => h.bridging

theorem routeCall_dialing (number : String) (callerId : Option String) :
    Uses EffectKind.Dialing (routeCall cfg req number callerId) :=
  (routeCall_bridging _ _).weaken fun _ h => h.dialing

theorem joinMeetingLeg_dialing (aLeg dialog bLeg : Leg) (number conferenceId : String) :
    Uses EffectKind.Dialing (joinMeetingLeg cfg aLeg dialog bLeg number conferenceId) := by
  have hdial : Uses EffectKind.Dialing
      (((createOutboundLeg cfg number (bLeg.localSdp.getD "")).bind fun uac =>
        pure (some uac)).tryCatch fun _ => pure none) := by
    refine performs_tryCatch (performs_bind ?_ fun _ => performs_pure _) fun _ => performs_pure _
    refine performs_ite (fun _ => performs_pure _) fun _ => performs_then trivial fun answer => ?_
    exact performs_bind (performs_ofExcept _) fun uac => performs_pure _
  refine performs_bind hdial fun dialed => ?_
  split
  · exact (meetingFailed_answering _ _).dialing
  · refine performs_bind (playSafe_answering _ _).dialing fun _ => ?_
    exact performs_bind (destroyAll_inner _).answering.dialing fun _ => performs_pure _
  · refine performs_tryCatch (bridgeMeeting_inner _ _ _ _ _).answering.dialing fun _ => ?_
    exact (meetingFailed_answering _ _).dialing

theorem joinTeamsMeeting_dialing (number conferenceId : String) :
    Uses EffectKind.Dialing (joinTeamsMeeting cfg number conferenceId) := by
  have hno : ∀ b : Bool, Uses EffectKind.Dialing (do
      sendUnlessFinal 480 (some "Temporarily Unavailable")
      pure b) := fun b =>
    performs_bind (sendUnlessFinal_answering _ _ _).dialing fun _ => performs_pure _
  refine performs_then trivial fun up => performs_ite (fun _ => hno false) fun _ => ?_
  refine performs_then trivial fun caller => ?_
  cases caller with
  | error _ => exact hno true
  | ok legs =>
    refine performs_bind (prepareVoice_playing _).inner.answering.dialing fun _ => ?_
    refine performs_bind (playSafe_answering _ _).dialing fun _ => performs_then trivial fun bLeg? => ?_
    cases bLeg? with
    | error _ => exact (meetingFailed_answering _ _).dialing
    | ok bLeg => exact joinMeetingLeg_dialing _ _ _ _ _

/-! ## Rooms and flows -/

theorem joinConference_hosting (roomName roomId caller name : String) :
    Uses EffectKind.Hosting (joinConference cfg roomName roomId caller name) := by
  have hno : ∀ legs, Uses EffectKind.Hosting (do
      ask (.markLeft roomId caller)
      destroyAll legs
      sendUnlessFinal 480 (some "Temporarily Unavailable")
      pure false) := fun legs =>
    performs_then trivial fun _ => performs_bind (destroyAll_inner _).answering.hosting fun _ =>
      performs_bind (sendUnlessFinal_answering _ _ _).hosting fun _ => performs_pure _
  refine performs_then trivial fun up => performs_ite (fun _ => ?_) fun _ => ?_
  · exact performs_bind (sendUnlessFinal_answering _ _ _).hosting fun _ => performs_pure _
  · refine performs_then trivial fun connected => ?_
    cases connected with
    | error _ => exact hno []
    | ok legs =>
      refine performs_bind (prepareVoice_playing _).inner.answering.hosting fun _ => ?_
      refine performs_bind (playSafe_answering _ _).hosting fun _ => ?_
      refine performs_then trivial fun _ => performs_then trivial fun _ => ?_
      refine performs_then trivial fun joined => ?_
      cases joined with
      | ok _ => exact performs_then trivial fun _ => performs_pure _
      | error _ => exact hno _

theorem serveIvr_serving (endpoint dialog : Leg) (callId callerNumber calledNumber : String) :
    Uses EffectKind.Serving (serveIvr cfg rt endpoint dialog callId callerNumber calledNumber) := by
  have hmenu : Uses EffectKind.Serving (builtInMenu cfg endpoint callId) :=
    (builtInMenu_inner _ _).answering.serving
  refine performs_bind (prepareVoice_playing _).inner.answering.serving fun _ => ?_
  refine performs_then trivial fun flow? => ?_
  cases flow? with
  | none => exact hmenu
  | some flow =>
    refine performs_ite (fun _ => ?_) fun _ => hmenu
    exact (runFlowForCall_inner _ _ _ _ _ _).answering.serving

theorem answerIvr_serving (callId callerNumber calledNumber : String) :
    Uses EffectKind.Serving (answerIvr cfg rt callId callerNumber calledNumber) := by
  have hno : Uses EffectKind.Serving (do
      setStatus callId .failed
      sendUnlessFinal 503 (some "Service Unavailable")) :=
    performs_then trivial fun _ => (sendUnlessFinal_answering _ _ _).serving
  refine performs_then trivial fun up => performs_ite (fun _ => ?_) fun _ => ?_
  · exact performs_then trivial fun _ => performs_ask trivial
  · refine performs_then trivial fun caller => ?_
    cases caller with
    | error _ => exact hno
    | ok legs =>
      refine performs_tryCatch (serveIvr_serving _ _ _ _ _) fun _ => performs_bind hno fun _ => ?_
      exact (destroyLegs_inner _ _).answering.serving

theorem handleIncomingCall_serving (existing : Option (String × String)) :
    Uses EffectKind.Serving (handleIncomingCall cfg rt req existing) := by
  cases existing with
  | some e => exact answerIvr_serving _ _ _
  | none =>
    refine performs_bind ?_ fun callId => answerIvr_serving _ _ _
    refine performs_then (e := .randomUUID) trivial fun callId => ?_
    refine performs_then (e := .timestamp) trivial fun _ => performs_bind (performs_directory trivial)
      fun dir => ?_
    exact performs_then trivial fun _ => performs_pure _

/-- A call into a flow, with the exception handler of its route. -/
theorem servedIvr_serving (existing : Option (String × String)) :
    Uses EffectKind.Serving ((handleIncomingCall cfg rt req existing).tryCatch fun _ => do
      sendUnlessFinal 503
      setStatus ctx.callId .failed) :=
  performs_tryCatch (handleIncomingCall_serving _) fun _ =>
    performs_bind (sendUnlessFinal_answering _ _ _).serving fun _ => performs_ask trivial

/-! ## Handlers -/

theorem refuseUnregistered_answering (details : List (String × String)) (reason : Option String) :
    Uses EffectKind.Answering (refuseUnregistered ctx details reason) :=
  performs_then trivial fun _ => performs_then trivial fun _ => performs_then trivial fun _ =>
    performs_pure _

theorem refuseWidget_answering (claims : WidgetTokenClaims) (metadata : List (String × String))
    (direction : CallDirection) :
    Uses EffectKind.Answering (refuseWidget ctx claims metadata direction) :=
  performs_then trivial fun _ => performs_then trivial fun _ => performs_then trivial fun _ =>
    performs_pure _

theorem refuseBilling_answering (details : List (String × String)) (status : Nat)
    (reason : String) : Uses EffectKind.Answering (refuseBilling ctx details status reason) :=
  performs_then trivial fun _ => performs_then trivial fun _ => performs_then trivial fun _ =>
    performs_pure _

/-- Reply, and take the call. -/
theorem refuse_answering (status : Nat) (reason : Option String) :
    Uses EffectKind.Answering (do send status reason; pure true) :=
  performs_then trivial fun _ => performs_pure _

theorem WidgetHandler_dialing (route : DialResult) :
    Uses EffectKind.Dialing (WidgetHandler cfg ctx route) := by
  unfold WidgetHandler
  split
  · exact performs_pure _
  · have hrefuse (claims : WidgetTokenClaims) (metadata : List (String × String))
        (direction : CallDirection) :
        Uses EffectKind.Dialing (refuseWidget ctx claims metadata direction) :=
      (refuseWidget_answering _ _ _).dialing
    refine performs_ite (fun _ => hrefuse _ _ _) fun _ => performs_ite (fun _ => ?_) fun _ => ?_
    · exact performs_ite (fun _ => hrefuse _ _ _) fun _ => performs_pure _
    · refine performs_ite (fun _ => ?_) fun _ => performs_then trivial fun _ => ?_
      · exact performs_then trivial fun _ => performs_then trivial fun _ => performs_pure _
      · exact performs_bind (routeCall_dialing _ _) fun ok => performs_then trivial fun _ =>
          performs_pure _

theorem joinMeeting_dialing (dialIn confId : String) :
    Uses EffectKind.Dialing (joinMeeting cfg ctx dialIn confId) := by
  refine performs_then (e := .teamsAttempts) trivial fun attempts => ?_
  refine performs_then (e := .nowMs) trivial fun now => performs_then trivial fun _ => ?_
  refine performs_ite (fun _ => (refuse_answering _ _).dialing) fun _ => ?_
  refine performs_then trivial fun _ => performs_bind (joinTeamsMeeting_dialing _ _) fun ok => ?_
  exact performs_then trivial fun _ => performs_pure _

theorem TeamsMeetingHandler_dialing : Uses EffectKind.Dialing (TeamsMeetingHandler cfg ctx) := by
  refine performs_ite (fun _ => performs_pure _) fun _ => ?_
  refine performs_ite (fun _ => (refuse_answering _ _).dialing) fun _ => ?_
  refine performs_ite (fun _ => (refuse_answering _ _).dialing) fun _ => ?_
  refine performs_bind (performs_directory trivial) fun dir => ?_
  refine performs_ite (fun _ => (refuseUnregistered_answering _ _).dialing) fun _ => ?_
  exact joinMeeting_dialing _ _

theorem joinRoom_hosting (roomId : String) : Uses EffectKind.Hosting (joinRoom cfg ctx roomId) := by
  refine performs_bind ?_ fun room => performs_ite (fun _ => (refuse_answering _ _).hosting) fun _ => ?_
  · refine performs_then (e := .getRoom _) trivial fun existing => ?_
    cases existing with
    | none => exact performs_ask (e := .ensureRoom _ _ _) trivial
    | some room => exact performs_pure _
  · refine performs_then trivial fun _ => performs_then trivial fun _ => ?_
    refine performs_bind (joinConference_hosting _ _ _ _) fun ok => ?_
    exact performs_then trivial fun _ => performs_pure _

theorem ConferenceHandler_hosting (route : Option DialResult) :
    Uses EffectKind.Hosting (ConferenceHandler cfg ctx route) := by
  unfold ConferenceHandler
  split
  · exact performs_pure _
  · refine performs_ite (fun _ => (refuse_answering _ _).hosting) fun _ => ?_
    refine performs_bind (performs_directory trivial) fun dir => ?_
    refine performs_ite (fun _ => (refuseUnregistered_answering _ _).hosting) fun _ => ?_
    exact joinRoom_hosting _

theorem holdForAgent_hosting (queueId queueName caller : String) :
    Uses EffectKind.Hosting (holdForAgent cfg ctx queueId queueName caller) := by
  have hset : ∀ status, Uses EffectKind.Hosting (do setStatus ctx.callId status; pure true) :=
    fun status => performs_then trivial fun _ => performs_pure _
  refine performs_then trivial fun _ => performs_then trivial fun _ => ?_
  refine performs_then (e := .enqueueCaller _ _ _) trivial fun outcome => ?_
  cases outcome with
  | connected agent => exact performs_then trivial fun _ => performs_pure _
  | abandoned => exact hset _
  | timeout => exact hset _
  | failed => exact performs_then trivial fun _ => hset _

theorem enterQueue_hosting (queueId queueName caller : String) :
    Uses EffectKind.Hosting (enterQueue cfg ctx queueId queueName caller) := by
  refine performs_then (e := .queues) trivial fun svc => performs_ite (fun _ => ?_) fun _ => ?_
  · refine performs_then trivial fun _ => performs_bind ?_ fun text => ?_
    · exact performs_ite (fun _ => performs_ask (e := .announcement _) trivial)
        fun _ => performs_pure _
    · exact performs_bind (playUnavailable_answering _).hosting fun _ => performs_pure _
  · exact holdForAgent_hosting _ _ _

theorem queueClosed_answering (queueId caller : String) :
    Uses EffectKind.Answering (queueClosed cfg ctx queueId caller) := by
  refine performs_ite (fun _ => performs_pure _) fun _ => performs_then trivial fun decision => ?_
  cases decision <;> exact performs_pure _

theorem QueueHandler_hosting (route : Option DialResult) :
    Uses EffectKind.Hosting (QueueHandler cfg rt ctx route) := by
  unfold QueueHandler
  split
  · exact performs_pure _
  · refine performs_ite (fun _ => (refuse_answering _ _).hosting) fun _ => ?_
    refine performs_then (e := .queues) trivial fun svc => ?_
    split
    · exact (refuse_answering _ _).hosting
    · refine performs_bind (performs_directory trivial) fun dir => performs_ite (fun _ => ?_) fun _ => ?_
      · exact performs_then trivial fun _ => performs_then trivial fun _ =>
          (refuse_answering _ _).hosting
      · refine performs_bind (queueClosed_answering _ _).hosting fun closed => ?_
        cases closed with
        | none => exact enterQueue_hosting _ _ _
        | some d =>
          refine performs_then trivial fun _ => performs_then (e := .announcement _) trivial fun text => ?_
          exact performs_bind (playUnavailable_answering _).hosting fun _ => performs_pure _

theorem EmergencyHandler_dialing (route : Option DialResult) :
    Uses EffectKind.Dialing (EmergencyHandler cfg ctx route) := by
  unfold EmergencyHandler
  split
  · exact performs_pure _
  · refine performs_then trivial fun _ => performs_ite (fun _ => ?_) fun _ => ?_
    · exact performs_bind (routeCall_dialing _ _) fun ok => performs_then trivial fun _ =>
        performs_pure _
    · exact performs_then trivial fun _ => performs_then trivial fun _ => performs_pure _

theorem ivrConnected_answering : Uses EffectKind.Answering (ivrConnected cfg) :=
  performs_ite (fun _ => performs_ask (e := .isConnected) trivial) fun _ => performs_pure _

theorem IvrHandler_serving (route : Option DialResult) :
    Uses EffectKind.Serving (IvrHandler cfg rt ctx route) := by
  unfold IvrHandler
  split
  · exact performs_pure _
  · refine performs_bind ivrConnected_answering.serving fun connected => ?_
    refine performs_ite (fun _ => performs_pure _) fun _ => performs_then trivial fun _ => ?_
    exact performs_bind (servedIvr_serving _) fun _ => performs_pure _

theorem callPeer_dialing (peer : SipPeer) (user target : String) :
    Uses EffectKind.Dialing (callPeer cfg ctx peer user target) := by
  refine performs_bind (performs_directory trivial) fun dir => performs_then trivial fun _ => ?_
  refine performs_tryCatch ?_ fun err => ?_
  · refine performs_then trivial fun answer => performs_bind (performs_ofExcept _) fun uac => ?_
    refine performs_bind ((connectOutboundLeg_tying _).weaken fun _ h => h.bridging.dialing) fun _ => ?_
    exact performs_then trivial fun _ => performs_pure _
  · exact performs_then trivial fun _ => performs_bind (sendUnlessFinal_answering _ _ _).dialing
      fun _ => performs_pure _

theorem SipUriHandler_dialing (route : Option DialResult) :
    Uses EffectKind.Dialing (SipUriHandler cfg ctx route) := by
  unfold SipUriHandler
  split
  · exact performs_pure _
  · refine performs_bind (performs_directory trivial) fun dir => ?_
    refine performs_ite (fun _ => (refuseUnregistered_answering _ _).dialing) fun _ => ?_
    dsimp only
    split
    · exact performs_then trivial fun _ => (refuse_answering _ _).dialing
    · exact callPeer_dialing _ _ _

theorem dialExternal_dialing (number : String) :
    Uses EffectKind.Dialing (dialExternal cfg ctx number) := by
  refine performs_bind (performs_directory trivial) fun dir => ?_
  exact performs_bind (routeCall_dialing _ _) fun ok => performs_then trivial fun _ => performs_pure _

theorem billingGates_dialing (number : String) :
    Uses EffectKind.Dialing (billingGates cfg ctx number) := by
  refine performs_then (e := .snapshot) trivial fun snap => ?_
  refine performs_ite (fun _ => (refuseBilling_answering _ _ _).dialing) fun _ => ?_
  dsimp only
  split
  · exact (refuseBilling_answering _ _ _).dialing
  · exact dialExternal_dialing _

theorem ExternalHandler_dialing (route : Option DialResult) :
    Uses EffectKind.Dialing (ExternalHandler cfg ctx route) := by
  unfold ExternalHandler
  split
  · exact performs_pure _
  · refine performs_ite (fun _ => performs_pure _) fun _ => ?_
    refine performs_bind (performs_directory trivial) fun dir => ?_
    refine performs_ite (fun _ => (refuseUnregistered_answering _ _).dialing) fun _ => ?_
    exact billingGates_dialing _

/-- The schedule gate answers the caller itself. -/
theorem scheduleGate_answering (extension : String) :
    Uses EffectKind.Answering (scheduleGate cfg ctx extension) := by
  refine performs_ite (fun _ => performs_pure _) fun _ => performs_then trivial fun decision => ?_
  cases decision with
  | error _ => exact performs_pure _
  | ok d =>
    refine performs_ite (fun _ => ?_) fun _ => performs_pure _
    refine performs_then (e := .announcement _) trivial fun text => ?_
    refine performs_bind (playUnavailable_answering _) fun _ => performs_then trivial fun _ => ?_
    exact performs_pure _

/-! ## Extensions and the pipeline -/

theorem Uses.calling {K : EffectKind → Prop} {p : CallProg α} (hp : Uses K p)
    (hK : ¬ K .token) : Uses EffectKind.Calling p := by
  refine hp.weaken fun k hk => ?_
  cases k <;> trivial

theorem toVoicemail_answering (calledExt callId callingNumber : String) (unsaved : CallStatus)
    (reason : String) :
    Uses EffectKind.Answering
      (toVoicemail cfg req calledExt callId callingNumber unsaved reason) := by
  refine performs_bind (performs_directory trivial) fun dir => ?_
  refine performs_bind (recordVoicemail_answering _ _ _) fun saved => ?_
  exact performs_then trivial fun _ => performs_ask trivial

theorem forwardCall_calling (target callId callingNumber : String) :
    Uses EffectKind.Calling (forwardCall cfg req target callId callingNumber) := by
  have hfinal := (sendUnlessFinal_speaking 503 none []).calling id
  have hno : Uses EffectKind.Calling (forwardCall.notRegistered callId callingNumber) :=
    performs_then trivial fun _ => performs_then trivial fun _ =>
      (sendUnlessFinal_speaking _ _ _).calling id
  refine performs_bind (performs_directory trivial) fun dir => ?_
  split
  · split
    · refine performs_ite (fun _ => ?_) fun _ => hno
      exact performs_bind ((routeCall_bridging _ _).calling id) fun ok => performs_ask trivial
    · exact hno
  · refine performs_then trivial fun _ => performs_then trivial fun call => ?_
    cases call with
    | error _ => exact performs_then trivial fun _ => performs_then trivial fun _ => hfinal
    | ok legs =>
      refine performs_then trivial fun _ => performs_then trivial fun _ => performs_bind ?_ fun _ =>
        performs_ask trivial
      exact performs_then trivial fun _ => performs_ask trivial

theorem routeUnreachable_calling (calledExt callId callingNumber : String)
    (reason : UnreachableReason) :
    Uses EffectKind.Calling
      (routeUnreachable cfg req calledExt callId callingNumber reason) := by
  refine performs_bind (performs_directory trivial) fun dir => performs_ite (fun _ => ?_) fun _ =>
    performs_ite (fun _ => forwardCall_calling _ _ _) fun _ =>
      performs_ite (fun _ => (toVoicemail_answering _ _ _ _ _).calling id) fun _ =>
        performs_ite (fun _ => ?_) fun _ => ?_
  · refine performs_bind ((routeCall_bridging _ _).calling id) fun ok => ?_
    exact performs_then trivial fun _ => performs_ite (fun _ => performs_pure _) fun _ =>
      performs_ask trivial
  · refine performs_bind ((playUnavailable_speaking _).calling id) fun _ => ?_
    exact performs_then trivial fun _ => performs_ask trivial
  · exact performs_then trivial fun _ => performs_then trivial fun _ =>
      (sendUnlessFinal_speaking _ _ _).calling id

theorem routeDoNotDisturb_calling (calledExt callId callingNumber : String) :
    Uses EffectKind.Calling (routeDoNotDisturb cfg req calledExt callId callingNumber) :=
  performs_ite (fun _ => (toVoicemail_answering _ _ _ _ _).calling id) fun _ =>
    performs_then trivial fun _ => performs_then trivial fun _ =>
      (sendUnlessFinal_speaking _ _ _).calling id

theorem extensionFailed_calling (calledExt callId callingNumber : String) (err : SipError) :
    Uses EffectKind.Calling (extensionFailed cfg req calledExt callId callingNumber err) := by
  have hforward (target : String) :
      Uses EffectKind.Calling (forwardCall cfg req target callId callingNumber) :=
    forwardCall_calling _ _ _
  have hfall (reason : UnreachableReason) :
      Uses EffectKind.Calling (routeUnreachable cfg req calledExt callId callingNumber reason) :=
    routeUnreachable_calling _ _ _ _
  refine performs_bind (performs_directory trivial) fun dir => performs_ite (fun _ => ?_) fun _ =>
    performs_ite (fun _ => ?_) fun _ => performs_ite (fun _ => performs_ask trivial) fun _ =>
      performs_ite (fun _ => hfall _) fun _ => ?_
  · exact performs_then trivial fun _ => performs_ite (fun _ => hforward _) fun _ =>
      performs_then trivial fun _ => hfall _
  · exact performs_ite (fun _ => hforward _) fun _ => performs_then trivial fun _ => hfall _
  · exact performs_then trivial fun _ => performs_then trivial fun _ => performs_then trivial fun _ =>
      (sendUnlessFinal_speaking _ _ _).calling id

theorem routeToExtension_calling (contact callId : String) :
    Uses EffectKind.Calling (routeToExtension cfg req contact callId) := by
  refine performs_bind (performs_directory trivial) fun dir => performs_ite (fun _ => ?_) fun _ => ?_
  · exact performs_then trivial fun _ => performs_then trivial fun _ => performs_ask trivial
  · refine performs_then trivial fun _ => performs_then trivial fun call => ?_
    cases call with
    | error err => exact extensionFailed_calling _ _ _ _
    | ok legs =>
      refine performs_then trivial fun _ => performs_then trivial fun _ => performs_bind ?_ fun _ =>
        performs_ask trivial
      exact performs_then trivial fun _ => performs_ask trivial

theorem InternalHandler_calling (route : Option DialResult) :
    Uses EffectKind.Calling (InternalHandler cfg ctx route) := by
  unfold InternalHandler
  split
  · exact performs_pure _
  · refine performs_bind ((scheduleGate_answering _).calling id) fun closed =>
      performs_ite (fun _ => performs_pure _) fun _ => performs_bind (performs_directory trivial)
        fun dir => ?_
    split
    · refine performs_ite (fun _ => ?_) fun _ => ?_
      · exact performs_bind (routeDoNotDisturb_calling _ _ _) fun _ => performs_pure _
      · exact performs_bind (routeToExtension_calling _ _) fun _ => performs_pure _
    · refine performs_ite (fun _ => performs_pure _) fun _ => ?_
      exact performs_bind (routeUnreachable_calling _ _ _ _) fun _ => performs_pure _

theorem TrunkInboundHandler_calling : Uses EffectKind.Calling (TrunkInboundHandler cfg rt ctx) := by
  have hmissed : Uses EffectKind.Calling (do send 480; setStatus ctx.callId .missed; pure true) :=
    performs_then trivial fun _ => performs_then trivial fun _ => performs_pure _
  refine performs_ite (fun _ => performs_pure _) fun _ => performs_bind (performs_directory trivial)
    fun dir => ?_
  split
  · exact hmissed
  · refine performs_then trivial fun _ => ?_
    split
    · exact performs_bind (routeToExtension_calling _ _) fun _ => performs_pure _
    · refine performs_bind (ivrConnected_answering.calling id) fun connected =>
        performs_ite (fun _ => ?_) fun _ => hmissed
      exact performs_bind ((servedIvr_serving none).calling id) fun _ => performs_pure _

theorem dispatchRoutingRule_calling (rule : RoutingRule) :
    Uses EffectKind.Calling (dispatchRoutingRule cfg rt ctx rule) := by
  have hno : Uses EffectKind.Calling (do
      sendUnlessFinal 480
      setStatus ctx.callId .missed
      pure true) :=
    performs_bind ((sendUnlessFinal_speaking _ _ _).calling id) fun _ =>
      performs_then trivial fun _ => performs_pure _
  unfold dispatchRoutingRule
  split
  · exact (IvrHandler_serving _).calling id
  · exact InternalHandler_calling _
  · refine performs_ite (fun _ => hno) fun _ => ?_
    exact performs_bind ((routeCall_bridging _ _).calling id) fun ok =>
      performs_then trivial fun _ => performs_pure _
  · refine performs_ite (fun _ => performs_bind (performs_directory trivial) fun dir => ?_)
      fun _ => hno
    exact performs_bind ((recordVoicemail_answering _ _ _).calling id) fun saved =>
      performs_then trivial fun _ => performs_pure _
  · exact performs_pure _

theorem firstHandler_uses {K : EffectKind → Prop} {handlers : List (CallProg Bool)}
    (h : ∀ handle ∈ handlers, Uses K handle) : Uses K (firstHandler handlers) := by
  induction handlers with
  | nil => exact performs_pure _
  | cons handle rest ih =>
    refine performs_bind (h handle List.mem_cons_self) fun handled =>
      performs_ite (fun _ => performs_pure _) fun _ =>
        ih fun handle hmem => h handle (List.mem_cons_of_mem _ hmem)

/-- An admitted call verifies no token. -/
theorem routeCallContext_calling (route : DialResult) :
    Uses EffectKind.Calling (routeCallContext cfg rt ctx route) := by
  refine performs_bind ?_ fun ruled => performs_ite (fun _ => performs_pure _) fun _ =>
    performs_bind ?_ fun _ => performs_bind (firstHandler_uses ?_) fun handled =>
      performs_ite (fun _ => performs_pure _) fun _ => ?_
  · refine performs_ite (fun _ => performs_pure _) fun _ => performs_then trivial fun rule? => ?_
    cases rule? with
    | none => exact performs_pure _
    | some rule => exact performs_then trivial fun _ => dispatchRoutingRule_calling _
  · refine performs_ite (fun _ => performs_pure _) fun _ => performs_bind (performs_directory trivial)
      fun dir => performs_ite (fun _ => performs_ask trivial) fun _ => performs_pure _
  · simp only [routeHandlers, List.forall_mem_cons]
    exact ⟨TrunkInboundHandler_calling, (WidgetHandler_dialing _).calling id,
      TeamsMeetingHandler_dialing.calling id, (ConferenceHandler_hosting _).calling id,
      (QueueHandler_hosting _).calling id, (EmergencyHandler_dialing _).calling id,
      (IvrHandler_serving _).calling id, InternalHandler_calling _,
      (SipUriHandler_dialing _).calling id, (ExternalHandler_dialing _).calling id, nofun⟩
  · exact performs_then trivial fun _ => performs_ask trivial

end Uses

end CallNet
