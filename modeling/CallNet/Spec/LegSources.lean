import CallNet.Spec.DevicePaths

/-!
# Where legs come from

Every leg that is originated while an INVITE is handled goes to an approved peer, to a number
that the call was granted, to the dial-in of a meeting, to the number of a widget token, or to
a number that passed the billing gates (`leg_source`).
-/

namespace CallNet

/-- The destination is rated and the wallet covers the cheapest possible charge, as far as the
    gates are configured. -/
structure GatesPass (cfg : Config) (snap : Snapshot) (number caller : String) : Prop where
  rated : cfg.billing.blockUnrated = true →
    snap.dir.isUnratedDestination snap.rater number caller = false
  covered : cfg.billing.prepaidEnabled = true → ∀ required currency,
    snap.dir.estimateMinCharge snap.rater number caller = some (required, currency) →
    0 < required → required ≤ ((snap.dir.getUser caller).bind SipUser.balance).getD 0

/-- The headers of the INVITE ask for a meeting that can be joined. -/
structure JoinsMeeting (cfg : Config) (req : Request) : Prop where
  enabled : cfg.trunk.enabled = true
  media : cfg.hasIvr = true
  confId : req.confId ≠ ""
  dialIn : req.dialIn cfg ≠ ""

/-- The number a token lets the INVITE dial: its own, or the dialed one that matches it. -/
def WidgetDials (cfg : Config) (rt : Runtime) (req : Request) (claims : WidgetTokenClaims)
    (number : String) : Prop :=
  claims.routeType.getD .trunk = .trunk ∧ (number = claims.destination ∨
    number = normalizedDialed cfg rt req ∧
      digitsEqual (toDigits claims.destination) (toDigits number) = true)

/-- The call carries a token of the trunk kind. -/
def TrunkToken (claims : Option WidgetTokenClaims) : Prop :=
  ∃ c, claims = some c ∧ c.routeType.getD .trunk = .trunk

/-- The origin of a leg of a call with these claims, given what happened before it. -/
inductive LegSource (cfg : Config) (rt : Runtime) (req : Request) (claims : Option WidgetTokenClaims)
    (h : History) : OutboundInvite → Prop
  | peer {peer : SipPeer} {dir : Directory} {caller user : String} (mem : peer ∈ cfg.sipPeers)
      (own : ¬ TrunkToken claims) :
      LegSource cfg rt req claims h (peer.invite cfg dir caller user req.body)
  | granted {number localSdp : String} {callerId : Option String}
      (granted : Granted cfg req h number) :
      LegSource cfg rt req claims h (cfg.trunk.invite number localSdp callerId)
  | meeting {localSdp : String} {callerId : Option String} (joins : JoinsMeeting cfg req) :
      LegSource cfg rt req claims h (cfg.trunk.invite (req.dialIn cfg) localSdp callerId)
  | widget {c : WidgetTokenClaims} {number localSdp : String} {callerId : Option String}
      (enabled : cfg.trunk.enabled = true) (by_token : claims = some c)
      (dials : WidgetDials cfg rt req c number) :
      LegSource cfg rt req claims h (cfg.trunk.invite number localSdp callerId)
  | gated {snap : Snapshot} {number localSdp : String} {callerId : Option String}
      (mem : Effect.event .snapshot snap ∈ h)
      (pass : GatesPass cfg snap number (callerIdentity req claims)) :
      LegSource cfg rt req claims h (cfg.trunk.invite number localSdp callerId)

/-- Every leg has one of these origins. -/
def LegsFrom (cfg : Config) (rt : Runtime) (req : Request) (claims : Option WidgetTokenClaims)
    (h : History) : Effect → Prop
  | .createUAC invite => LegSource cfg rt req claims h invite
  | _ => True

section LegSources

variable {cfg : Config} {rt : Runtime} {req : Request} {fs : History}
  {claims : Option WidgetTokenClaims} {callId : String} {route : DialResult}

theorem Uses.legsFrom {K : EffectKind → Prop} {α : Type} {p : CallProg α} (hp : Uses K p)
    (hK : ¬ K .leg) : Keeps (LegsFrom cfg rt req claims) fs p := by
  refine hp.keeps fun h e _ he => ?_
  cases e with
  | createUAC invite => exact (hK he).elim
  | _ => trivial

/-- One effect that originates no leg, and what follows. -/
theorem legsFrom_ask {β : Type} {e : Effect} {f : e.Answer → CallProg β} (he : e.kind ≠ .leg)
    (hf : ∀ x, Keeps (LegsFrom cfg rt req claims) (e.event x :: fs) (f x)) :
    Keeps (LegsFrom cfg rt req claims) fs (ask e >>= f) := by
  refine keeps_ask (fun h _ => ?_) hf
  cases e with
  | createUAC invite => exact absurd rfl he
  | _ => trivial

/-- A number that may be dialed in every history with the facts. -/
def MayDial (cfg : Config) (rt : Runtime) (req : Request) (claims : Option WidgetTokenClaims)
    (fs : History) (number : String) : Prop :=
  cfg.trunk.enabled = true → ∀ h, Facts fs h → ∀ localSdp callerId,
    LegSource cfg rt req claims h (cfg.trunk.invite number localSdp callerId)

theorem DialsOnly.legsFrom {α : Type} {p : CallProg α} {number : String}
    (hp : Performs (Effect.DialsOnly cfg number) p) (hn : MayDial cfg rt req claims fs number) :
    Keeps (LegsFrom cfg rt req claims) fs p := by
  refine hp.keeps fun h e hf he => ?_
  cases e with
  | createUAC invite =>
    obtain ⟨henabled, localSdp, callerId, rfl⟩ := he
    exact hn henabled h hf localSdp callerId
  | _ => trivial

theorem mayDial_granted {number : String} (hg : Granted cfg req fs number) :
    MayDial cfg rt req claims fs number := fun _ _ hf _ _ => .granted (hg.mono hf)

/-! ## Extensions -/

/-- What follows the settings of a called extension dials granted numbers. -/
theorem FollowsUser.legsFrom {start : String} (hc : Called cfg req fs start) {h : History}
    {e : Effect} (hf : Facts fs h) (he : FollowsUser cfg start h e) : LegsFrom cfg rt req claims h e := by
  cases e with
  | createUAC invite =>
    obtain ⟨ext, number, localSdp, callerId, hext, ⟨snap, user, hmem, huser, hmobile⟩, rfl⟩ := he
    have hcalled : Called cfg req h ext := by
      rcases hext with rfl | ⟨snap', hmem', htarget⟩
      · exact hc.mono hf
      · exact .forward (hc.mono hf) hmem' htarget
    exact .granted (.mobile hcalled hmem huser hmobile)
  | _ => trivial

theorem Keeps.legsFrom {α : Type} {p : CallProg α} {start : String}
    (hp : Keeps (FollowsUser cfg start) fs p) (hc : Called cfg req fs start) :
    Keeps (LegsFrom cfg rt req claims) fs p := hp.mono fun _ _ hf he => he.legsFrom hc hf

theorem routeInternal_legs {target : String} (ht : Called cfg req fs target) :
    Keeps (LegsFrom cfg rt req claims) fs (routeInternal cfg (req.context claims callId) target) := by
  refine keeps_directory (fun _ _ => trivial) fun snap => ?_
  have ht' : Called cfg req (Effect.event .snapshot snap :: fs) target :=
    ht.mono fun _ he => List.mem_cons_of_mem _ he
  split
  · refine keeps_ite (fun _ => ?_) fun _ => ?_
    · exact keeps_bind (routeDoNotDisturb_follows.legsFrom ht') fun _ => keeps_pure _
    · exact keeps_bind ((routeToExtension_follows _ _).legsFrom .uri) fun _ => keeps_pure _
  · refine keeps_ite (fun _ => keeps_pure _) fun _ => ?_
    exact keeps_bind ((routeUnreachable_follows _).legsFrom ht') fun _ => keeps_pure _

theorem InternalHandler_legs {r : DialResult} (ht : r.type = .internal → Called cfg req fs r.target) :
    Keeps (LegsFrom cfg rt req claims) fs (InternalHandler cfg (req.context claims callId) (some r)) := by
  unfold InternalHandler
  split
  · exact keeps_pure _
  · rename_i r' hr
    obtain ⟨hsome, htype⟩ := routeOf_eq_some hr
    cases hsome
    refine keeps_bind ((scheduleGate_answering _).legsFrom id) fun closed => ?_
    exact keeps_ite (fun _ => keeps_pure _) fun _ => routeInternal_legs (ht htype)

/-! ## Routing rules -/

theorem dispatchRoutingRule_legs {r : RoutingRule}
    (hr : Effect.event (.getRoutingRule req.called) (some r) ∈ fs) :
    Keeps (LegsFrom cfg rt req claims) fs
      (dispatchRoutingRule cfg rt (req.context claims callId) r) := by
  unfold dispatchRoutingRule
  split
  · exact (IvrHandler_serving _).legsFrom id
  · rename_i htype
    exact InternalHandler_legs fun _ => .rule hr htype
  · rename_i htype
    refine keeps_ite (fun _ => ?_) fun _ => ?_
    · exact keeps_bind ((sendUnlessFinal_speaking _ _ _).legsFrom id) fun _ =>
        legsFrom_ask nofun fun _ => keeps_pure _
    · have hgranted : MayDial cfg rt req claims fs
          (resolve cfg.emergencyNumbers r.destinationValue).normalizedNumber :=
        mayDial_granted (.rule hr htype)
      exact keeps_bind (DialsOnly.legsFrom (routeCall_dialsOnly _ _) hgranted) fun ok =>
        legsFrom_ask nofun fun _ => keeps_pure _
  · refine keeps_ite (fun _ => keeps_directory (fun _ _ => trivial) fun snap => ?_) fun _ => ?_
    · exact keeps_bind ((recordVoicemail_answering _ _ _).legsFrom id) fun saved =>
        legsFrom_ask nofun fun _ => keeps_pure _
    · exact keeps_bind ((sendUnlessFinal_speaking _ _ _).legsFrom id) fun _ =>
        legsFrom_ask nofun fun _ => keeps_pure _
  · exact keeps_pure _

theorem applyRoutingRule_legs :
    Keeps (LegsFrom cfg rt req claims) fs (applyRoutingRule cfg rt (req.context claims callId)) := by
  refine keeps_ite (fun _ => keeps_pure _) fun _ => legsFrom_ask nofun fun rule? => ?_
  cases rule? with
  | none => exact keeps_pure _
  | some r =>
    exact legsFrom_ask nofun fun _ => dispatchRoutingRule_legs (List.mem_cons_of_mem _ List.mem_cons_self)

/-! ## Tokens and meetings -/

/-- Effects of other kinds than legs and tokens. -/
theorem Uses.dialsOnly {K : EffectKind → Prop} {α : Type} {p : CallProg α} (hp : Uses K p)
    (hleg : ¬ K .leg) (htoken : ¬ K .token) (number : String) :
    Performs (Effect.DialsOnly cfg number) p := by
  refine hp.mono fun e he => ?_
  cases e with
  | createUAC invite => exact (hleg he).elim
  | verifyWidgetToken token => exact (htoken he).elim
  | _ => trivial

theorem joinMeetingLeg_dialsOnly (aLeg dialog bLeg : Leg) (number conferenceId : String) :
    Performs (Effect.DialsOnly cfg number)
      (joinMeetingLeg cfg aLeg dialog bLeg number conferenceId) := by
  have hdial : Performs (Effect.DialsOnly cfg number)
      (((createOutboundLeg cfg number (bLeg.localSdp.getD "")).bind fun uac =>
        pure (some uac)).tryCatch fun _ => pure none) := by
    refine performs_tryCatch (performs_bind ?_ fun _ => performs_pure _) fun _ => performs_pure _
    exact createOutboundLeg_dialsOnly _ _ _
  refine performs_bind hdial fun dialed => ?_
  split
  · exact (meetingFailed_answering _ _).dialsOnly id id _
  · refine performs_bind ((playSafe_playing _ _).dialsOnly id id _) fun _ => ?_
    exact performs_bind ((destroyAll_inner _).dialsOnly id id _) fun _ => performs_pure _
  · refine performs_tryCatch ((bridgeMeeting_inner _ _ _ _ _).dialsOnly id id _) fun _ => ?_
    exact (meetingFailed_answering _ _).dialsOnly id id _

/-- The only leg of a meeting is to its dial-in. -/
theorem joinTeamsMeeting_dialsOnly (number conferenceId : String) :
    Performs (Effect.DialsOnly cfg number) (joinTeamsMeeting cfg number conferenceId) := by
  have hno : ∀ b : Bool, Performs (Effect.DialsOnly cfg number) (do
      sendUnlessFinal 480 (some "Temporarily Unavailable")
      pure b) := fun b =>
    performs_bind ((sendUnlessFinal_speaking _ _ _).dialsOnly id id _) fun _ => performs_pure _
  refine performs_then trivial fun up => performs_ite (fun _ => hno false) fun _ => ?_
  refine performs_then trivial fun caller => ?_
  cases caller with
  | error _ => exact hno true
  | ok legs =>
    refine performs_bind ((prepareVoice_playing _).dialsOnly id id _) fun _ => ?_
    refine performs_bind ((playSafe_playing _ _).dialsOnly id id _) fun _ => ?_
    refine performs_then trivial fun bLeg? => ?_
    cases bLeg? with
    | error _ => exact (meetingFailed_answering _ _).dialsOnly id id _
    | ok bLeg => exact joinMeetingLeg_dialsOnly _ _ _ _ _

theorem TeamsMeetingHandler_legs :
    Keeps (LegsFrom cfg rt req claims) fs (TeamsMeetingHandler cfg (req.context claims callId)) := by
  refine keeps_ite (fun _ => keeps_pure _) fun hconf => keeps_ite (fun _ => ?_) fun hup =>
    keeps_ite (fun _ => ?_) fun hdial => keeps_directory (fun _ _ => trivial) fun snap =>
      keeps_ite (fun _ => (refuseUnregistered_answering _ _).legsFrom id) fun _ => ?_
  · exact legsFrom_ask nofun fun _ => keeps_pure _
  · exact legsFrom_ask nofun fun _ => keeps_pure _
  · rw [not_or, Bool.not_eq_true, Bool.not_eq_true, Bool.not_eq_false', Bool.not_eq_false'] at hup
    have hjoins : JoinsMeeting cfg req := ⟨hup.1, hup.2, hconf, hdial⟩
    refine legsFrom_ask (e := .teamsAttempts) nofun fun attempts => ?_
    refine legsFrom_ask (e := .nowMs) nofun fun now => legsFrom_ask nofun fun _ => ?_
    refine keeps_ite (fun _ => legsFrom_ask nofun fun _ => keeps_pure _) fun _ => ?_
    refine legsFrom_ask nofun fun _ => keeps_bind ?_ fun ok => legsFrom_ask nofun fun _ => keeps_pure _
    exact DialsOnly.legsFrom (joinTeamsMeeting_dialsOnly _ _) fun _ _ _ _ _ => .meeting hjoins

/-- The number a widget call is put through to is one its token lets it dial. -/
theorem widgetNumber_dials {c : WidgetTokenClaims} (hkind : c.routeType.getD .trunk = .trunk)
    (hroute : route.normalizedNumber = normalizedDialed cfg rt req) :
    WidgetDials cfg rt req c (widgetNumber c route) := by
  refine ⟨hkind, ?_⟩
  unfold widgetNumber
  split
  · rename_i hmatch
    exact .inr ⟨hroute, hmatch⟩
  · exact .inl rfl

theorem WidgetHandler_legs
    (hroute : route.normalizedNumber = normalizedDialed cfg rt req) :
    Keeps (LegsFrom cfg rt req claims) fs (WidgetHandler cfg (req.context claims callId) route) := by
  unfold WidgetHandler
  split
  · exact keeps_pure _
  · rename_i c hsome
    have hrefuse (metadata : List (String × String)) (direction : CallDirection) :
        Keeps (LegsFrom cfg rt req claims) fs
          (refuseWidget (req.context claims callId) c metadata direction) :=
      (refuseWidget_answering _ _ _).legsFrom id
    refine keeps_ite (fun _ => hrefuse _ _) fun _ => keeps_ite (fun _ => ?_) fun hkind => ?_
    · exact keeps_ite (fun _ => hrefuse _ _) fun _ => keeps_pure _
    · refine keeps_ite (fun _ => legsFrom_ask nofun fun _ => legsFrom_ask nofun fun _ =>
        keeps_pure _) fun _ => legsFrom_ask nofun fun _ => keeps_bind ?_ fun ok =>
          legsFrom_ask nofun fun _ => keeps_pure _
      refine DialsOnly.legsFrom (routeCall_dialsOnly _ _) fun henabled h hf localSdp callerId => ?_
      exact .widget henabled hsome (widgetNumber_dials (not_not.mp hkind) hroute)

/-! ## Outbound calls -/

theorem EmergencyHandler_legs {r : DialResult}
    (hr : r.type = .emergency → r.target ∈ cfg.emergencyNumbers) :
    Keeps (LegsFrom cfg rt req claims) fs
      (EmergencyHandler cfg (req.context claims callId) (some r)) := by
  unfold EmergencyHandler
  split
  · exact keeps_pure _
  · rename_i r' hr'
    obtain ⟨hsome, htype⟩ := routeOf_eq_some hr'
    cases hsome
    refine legsFrom_ask nofun fun _ => keeps_ite (fun _ => ?_) fun _ => ?_
    · refine keeps_bind (DialsOnly.legsFrom (routeCall_dialsOnly _ _) ?_) fun ok =>
        legsFrom_ask nofun fun _ => keeps_pure _
      exact mayDial_granted (.emergency (hr htype))
    · exact legsFrom_ask nofun fun _ => legsFrom_ask nofun fun _ => keeps_pure _

theorem callPeer_legs (hown : ¬ TrunkToken claims) {peer : SipPeer} (hpeer : peer ∈ cfg.sipPeers)
    (user target : String) :
    Keeps (LegsFrom cfg rt req claims) fs
      (callPeer cfg (req.context claims callId) peer user target) := by
  refine keeps_directory (fun _ _ => trivial) fun snap => legsFrom_ask nofun fun _ => ?_
  refine keeps_tryCatch ?_ fun err => ?_
  · refine keeps_ask (fun _ _ => .peer hpeer hown) fun answer => ?_
    refine keeps_bind (keeps_ofExcept _) fun uac => ?_
    exact keeps_bind ((connectOutboundLeg_tying _).legsFrom id) fun _ =>
      legsFrom_ask nofun fun _ => keeps_pure _
  · exact legsFrom_ask nofun fun _ => keeps_bind ((sendUnlessFinal_speaking _ _ _).legsFrom id)
      fun _ => keeps_pure _

theorem SipUriHandler_legs (hown : ¬ TrunkToken claims) (r : Option DialResult) :
    Keeps (LegsFrom cfg rt req claims) fs (SipUriHandler cfg (req.context claims callId) r) := by
  unfold SipUriHandler
  split
  · exact keeps_pure _
  · refine keeps_directory (fun _ _ => trivial) fun snap =>
      keeps_ite (fun _ => (refuseUnregistered_answering _ _).legsFrom id) fun _ => ?_
    dsimp only
    split
    · exact legsFrom_ask nofun fun _ => legsFrom_ask nofun fun _ => keeps_pure _
    · rename_i peer hpeer
      refine callPeer_legs hown ?_ _ _
      unfold findSipPeer at hpeer
      split at hpeer
      · cases hpeer
      · exact List.mem_of_find?_eq_some hpeer

theorem billingGates_legs (number : String) :
    Keeps (LegsFrom cfg rt req claims) fs (billingGates cfg (req.context claims callId) number) := by
  refine legsFrom_ask (e := .snapshot) nofun fun snap => ?_
  refine keeps_ite (fun _ => (refuseBilling_answering _ _ _).legsFrom id) fun hrated => ?_
  dsimp only
  split
  · exact (refuseBilling_answering _ _ _).legsFrom id
  · rename_i hcovered
    have hpass : GatesPass cfg snap number (callerIdentity req claims) := by
      refine ⟨fun hblock => ?_, fun hprepaid required currency hestimate hpos => ?_⟩
      · exact Bool.eq_false_iff.mpr fun hunrated => hrated ⟨hblock, hunrated⟩
      · by_contra hlt
        rw [if_pos hprepaid] at hcovered
        refine Option.filter_eq_none_iff.mp hcovered (required, currency) ?_ (decide_eq_true ?_)
        · exact Option.filter_eq_some_iff.mpr ⟨hestimate, decide_eq_true hpos⟩
        · exact Rat.not_le.mp hlt
    refine keeps_directory (fun _ _ => trivial) fun snap' => keeps_bind ?_ fun ok =>
      legsFrom_ask nofun fun _ => keeps_pure _
    refine DialsOnly.legsFrom (routeCall_dialsOnly _ _) fun _ h hf localSdp callerId => ?_
    exact .gated (hf _ (List.mem_cons_of_mem _ List.mem_cons_self)) hpass

theorem ExternalHandler_legs (r : Option DialResult) :
    Keeps (LegsFrom cfg rt req claims) fs (ExternalHandler cfg (req.context claims callId) r) := by
  unfold ExternalHandler
  split
  · exact keeps_pure _
  · refine keeps_ite (fun _ => keeps_pure _) fun _ => keeps_directory (fun _ _ => trivial) fun snap =>
      keeps_ite (fun _ => (refuseUnregistered_answering _ _).legsFrom id) fun _ => ?_
    exact billingGates_legs _

/-! ## The pipeline -/

theorem firstHandler_legs {handlers : List (CallProg Bool)}
    (h : ∀ handle ∈ handlers, Keeps (LegsFrom cfg rt req claims) fs handle) :
    Keeps (LegsFrom cfg rt req claims) fs (firstHandler handlers) := by
  induction handlers with
  | nil => exact keeps_pure _
  | cons handle rest ih =>
    refine keeps_bind (h handle List.mem_cons_self) fun handled => keeps_ite (fun _ => keeps_pure _)
      fun _ => ih fun handle hmem => h handle (List.mem_cons_of_mem _ hmem)

/-- An admitted call that does not come from the trunk. -/
theorem routeAdmitted_legs (hsource : cfg.trunk.isFromTrunk rt req.sourceAddress = false)
    (dir : Directory) :
    Keeps (LegsFrom cfg rt req claims) fs
      (routeAdmitted cfg rt (req.context claims callId) (inviteRoute cfg rt dir req)) := by
  by_cases hown : TrunkToken claims
  · -- the widget handler takes the call
    obtain ⟨c, hc, hkind⟩ := hown
    refine DialsOnly.legsFrom (routeAdmitted_dialsOnly hc hkind hsource) fun henabled h _ _ _ => ?_
    exact .widget henabled hc (widgetNumber_dials hkind (inviteRoute_normalizedNumber dir))
  have hroute := inviteRoute_ok cfg rt dir req
  refine keeps_tryCatch (keeps_bind applyRoutingRule_legs fun ruled => keeps_ite
    (fun _ => keeps_pure _) fun _ => keeps_bind ?_ fun _ => keeps_bind (firstHandler_legs ?_)
      fun handled => keeps_ite (fun _ => keeps_pure _) fun _ => ?_) fun _ =>
        (sendUnlessFinal_speaking _ _ _).legsFrom id
  · refine keeps_ite (fun _ => keeps_pure _) fun _ => keeps_directory (fun _ _ => trivial)
      fun snap => keeps_ite (fun _ => keeps_perform fun _ _ => trivial) fun _ => keeps_pure _
  · simp only [routeHandlers, List.forall_mem_cons]
    have htrunk : TrunkInboundHandler cfg rt (req.context claims callId) = pure false :=
      TrunkInboundHandler_declines hsource
    refine ⟨?_, WidgetHandler_legs (inviteRoute_normalizedNumber _), TeamsMeetingHandler_legs,
      (ConferenceHandler_hosting _).legsFrom id, (QueueHandler_hosting _).legsFrom id,
      EmergencyHandler_legs hroute.emergency, (IvrHandler_serving _).legsFrom id,
      InternalHandler_legs fun htype => ?_, SipUriHandler_legs hown _, ExternalHandler_legs _,
      fun _ h => by cases h⟩
    · rw [htrunk]
      exact keeps_pure _
    · rw [hroute.internal htype]
      exact .dialed
  · exact legsFrom_ask (by decide) fun _ => keeps_perform fun _ _ => trivial

theorem routeAdmitted_calling (ctx : CallContext) (route : DialResult) :
    Uses EffectKind.Calling (routeAdmitted cfg rt ctx route) :=
  performs_tryCatch (routeCallContext_calling _) fun _ => (sendUnlessFinal_speaking _ _ _).calling id

/-- The claims of the token that was verified in the run, if there was one. -/
def TokenClaims (t : History) (claims : Option WidgetTokenClaims) : Prop :=
  ∀ c, claims = some c ↔ ∃ token, Effect.event (.verifyWidgetToken token) (some c) ∈ t

theorem TokenClaims.unique {t : History} {claims' : Option WidgetTokenClaims}
    (h : TokenClaims t claims) (h' : TokenClaims t claims') : claims = claims' := by
  refine Option.ext fun c => ?_
  rw [h c, h' c]

/-- The claims of an admitted call are those of its token, and no other token is verified. -/
theorem Admission.Ok.tokenClaims {a : Admission} (ha : a.Ok cfg rt req) {u : History}
    {r : Except SipError Unit}
    (hr : Prog.Run (routeAdmitted cfg rt (a.ctx req) (a.route cfg rt req)) u r) :
    TokenClaims (a.trace cfg req ++ u) a.claims := by
  intro c
  constructor
  · intro hsome
    have htoken : req.widgetToken ≠ "" := fun hempty => by
      rw [ha.claims hempty] at hsome
      cases hsome
    have hmem : Effect.event (.verifyWidgetToken req.widgetToken) (some c) ∈
        tokenTrace req a.claims := by
      unfold tokenTrace
      rw [if_neg htoken, hsome]
      exact List.mem_singleton.mpr rfl
    exact ⟨req.widgetToken, List.mem_append_left _ (List.mem_cons_of_mem _
      (List.mem_cons_of_mem _ (List.mem_cons_of_mem _ (List.mem_cons_of_mem _
        (List.mem_append_left _ hmem)))))⟩
  · rintro ⟨token, hmem⟩
    rcases List.mem_append.mp hmem with hmem | hmem
    · exact (a.verified_eq hmem).symm
    · exact ((routeAdmitted_calling _ _).run hr hmem).elim

/-- A leg is originated after the call was admitted. -/
theorem leg_admitted {t pre post : History} {r : Except SipError Unit}
    (hr : Prog.Run (handleInvite cfg rt req) t r) {invite : OutboundInvite}
    {x : Except SipError Leg} (ht : t = pre ++ Effect.event (.createUAC invite) x :: post) :
    ∃ a : Admission, a.Ok cfg rt req ∧ ∃ mid, pre = a.trace cfg req ++ mid ∧
      Prog.Run (routeAdmitted cfg rt (a.ctx req) (a.route cfg rt req))
        (mid ++ Effect.event (.createUAC invite) x :: post) r := by
  rcases run_handleInvite_iff.mp hr with ⟨hrefused, -⟩ | ⟨a, ha, u, rfl, hrouted⟩
  · have hmem : Effect.event (.createUAC invite) x ∈ t := by
      rw [ht]
      exact List.mem_append_right _ List.mem_cons_self
    exact (admitInvite_screening.only.run hrefused hmem).elim
  · refine ⟨a, ha, ?_⟩
    rcases List.append_eq_append_iff.mp ht with ⟨mid, rfl, rfl⟩ | ⟨mid, htrace, hrest⟩
    · exact ⟨mid, rfl, hrouted⟩
    · cases mid with
      | nil =>
        rw [List.append_nil] at htrace
        exact ⟨[], by rw [htrace, List.append_nil], by rwa [List.nil_append, hrest]⟩
      | cons e mid =>
        rw [List.cons_append, List.cons.injEq] at hrest
        have hmem : Effect.event (.createUAC invite) x ∈ a.trace cfg req := by
          rw [htrace, hrest.1]
          exact List.mem_append_right _ List.mem_cons_self
        exact (ha.screening hmem).elim

/-- Every leg originated while an INVITE that does not come from the trunk is handled has one of
    the origins, by what happened before it. -/
theorem leg_source (hsource : cfg.trunk.isFromTrunk rt req.sourceAddress = false) {a : Admission}
    {mid post : History} {invite : OutboundInvite} {x : Except SipError Leg}
    {r : Except SipError Unit}
    (hrouted : Prog.Run (routeAdmitted cfg rt (a.ctx req) (a.route cfg rt req))
      (mid ++ Effect.event (.createUAC invite) x :: post) r) :
    LegSource cfg rt req a.claims (a.trace cfg req ++ mid) invite :=
  (routeAdmitted_legs hsource _).run (fun _ he => he) hrouted rfl

end LegSources

end CallNet
