import CallNet.Spec.CallPolicy

/-!
# The pipeline obeys the policy

Calls to an extension and what they fall back to, the route handlers, the routing rules
and the INVITE handler itself, in the order of the source.  The main result is
`handleInvite_obeys`.
-/

namespace CallNet

variable {cfg : Config} {rt : Runtime} {req : Request} {fs : History}

/-! ## Originating a leg -/

/-- A cleared leg may be originated while nothing is installed that ends a call. -/
theorem createUAC_obeys {invite : OutboundInvite} (hc : Cleared cfg rt req fs invite) :
    Obeys cfg rt req (Known fs) (ask (.createUAC invite)) fun _ => Facts fs := by
  constructor
  apply Prog.triple_perform (S := effects)
  · exact fun h hk => ⟨hk.2.1, hc.mono hk.2.2⟩
  · exact fun h x hk _ _ => hk.2.2.snoc _

theorem quiet_connectOutboundLeg (uac : Leg) : Quiet fs (connectOutboundLeg uac) := by
  refine quiet_bind (quiet_ask trivial) fun _ => quiet_bind (quiet_ofExcept _) fun uas => ?_
  refine quiet_bind (quiet_onDestroy _ rfl) fun _ => quiet_bind (quiet_onDestroy _ rfl) fun _ => ?_
  exact quiet_pure _

/-- The number may be dialed through the trunk. -/
def Dialable (cfg : Config) (rt : Runtime) (req : Request) (fs : History) (number : String) : Prop :=
  ∀ localSdp callerId, Cleared cfg rt req fs (cfg.trunk.invite number localSdp callerId)

theorem createOutboundLeg_obeys {number : String} (hn : Dialable cfg rt req fs number)
    (localSdp : String) (callerId : Option String) :
    Obeys cfg rt req (Known fs) (createOutboundLeg cfg number localSdp callerId)
      fun _ => Facts fs := by
  unfold createOutboundLeg
  split
  · exact obeys_pure fun _ hk => hk.2.2
  · refine (createUAC_obeys (hn _ _)).bind fun answer => ?_
    exact (quiet_bind (quiet_ofExcept _) fun _ => quiet_pure _).obeys_facts

theorem routeCall_obeys {own : Request} {number : String} (hn : Dialable cfg rt req fs number)
    (callerId : Option String) :
    Obeys cfg rt req (Known fs) (routeCall cfg own number callerId) fun _ => Facts fs := by
  have hno : Quiet fs (do send 503; pure false) :=
    quiet_bind (quiet_send _ _ _) fun _ => quiet_pure _
  unfold routeCall
  dsimp only
  split
  · exact hno.obeys fun _ _ hk => hk.2.2
  · refine Obeys.tryCatch ?_ (fun _ hk => hk.2.2) fun _ => hno.obeys_facts
    refine (createOutboundLeg_obeys hn _ _).bind fun uac? => ?_
    cases uac? with
    | none => exact hno.obeys_facts
    | some uac => exact (quiet_connectOutboundLeg uac).obeys_facts

/-! ## Ringing a device -/

theorem createB2BUA_obeys {uri : String} {timeoutMs : Option Nat} {passFailure : Bool}
    (hr : Ringable cfg rt req fs uri) :
    Obeys cfg rt req (Known fs) (ask (.createB2BUA uri timeoutMs passFailure))
      fun _ => Known fs := by
  constructor
  apply Prog.triple_perform (S := effects)
  · exact fun h hk => hr.mono hk.2.2
  · exact fun h x hk _ _ => hk.snoc (e := .createB2BUA uri timeoutMs passFailure) trivial x

/-! ## Ending a call -/

/-- A handler that ends this call may be installed while no leg was originated. -/
theorem onDestroy_obeys {leg : Leg} {acts : List DestroyAct} {callId : String}
    (hacts : endings acts = [callId]) (hid : Effect.event .randomUUID callId ∈ fs) :
    Obeys cfg rt req (fun h => UacFree h ∧ Facts fs h) (ask (.onDestroy leg acts))
      fun _ h => UacFree h ∧ Facts fs h := by
  constructor
  apply Prog.triple_perform (S := effects)
  · intro h hh c hc
    rw [hacts, List.mem_singleton] at hc
    rw [hc]
    exact ⟨hacts, hh.1, hh.2 _ hid⟩
  · intro h x hh _ _
    refine ⟨fun invite y hmem => ?_, hh.2.snoc _⟩
    rw [List.mem_append, List.mem_singleton] at hmem
    rcases hmem with hmem | heq
    · exact hh.1 invite y hmem
    · cases heq

/-- An answered B2BUA call ends when either of its legs does. -/
theorem endWith_obeys {uas uac : Leg} {acts : List DestroyAct} {callId : String}
    (hacts : endings acts = [callId]) (hid : Effect.event .randomUUID callId ∈ fs) :
    Obeys cfg rt req (Known fs) (endWith uas uac acts) fun _ => Facts fs := by
  have hboth : ∀ leg other, Obeys cfg rt req (fun h => UacFree h ∧ Facts fs h)
      (ask (.onDestroy leg (.destroy other :: acts))) fun _ h => UacFree h ∧ Facts fs h :=
    fun leg other => onDestroy_obeys hacts hid
  refine Obeys.bind ((hboth uas uac).conseq (fun _ hk => ⟨hk.1, hk.2.2⟩) fun _ _ hh => hh) fun _ => ?_
  exact (hboth uac uas).conseq (fun _ hh => hh) fun _ _ hh => hh.2

/-! ## Calls to an extension -/

/-- The extension is one the caller called, or the source is trusted. -/
def Reach (cfg : Config) (rt : Runtime) (req : Request) (fs : History) (ext : String) : Prop :=
  Trusted cfg rt req fs ∨ Called cfg req fs ext

theorem Facts.cons (e : Prog.Event effects) (fs : History) : Facts fs (e :: fs) :=
  fun _ hmem => List.mem_cons_of_mem _ hmem

theorem Reach.mono {ext : String} {h : History} (hf : Facts fs h) (hr : Reach cfg rt req fs ext) :
    Reach cfg rt req h ext :=
  hr.imp (Trusted.mono hf) (Called.mono hf)

theorem truthy_eq {o : Option String} (h : truthy o = true) : o = some (o.getD "") := by
  cases o with
  | none => cases h
  | some s => rfl

/-- The stored mobile of a user that was called. -/
theorem Reach.dialable_mobile {ext number : String} {snap : Snapshot} {user : SipUser}
    (hr : Reach cfg rt req fs ext) (hsnap : Effect.event .snapshot snap ∈ fs)
    (huser : snap.dir.getUser ext = some user) (hm : user.mobile = some number) :
    Dialable cfg rt req fs number := by
  intro localSdp callerId
  rcases hr with ht | hc
  · exact .inl (.inl ht)
  · exact .inr ⟨number, localSdp, callerId, rfl, .mobile hc hsnap huser hm⟩

/-- The device of an extension that was called. -/
theorem Reach.ringable {ext contact : String} {snap : Snapshot} (hr : Reach cfg rt req fs ext)
    (hsnap : Effect.event .snapshot snap ∈ fs)
    (hreg : snap.dir.getRegistration ext = some contact) :
    Ringable cfg rt req fs (contactUri contact) :=
  hr.imp_right fun hc => ⟨ext, contact, snap, hc, hsnap, hreg, rfl⟩

/-- A forwarding target of a user that was called. -/
theorem Reach.forward {ext target : String} {snap : Snapshot} (hr : Reach cfg rt req fs ext)
    (hsnap : Effect.event .snapshot snap ∈ fs)
    (hmem : some target ∈ [(snap.dir.getForwarding ext).busy,
      (snap.dir.getForwarding ext).noAnswer, (snap.dir.getForwarding ext).unavailable]) :
    Reach cfg rt req fs target :=
  hr.imp_right fun hc => .forward hc hsnap hmem

theorem forwardCall_obeys {target callId callingNumber : String}
    (hr : Reach cfg rt req fs target) (hid : Effect.event .randomUUID callId ∈ fs) :
    Obeys cfg rt req (Known fs) (forwardCall cfg req target callId callingNumber)
      fun _ _ => True := by
  have hno : ∀ {gs : History}, Effect.event .randomUUID callId ∈ gs →
      Quiet gs (forwardCall.notRegistered callId callingNumber) := fun hid =>
    quiet_bind (quiet_ask trivial) fun _ => quiet_bind (quiet_setStatus hid nofun) fun _ =>
      quiet_sendUnlessFinal _ _ _
  refine directory_then fun snap => ?_
  have hid' := List.mem_cons_of_mem (Effect.event .snapshot snap) hid
  have hr' := hr.mono (Facts.cons (Effect.event .snapshot snap) fs)
  split
  · split
    · rename_i user huser
      split
      · rename_i hcond
        have hmobile := hr'.dialable_mobile List.mem_cons_self huser (truthy_eq hcond.1)
        refine (routeCall_obeys hmobile _).bind fun ok => ?_
        exact Quiet.obeys_after (quiet_setOutcome hid' ok nofun nofun) fun _ _ _ => trivial
      · exact (hno hid').obeys fun _ _ _ => trivial
    · exact (hno hid').obeys fun _ _ _ => trivial
  · rename_i contact hreg
    refine quiet_then (quiet_ask trivial) fun _ => ?_
    refine (createB2BUA_obeys (hr'.ringable List.mem_cons_self hreg)).bind fun call => ?_
    cases call with
    | error _ =>
      refine quiet_then (quiet_ask trivial) fun _ => quiet_then (quiet_setStatus hid' nofun) fun _ => ?_
      exact Quiet.obeys (quiet_sendUnlessFinal _ _ _) fun _ _ _ => trivial
    | ok legs =>
      refine quiet_then (quiet_ask trivial) fun _ => quiet_then (quiet_ask trivial) fun _ => ?_
      refine (endWith_obeys rfl hid').bind fun _ => ?_
      exact Quiet.obeys_after (quiet_setStatus hid' nofun) fun _ _ _ => trivial

theorem quiet_toVoicemail {own : Request} {calledExt callId callingNumber reason : String}
    (hid : Effect.event .randomUUID callId ∈ fs) {unsaved : CallStatus} (hu : unsaved ≠ .ended) :
    Quiet fs (toVoicemail cfg own calledExt callId callingNumber unsaved reason) := by
  refine quiet_bind quiet_directory fun dir => quiet_bind (quiet_recordVoicemail _ _ _) fun saved => ?_
  refine quiet_bind (quiet_setOutcome hid saved nofun hu) fun _ => ?_
  exact quiet_ask trivial

theorem UnreachableReason.status_ne_ended (reason : UnreachableReason) : reason.status ≠ .ended := by
  cases reason <;> nofun

theorem routeUnreachable_obeys {ext callId callingNumber : String} {reason : UnreachableReason}
    (hr : Reach cfg rt req fs ext) (hid : Effect.event .randomUUID callId ∈ fs) :
    Obeys cfg rt req (Known fs) (routeUnreachable cfg req ext callId callingNumber reason)
      fun _ _ => True := by
  refine directory_then fun snap => ?_
  have hid' := List.mem_cons_of_mem (Effect.event .snapshot snap) hid
  have hr' := hr.mono (Facts.cons (Effect.event .snapshot snap) fs)
  dsimp only
  split
  · rename_i hcond
    obtain ⟨user, huser, hmobile⟩ := Option.bind_eq_some_iff.mp (truthy_eq hcond.1)
    refine (routeCall_obeys (hr'.dialable_mobile List.mem_cons_self huser hmobile) _).bind fun ok => ?_
    refine after_then (quiet_setOutcome hid' ok nofun nofun) fun _ => ?_
    split
    · exact obeys_pure fun _ _ => trivial
    · exact Quiet.obeys_after (quiet_ask trivial) fun _ _ _ => trivial
  · split
    · rename_i htarget
      refine forwardCall_obeys (hr'.forward List.mem_cons_self ?_) hid'
      rw [← truthy_eq htarget]
      exact List.mem_cons_of_mem _ (List.mem_cons_of_mem _ List.mem_cons_self)
    · split
      · exact Quiet.obeys (quiet_toVoicemail hid' nofun) fun _ _ _ => trivial
      · split
        · refine quiet_then (quiet_playUnavailable _) fun _ => ?_
          refine quiet_then (quiet_setStatus hid' reason.status_ne_ended) fun _ => ?_
          exact Quiet.obeys (quiet_ask trivial) fun _ _ _ => trivial
        · refine quiet_then (quiet_ask trivial) fun _ => ?_
          refine quiet_then (quiet_setStatus hid' reason.status_ne_ended) fun _ => ?_
          exact Quiet.obeys (quiet_sendUnlessFinal _ _ _) fun _ _ _ => trivial

theorem quiet_routeDoNotDisturb {own : Request} {calledExt callId callingNumber : String}
    (hid : Effect.event .randomUUID callId ∈ fs) :
    Quiet fs (routeDoNotDisturb cfg own calledExt callId callingNumber) := by
  unfold routeDoNotDisturb
  split
  · exact quiet_toVoicemail hid nofun
  · refine quiet_bind (quiet_ask trivial) fun _ => quiet_bind (quiet_setStatus hid nofun) fun _ => ?_
    exact quiet_sendUnlessFinal _ _ _

theorem extensionFailed_obeys {ext callId callingNumber : String} {err : SipError}
    (hr : Reach cfg rt req fs ext) (hid : Effect.event .randomUUID callId ∈ fs) :
    Obeys cfg rt req (Known fs) (extensionFailed cfg req ext callId callingNumber err)
      fun _ _ => True := by
  refine directory_then fun snap => ?_
  have hid' := List.mem_cons_of_mem (Effect.event .snapshot snap) hid
  have hr' := hr.mono (Facts.cons (Effect.event .snapshot snap) fs)
  dsimp only
  split
  · refine quiet_then (quiet_ask trivial) fun _ => ?_
    split
    · rename_i hbusy
      refine forwardCall_obeys (hr'.forward List.mem_cons_self ?_) hid'
      rw [← truthy_eq hbusy]
      exact List.mem_cons_self
    · exact quiet_then (quiet_ask trivial) fun _ => routeUnreachable_obeys hr' hid'
  · split
    · split
      · rename_i hnoAnswer
        refine forwardCall_obeys (hr'.forward List.mem_cons_self ?_) hid'
        rw [← truthy_eq hnoAnswer]
        exact List.mem_cons_of_mem _ List.mem_cons_self
      · exact quiet_then (quiet_ask trivial) fun _ => routeUnreachable_obeys hr' hid'
    · split
      · exact Quiet.obeys (quiet_setStatus hid' nofun) fun _ _ _ => trivial
      · split
        · exact routeUnreachable_obeys hr' hid'
        · refine quiet_then (quiet_ask trivial) fun _ => quiet_then (quiet_ask trivial) fun _ => ?_
          refine quiet_then (quiet_setStatus hid' nofun) fun _ => ?_
          exact Quiet.obeys (quiet_sendUnlessFinal _ _ _) fun _ _ _ => trivial

/-- The called extension is the one of the Request-URI, whichever contact rings. -/
theorem routeToExtension_obeys {contact callId : String}
    (hring : Ringable cfg rt req fs (contactUri contact))
    (hid : Effect.event .randomUUID callId ∈ fs) :
    Obeys cfg rt req (Known fs) (routeToExtension cfg req contact callId) fun _ _ => True := by
  refine quiet_then quiet_directory fun dir => ?_
  split
  · refine quiet_then (quiet_ask trivial) fun _ => quiet_then (quiet_setStatus hid nofun) fun _ => ?_
    exact Quiet.obeys (quiet_send _ _ _) fun _ _ _ => trivial
  · refine quiet_then (quiet_ask trivial) fun _ => (createB2BUA_obeys hring).bind fun call => ?_
    cases call with
    | error err => exact extensionFailed_obeys (.inr .uri) hid
    | ok legs =>
      refine quiet_then (quiet_ask trivial) fun _ => quiet_then (quiet_ask trivial) fun _ => ?_
      refine (endWith_obeys rfl hid).bind fun _ => ?_
      exact Quiet.obeys_after (quiet_setStatus hid nofun) fun _ _ _ => trivial

/-! ## Route handlers -/

/-- What is known of a call when the handlers see it. -/
structure Routed (cfg : Config) (rt : Runtime) (req : Request) (ctx : CallContext) (fs : History) :
    Prop where
  req_eq : ctx.req = req
  called : ctx.calledNumber = req.called
  started : Effect.event .randomUUID ctx.callId ∈ fs
  /-- Another caller than the one in the `From` header is named by a widget token. -/
  caller : ctx.callingNumber = req.caller ∨ Trusted cfg rt req fs
  widget : ctx.widget.isSome → Trusted cfg rt req fs

theorem Routed.cons {ctx : CallContext} (h : Routed cfg rt req ctx fs) (e : Prog.Event effects) :
    Routed cfg rt req ctx (e :: fs) where
  req_eq := h.req_eq
  called := h.called
  started := List.mem_cons_of_mem _ h.started
  caller := h.caller.imp_right (Trusted.mono (Facts.cons e fs))
  widget hw := (h.widget hw).mono (Facts.cons e fs)

/-- A caller that is found registered is vouched for. -/
theorem Routed.vouched {ctx : CallContext} (h : Routed cfg rt req ctx fs) {snap : Snapshot}
    (hsnap : Effect.event .snapshot snap ∈ fs)
    (hreg : snap.dir.isRegistered ctx.callingNumber = true) : Vouched cfg rt req fs := by
  rcases h.caller with hcaller | ht
  · rw [hcaller] at hreg
    exact .inr ⟨snap, hsnap, hreg⟩
  · exact .inl ht

/-- A caller that passes the registration gate may originate any leg. -/
theorem Routed.cleared {ctx : CallContext} (h : Routed cfg rt req ctx fs) {snap : Snapshot}
    (hsnap : Effect.event .snapshot snap ∈ fs) (hreg : ¬ ctx.unregistered snap.dir = true)
    (invite : OutboundInvite) : Cleared cfg rt req fs invite := by
  simp only [CallContext.unregistered, Bool.or_eq_true, Bool.not_eq_true', not_or,
    Bool.not_eq_false] at hreg
  exact .inl (h.vouched hsnap hreg.2)

/-- The handler obeys the policy, and has done nothing when it declines the call. -/
def Handles (cfg : Config) (rt : Runtime) (req : Request) (fs : History) (handle : CallProg Bool) :
    Prop :=
  Obeys cfg rt req (Known fs) handle fun handled h => handled = false → Known fs h

theorem Quiet.handles {handle : CallProg Bool} (hq : Quiet fs handle) :
    Handles cfg rt req fs handle := hq.obeys fun _ _ hk _ => hk

/-- A handler that looks at the users first. -/
theorem handles_directory {f : Directory → CallProg Bool}
    (hf : ∀ snap : Snapshot,
      Handles cfg rt req (Effect.event .snapshot snap :: fs) (f snap.dir)) :
    Handles cfg rt req fs (directory >>= f) :=
  directory_then fun snap => (hf snap).conseq (fun _ hk => hk) fun _ _ hk hb => (hk hb).tail

theorem handles_false : Handles cfg rt req fs (pure false) := (quiet_pure false).handles

/-- The end of a handler that takes the call. -/
theorem obeys_true {Pre : History → Prop} :
    Obeys cfg rt req Pre (pure true) fun handled h => handled = false → Known fs h :=
  obeys_pure fun _ _ => nofun

theorem Obeys.handles {p : CallProg Unit} (hp : Obeys cfg rt req (Known fs) p fun _ _ => True) :
    Handles cfg rt req fs (p >>= fun _ => pure true) := hp.bind fun _ => obeys_true

/-- A trunk call of a handler, with the status it leaves on the record. -/
theorem handles_routeCall {own : Request} {number callId : String}
    (hn : Dialable cfg rt req fs number) (hid : Effect.event .randomUUID callId ∈ fs)
    (callerId : Option String) :
    Handles cfg rt req fs (do
      let ok ← routeCall cfg own number callerId
      setStatus callId (if ok then .answered else .failed)
      pure true) := by
  refine (routeCall_obeys hn callerId).bind fun ok => ?_
  exact after_then (quiet_setOutcome hid ok nofun nofun) fun _ => obeys_true

section Handlers

variable {ctx : CallContext}

theorem logIvrCall_obeys {callerNumber calledNumber : String} :
    Obeys cfg rt req (Known fs) (logIvrCall callerNumber calledNumber)
      fun callId => Known (Effect.event .randomUUID callId :: fs) := by
  refine ask_then (e := .randomUUID) trivial fun callId => ?_
  refine quiet_then (quiet_ask trivial) fun startTime => quiet_then quiet_directory fun dir => ?_
  refine quiet_then (quiet_ask ⟨List.mem_cons_self, rfl, rfl⟩) fun _ => ?_
  exact obeys_pure fun _ hk => hk

theorem handleIncomingCall_obeys {own : Request} {existing : Option (String × String)}
    (hid : ∀ call, existing = some call → Effect.event .randomUUID call.1 ∈ fs) :
    Obeys cfg rt req (Known fs) (handleIncomingCall cfg rt own existing) fun _ => Facts fs := by
  unfold handleIncomingCall
  cases existing with
  | some call => exact answerIvr_obeys (hid call rfl)
  | none =>
    refine logIvrCall_obeys.bind fun callId => ?_
    refine (answerIvr_obeys List.mem_cons_self).conseq (fun _ hk => hk) fun _ _ hf e hmem => ?_
    exact hf e (List.mem_cons_of_mem _ hmem)

/-- An IVR call of a handler. -/
theorem handles_ivr {own : Request} {existing : Option (String × String)} {callId : String}
    (hid : Effect.event .randomUUID callId ∈ fs)
    (hex : ∀ call, existing = some call → Effect.event .randomUUID call.1 ∈ fs) :
    Handles cfg rt req fs (do
      (handleIncomingCall cfg rt own existing).tryCatch fun _ => do
        sendUnlessFinal 503
        setStatus callId .failed
      pure true) := by
  have hfacts : ∀ h, Known fs h → Facts fs h := fun _ hk => hk.2.2
  refine Obeys.handles (Obeys.tryCatch ?_ hfacts fun _ => ?_)
  · exact (handleIncomingCall_obeys hex).conseq (fun _ hk => hk) fun _ _ _ => trivial
  · refine after_then (quiet_sendUnlessFinal _ _ _) fun _ => ?_
    exact Quiet.obeys_after (quiet_setStatus hid nofun) fun _ _ _ => trivial

theorem quiet_ivrConnected : Quiet fs (ivrConnected cfg) :=
  quiet_ite (quiet_ask trivial) (quiet_pure _)

theorem trunkToUnregistered_handles (hx : Routed cfg rt req ctx fs) (target : String) :
    Handles cfg rt req fs (trunkToUnregistered cfg rt ctx target) := by
  refine quiet_then quiet_ivrConnected fun connected => ?_
  split
  · exact handles_ivr hx.started nofun
  · exact Quiet.handles (quiet_bind (quiet_send _ _ _) fun _ =>
      quiet_bind (quiet_setStatus hx.started nofun) fun _ => quiet_pure _)

theorem TrunkInboundHandler_handles (hx : Routed cfg rt req ctx fs) :
    Handles cfg rt req fs (TrunkInboundHandler cfg rt ctx) := by
  unfold TrunkInboundHandler
  split
  · exact handles_false
  · rename_i hsource
    have ht : Trusted cfg rt req fs := by
      rw [hx.req_eq, Bool.not_eq_true', Bool.not_eq_false] at hsource
      exact .inl hsource
    refine quiet_then quiet_directory fun dir => ?_
    split
    · exact Quiet.handles (quiet_bind (quiet_send _ _ _) fun _ =>
        quiet_bind (quiet_setStatus hx.started nofun) fun _ => quiet_pure _)
    · refine quiet_then (quiet_ask trivial) fun _ => ?_
      split
      · rw [hx.req_eq]
        exact (routeToExtension_obeys (.inl ht) hx.started).handles
      · exact trunkToUnregistered_handles hx _

/-! ### Widget calls -/

theorem quiet_refuseWidget (hx : Routed cfg rt req ctx fs) (claims : WidgetTokenClaims)
    (metadata : List (String × String)) (direction : CallDirection) :
    Quiet fs (refuseWidget ctx claims metadata direction) := by
  refine quiet_bind (quiet_ask trivial) fun _ => ?_
  refine quiet_bind (quiet_setFailed hx.started _) fun _ => ?_
  exact quiet_bind (quiet_send _ _ _) fun _ => quiet_pure _

theorem widgetToTrunk_handles (hx : Routed cfg rt req ctx fs) (ht : Trusted cfg rt req fs)
    (claims : WidgetTokenClaims) (destination : String) :
    Handles cfg rt req fs (widgetToTrunk cfg ctx claims destination) := by
  refine quiet_then (quiet_ask trivial) fun _ => ?_
  refine (routeCall_obeys (fun _ _ => .inl (.inl ht)) _).bind fun ok => ?_
  refine after_then (quiet_updateCall hx.started ⟨rfl, rfl, rfl, rfl⟩ rfl ?_) fun _ => obeys_true
  cases ok <;> nofun

theorem WidgetHandler_handles (hx : Routed cfg rt req ctx fs) (route : DialResult) :
    Handles cfg rt req fs (WidgetHandler cfg ctx route) := by
  unfold WidgetHandler
  split
  · exact handles_false
  · rename_i claims hwidget
    have ht : Trusted cfg rt req fs := hx.widget (by rw [hwidget]; rfl)
    dsimp only
    split
    · exact (quiet_refuseWidget hx _ _ _).handles
    · split
      · split
        · exact (quiet_refuseWidget hx _ _ _).handles
        · exact handles_false
      · split
        · exact Quiet.handles (quiet_bind (quiet_send _ _ _) fun _ =>
            quiet_bind (quiet_setFailed hx.started _) fun _ => quiet_pure _)
        · exact widgetToTrunk_handles hx ht _ _

/-! ### Meetings, conferences and queues -/

theorem quiet_refuseUnregistered (hx : Routed cfg rt req ctx fs)
    (details : List (String × String)) (reason : Option String) :
    Quiet fs (refuseUnregistered ctx details reason) := by
  refine quiet_bind (quiet_ask trivial) fun _ => ?_
  refine quiet_bind (quiet_setFailed hx.started _) fun _ => ?_
  exact quiet_bind (quiet_send _ _ _) fun _ => quiet_pure _

theorem joinMeetingLeg_obeys {number : String} (hn : Dialable cfg rt req fs number)
    (aLeg dialog bLeg : Leg) (conferenceId : String) :
    Obeys cfg rt req (Known fs) (joinMeetingLeg cfg aLeg dialog bLeg number conferenceId)
      fun _ => Facts fs := by
  have hdial : Obeys cfg rt req (Known fs)
      (((createOutboundLeg cfg number (bLeg.localSdp.getD "")).bind fun uac =>
        pure (some uac)).tryCatch fun _ => pure none) fun _ => Facts fs := by
    refine Obeys.tryCatch ?_ (fun _ hk => hk.2.2) fun _ => obeys_pure fun _ hf => hf
    exact (createOutboundLeg_obeys hn _ _).bind fun _ => obeys_pure fun _ hf => hf
  refine hdial.bind fun dialed => ?_
  split
  · exact (quiet_meetingFailed _ _).obeys_facts
  · refine after_then (quiet_playSafe _ _) fun _ => after_then (quiet_destroyAll _) fun _ => ?_
    exact obeys_pure fun _ hf => hf
  · exact Obeys.tryCatch (quiet_bridgeMeeting _ _ _ _ _).obeys_facts (fun _ hf => hf)
      fun _ => (quiet_meetingFailed _ _).obeys_facts

theorem joinTeamsMeeting_obeys {number : String} (hn : Dialable cfg rt req fs number)
    (conferenceId : String) :
    Obeys cfg rt req (Known fs) (joinTeamsMeeting cfg number conferenceId) fun _ => Facts fs := by
  refine quiet_then (quiet_ask trivial) fun up => ?_
  split
  · refine quiet_then (quiet_sendUnlessFinal _ _ _) fun _ => obeys_pure fun _ hk => hk.2.2
  · refine quiet_then (quiet_ask trivial) fun caller => ?_
    cases caller with
    | error _ => exact quiet_then (quiet_sendUnlessFinal _ _ _) fun _ => obeys_pure fun _ hk => hk.2.2
    | ok legs =>
      refine quiet_then (quiet_prepareVoice _) fun _ => quiet_then (quiet_playSafe _ _) fun _ => ?_
      refine quiet_then (quiet_ask trivial) fun bLeg => ?_
      cases bLeg with
      | error _ => exact (quiet_meetingFailed _ _).obeys fun _ _ hk => hk.2.2
      | ok bLeg => exact joinMeetingLeg_obeys hn _ _ _ _

theorem joinMeeting_handles (hx : Routed cfg rt req ctx fs) {dialIn : String}
    (hn : Dialable cfg rt req fs dialIn) (confId : String) :
    Handles cfg rt req fs (joinMeeting cfg ctx dialIn confId) := by
  refine quiet_then (quiet_ask trivial) fun attempts => quiet_then (quiet_ask trivial) fun now => ?_
  cases allowMeeting attempts ctx.callingNumber now with
  | mk attempts allowed =>
    refine quiet_then (quiet_ask trivial) fun _ => ?_
    cases allowed with
    | false => exact quiet_then (quiet_send _ _ _) fun _ => obeys_true
    | true =>
      refine quiet_then (quiet_updateCall hx.started ⟨rfl, rfl, rfl, rfl⟩ rfl nofun) fun _ => ?_
      refine (joinTeamsMeeting_obeys hn _).bind fun ok => ?_
      exact after_then (quiet_setOutcome hx.started ok nofun nofun) fun _ => obeys_true

theorem TeamsMeetingHandler_handles (hx : Routed cfg rt req ctx fs) :
    Handles cfg rt req fs (TeamsMeetingHandler cfg ctx) := by
  unfold TeamsMeetingHandler
  split
  · exact handles_false
  · split
    · exact quiet_then (quiet_send _ _ _) fun _ => obeys_true
    · split
      · exact quiet_then (quiet_send _ _ _) fun _ => obeys_true
      · refine handles_directory fun snap => ?_
        have hx' := hx.cons (Effect.event .snapshot snap)
        split
        · exact (quiet_refuseUnregistered hx' _ _).handles
        · rename_i hreg
          exact joinMeeting_handles hx' (fun _ _ => hx'.cleared List.mem_cons_self hreg _) _

theorem quiet_joinRoom (hx : Routed cfg rt req ctx fs) (roomId : String) :
    Quiet fs (joinRoom cfg ctx roomId) := by
  refine quiet_bind ?_ fun room => ?_
  · refine quiet_bind (quiet_ask trivial) fun existing => ?_
    cases existing with
    | none => exact quiet_ask trivial
    | some room => exact quiet_pure _
  · split
    · exact quiet_bind (quiet_send _ _ _) fun _ => quiet_pure _
    · refine quiet_bind (quiet_ask trivial) fun _ => ?_
      refine quiet_bind (quiet_updateCall hx.started ⟨rfl, rfl, rfl, rfl⟩ rfl nofun) fun _ => ?_
      refine quiet_bind (quiet_joinConference _ _ _ _) fun ok => ?_
      exact quiet_bind (quiet_setOutcome hx.started ok nofun nofun) fun _ => quiet_pure _

theorem quiet_ConferenceHandler (hx : Routed cfg rt req ctx fs) (route : Option DialResult) :
    Quiet fs (ConferenceHandler cfg ctx route) := by
  unfold ConferenceHandler
  split
  · exact quiet_pure _
  · split
    · exact quiet_bind (quiet_send _ _ _) fun _ => quiet_pure _
    · refine quiet_bind quiet_directory fun dir => ?_
      split
      · exact quiet_refuseUnregistered hx _ _
      · exact quiet_joinRoom hx _

/-- Agents are rung for a caller that is vouched for. -/
theorem enqueueCaller_obeys {queueId callId : String} {opts : EnqueueCaller.Options}
    (hv : Vouched cfg rt req fs) :
    Obeys cfg rt req (Known fs) (ask (.enqueueCaller queueId callId opts)) fun _ => Known fs := by
  constructor
  apply Prog.triple_perform (S := effects)
  · exact fun h hk => hv.mono hk.2.2
  · exact fun h x hk _ _ => hk.snoc (e := .enqueueCaller queueId callId opts) trivial x

theorem holdForAgent_handles (hx : Routed cfg rt req ctx fs) (hv : Vouched cfg rt req fs)
    (queueId queueName caller : String) :
    Handles cfg rt req fs (holdForAgent cfg ctx queueId queueName caller) := by
  refine quiet_then (quiet_ask trivial) fun _ => ?_
  refine quiet_then (quiet_updateCall hx.started ⟨rfl, rfl, rfl, rfl⟩ rfl nofun) fun _ => ?_
  refine (enqueueCaller_obeys hv).bind fun outcome => ?_
  cases outcome with
  | connected agent =>
    refine quiet_then (quiet_updateCall hx.started ⟨rfl, rfl, rfl, rfl⟩ rfl nofun) fun _ => ?_
    exact obeys_true
  | abandoned => exact quiet_then (quiet_setStatus hx.started nofun) fun _ => obeys_true
  | timeout => exact quiet_then (quiet_setStatus hx.started nofun) fun _ => obeys_true
  | failed =>
    refine quiet_then (quiet_ask trivial) fun _ => ?_
    exact quiet_then (quiet_setStatus hx.started nofun) fun _ => obeys_true

theorem enterQueue_handles (hx : Routed cfg rt req ctx fs) (hv : Vouched cfg rt req fs)
    (queueId queueName caller : String) :
    Handles cfg rt req fs (enterQueue cfg ctx queueId queueName caller) := by
  have htext : Quiet fs (noAgentsText cfg) := quiet_ite (quiet_ask trivial) (quiet_pure _)
  refine quiet_then (quiet_ask trivial) fun svc => ?_
  split
  · refine quiet_then (quiet_updateCall hx.started ⟨rfl, rfl, rfl, rfl⟩ rfl nofun) fun _ => ?_
    exact quiet_then htext fun _ => quiet_then (quiet_playUnavailable _) fun _ => obeys_true
  · exact holdForAgent_handles hx hv _ _ _

theorem quiet_queueClosed (queueId caller : String) :
    Quiet fs (queueClosed cfg ctx queueId caller) := by
  unfold queueClosed
  split
  · exact quiet_pure _
  · refine quiet_bind (quiet_ask trivial) fun decision => ?_
    cases decision <;> exact quiet_pure _

theorem Request.caller_ne (req : Request) : req.caller ≠ "" := by
  unfold Request.caller
  split
  · rename_i htruthy
    intro hempty
    have hsome := truthy_eq htruthy
    rw [hempty] at hsome
    rw [hsome] at htruthy
    cases htruthy
  · decide

/-- The queue's gate looks up the caller of the context, which is never empty. -/
theorem Routed.vouched_caller (hx : Routed cfg rt req ctx fs) {snap : Snapshot}
    (hsnap : Effect.event .snapshot snap ∈ fs) (hreg : snap.dir.isRegistered ctx.caller = true) :
    Vouched cfg rt req fs := by
  rcases hx.caller with hcaller | ht
  · have hown : ctx.caller = ctx.callingNumber := by
      unfold CallContext.caller
      rw [hcaller, if_neg req.caller_ne]
    rw [hown] at hreg
    exact hx.vouched hsnap hreg
  · exact .inl ht

theorem QueueHandler_handles (hx : Routed cfg rt req ctx fs) (route : Option DialResult) :
    Handles cfg rt req fs (QueueHandler cfg rt ctx route) := by
  unfold QueueHandler
  split
  · exact handles_false
  · split
    · exact quiet_then (quiet_send _ _ _) fun _ => obeys_true
    · refine quiet_then (quiet_ask trivial) fun svc => ?_
      split
      · exact quiet_then (quiet_send _ _ _) fun _ => obeys_true
      · refine handles_directory fun snap => ?_
        have hx' := hx.cons (Effect.event .snapshot snap)
        split
        · refine quiet_then (quiet_ask trivial) fun _ => ?_
          refine quiet_then (quiet_setStatus hx'.started nofun) fun _ => ?_
          exact quiet_then (quiet_send _ _ _) fun _ => obeys_true
        · rename_i hgate
          have hv : Vouched cfg rt req (Effect.event .snapshot snap :: fs) := by
            by_cases hsource : cfg.trunk.isFromTrunk rt req.sourceAddress = true
            · exact .inl (.inl hsource)
            · refine hx'.vouched_caller List.mem_cons_self ?_
              rw [hx.req_eq] at hgate
              simpa [hsource] using hgate
          refine quiet_then (quiet_queueClosed _ _) fun closed => ?_
          cases closed with
          | none => exact enterQueue_handles hx' hv _ _ _
          | some d =>
            refine quiet_then
              (quiet_updateCall hx'.started ⟨rfl, rfl, rfl, rfl⟩ rfl nofun) fun _ => ?_
            refine quiet_then (quiet_ask trivial) fun _ => ?_
            exact quiet_then (quiet_playUnavailable _) fun _ => obeys_true

/-! ### Emergency, IVR and internal calls -/

theorem routeOf_eq_some {type : RouteType} {route : Option DialResult} {r : DialResult}
    (h : routeOf type route = some r) : route = some r ∧ r.type = type := by
  obtain ⟨hr, htype⟩ := Option.filter_eq_some_iff.mp h
  exact ⟨hr, of_decide_eq_true htype⟩

theorem EmergencyHandler_handles (hx : Routed cfg rt req ctx fs) {route : Option DialResult}
    (hroute : ∀ r, route = some r → r.type = .emergency → r.target ∈ cfg.emergencyNumbers) :
    Handles cfg rt req fs (EmergencyHandler cfg ctx route) := by
  unfold EmergencyHandler
  split
  · exact handles_false
  · rename_i r hr
    obtain ⟨hsome, htype⟩ := routeOf_eq_some hr
    refine quiet_then (quiet_ask trivial) fun _ => ?_
    split
    · refine handles_routeCall (fun localSdp callerId => ?_) hx.started none
      exact .inr ⟨_, _, _, rfl, .emergency (hroute r hsome htype)⟩
    · exact Quiet.handles (quiet_bind (quiet_send _ _ _) fun _ =>
        quiet_bind (quiet_setStatus hx.started nofun) fun _ => quiet_pure _)

theorem IvrHandler_handles (hx : Routed cfg rt req ctx fs) (route : Option DialResult) :
    Handles cfg rt req fs (IvrHandler cfg rt ctx route) := by
  unfold IvrHandler
  split
  · exact handles_false
  · refine quiet_then quiet_ivrConnected fun connected => ?_
    split
    · exact handles_false
    · refine quiet_then (quiet_ask trivial) fun _ => handles_ivr hx.started fun call hcall => ?_
      cases hcall
      exact hx.started

theorem quiet_scheduleGate (hx : Routed cfg rt req ctx fs) (extension : String) :
    Quiet fs (scheduleGate cfg ctx extension) := by
  unfold scheduleGate
  split
  · exact quiet_pure _
  · refine quiet_bind (quiet_ask trivial) fun decision => ?_
    cases decision with
    | error _ => exact quiet_pure _
    | ok d =>
      dsimp only
      split
      · refine quiet_bind (quiet_ask trivial) fun _ => quiet_bind (quiet_playUnavailable _) fun _ => ?_
        exact quiet_bind (quiet_setStatus hx.started nofun) fun _ => quiet_pure _
      · exact quiet_pure _

theorem routeInternal_handles (hx : Routed cfg rt req ctx fs) {target : String}
    (hr : Reach cfg rt req fs target) : Handles cfg rt req fs (routeInternal cfg ctx target) := by
  refine handles_directory fun snap => ?_
  have hx' := hx.cons (Effect.event .snapshot snap)
  have hr' := hr.mono (Facts.cons (Effect.event .snapshot snap) fs)
  split
  · rename_i contact hreg
    split
    · exact Quiet.handles (quiet_bind (quiet_routeDoNotDisturb hx'.started) fun _ => quiet_pure _)
    · rw [hx.req_eq]
      exact (routeToExtension_obeys (hr'.ringable List.mem_cons_self hreg) hx'.started).handles
  · split
    · exact handles_false
    · rw [hx.req_eq]
      exact (routeUnreachable_obeys hr' hx'.started).handles

theorem InternalHandler_handles (hx : Routed cfg rt req ctx fs) {route : Option DialResult}
    (hroute : ∀ r, route = some r → r.type = .internal → Reach cfg rt req fs r.target) :
    Handles cfg rt req fs (InternalHandler cfg ctx route) := by
  unfold InternalHandler
  split
  · exact handles_false
  · rename_i r hr
    obtain ⟨hsome, htype⟩ := routeOf_eq_some hr
    refine quiet_then (quiet_scheduleGate hx _) fun closed => ?_
    cases closed with
    | true => exact (quiet_pure true).handles
    | false => exact routeInternal_handles hx (hroute r hsome htype)

/-! ### Outbound calls -/

/-- A call to a peer, whose failure is recorded. -/
theorem callPeer_handles (hx : Routed cfg rt req ctx fs)
    (hc : ∀ invite, Cleared cfg rt req fs invite) (peer : SipPeer) (user target : String) :
    Handles cfg rt req fs (callPeer cfg ctx peer user target) := by
  refine quiet_then quiet_directory fun dir => ?_
  refine quiet_then (quiet_updateCall hx.started ⟨rfl, rfl, rfl, rfl⟩ rfl nofun) fun _ => ?_
  refine Obeys.tryCatch ?_ (fun _ hk => hk.2.2) fun err => ?_
  · refine (createUAC_obeys (hc _)).bind fun answer => ?_
    refine after_then (quiet_ofExcept _) fun uac => ?_
    refine after_then (quiet_connectOutboundLeg uac) fun _ => ?_
    exact after_then (quiet_setStatus hx.started nofun) fun _ => obeys_true
  · refine after_then (quiet_setFailed hx.started _) fun _ => ?_
    exact after_then (quiet_sendUnlessFinal _ _ _) fun _ => obeys_true

theorem SipUriHandler_handles (hx : Routed cfg rt req ctx fs) (route : Option DialResult) :
    Handles cfg rt req fs (SipUriHandler cfg ctx route) := by
  unfold SipUriHandler
  split
  · exact handles_false
  · refine handles_directory fun snap => ?_
    have hx' := hx.cons (Effect.event .snapshot snap)
    split
    · exact (quiet_refuseUnregistered hx' _ _).handles
    · rename_i hreg
      split
      split
      · exact Quiet.handles (quiet_bind (quiet_setFailed hx'.started _) fun _ =>
          quiet_bind (quiet_send _ _ _) fun _ => quiet_pure _)
      · exact callPeer_handles hx' (hx'.cleared List.mem_cons_self hreg) _ _ _

theorem quiet_refuseBilling (hx : Routed cfg rt req ctx fs) (details : List (String × String))
    (status : Nat) (reason : String) : Quiet fs (refuseBilling ctx details status reason) := by
  refine quiet_bind (quiet_ask trivial) fun _ => ?_
  refine quiet_bind (quiet_setFailed hx.started _) fun _ => ?_
  exact quiet_bind (quiet_send _ _ _) fun _ => quiet_pure _

theorem billingGates_handles (hx : Routed cfg rt req ctx fs) {number : String}
    (hn : Dialable cfg rt req fs number) :
    Handles cfg rt req fs (billingGates cfg ctx number) := by
  refine quiet_then (quiet_ask trivial) fun snap => ?_
  dsimp only
  split
  · exact (quiet_refuseBilling hx _ _ _).handles
  · split
    · exact (quiet_refuseBilling hx _ _ _).handles
    · exact quiet_then quiet_directory fun dir => handles_routeCall hn hx.started _

theorem ExternalHandler_handles (hx : Routed cfg rt req ctx fs) (route : Option DialResult) :
    Handles cfg rt req fs (ExternalHandler cfg ctx route) := by
  unfold ExternalHandler
  split
  · exact handles_false
  · split
    · exact handles_false
    · refine handles_directory fun snap => ?_
      have hx' := hx.cons (Effect.event .snapshot snap)
      split
      · exact (quiet_refuseUnregistered hx' _ _).handles
      · rename_i hreg
        exact billingGates_handles hx' fun _ _ => hx'.cleared List.mem_cons_self hreg _

/-! ## Routing rules -/

/-- The owner of the rule chose the destination, whoever calls. -/
theorem dispatchRoutingRule_handles (hx : Routed cfg rt req ctx fs) {rule : RoutingRule}
    (hrule : Effect.event (.getRoutingRule req.called) (some rule) ∈ fs) :
    Handles cfg rt req fs (dispatchRoutingRule cfg rt ctx rule) := by
  unfold dispatchRoutingRule
  cases htype : rule.destinationType with
  | ivr => exact IvrHandler_handles hx _
  | extension =>
    refine InternalHandler_handles hx fun r hr _ => ?_
    cases hr
    exact .inr (.rule hrule htype)
  | pstn =>
    dsimp only
    split
    · exact Quiet.handles (quiet_bind (quiet_sendUnlessFinal _ _ _) fun _ =>
        quiet_bind (quiet_setStatus hx.started nofun) fun _ => quiet_pure _)
    · refine handles_routeCall (fun localSdp callerId => ?_) hx.started none
      exact .inr ⟨_, _, _, rfl, .rule hrule htype⟩
  | voicemail =>
    dsimp only
    split
    · refine quiet_then quiet_directory fun dir => ?_
      refine quiet_then (quiet_recordVoicemail _ _ _) fun saved => ?_
      exact quiet_then (quiet_setOutcome hx.started saved nofun nofun) fun _ => obeys_true
    · exact Quiet.handles (quiet_bind (quiet_sendUnlessFinal _ _ _) fun _ =>
        quiet_bind (quiet_setStatus hx.started nofun) fun _ => quiet_pure _)
  | aiAgent => exact handles_false

theorem applyRoutingRule_handles (hx : Routed cfg rt req ctx fs) :
    Handles cfg rt req fs (applyRoutingRule cfg rt ctx) := by
  unfold applyRoutingRule
  split
  · exact handles_false
  · rw [hx.called]
    refine ask_then (e := .getRoutingRule req.called) trivial fun rule? => ?_
    have hx' := hx.cons (Effect.event (.getRoutingRule req.called) rule?)
    cases rule? with
    | none => exact obeys_pure fun _ hk _ => hk.tail
    | some rule =>
      refine quiet_then (quiet_ask trivial) fun _ => ?_
      exact (dispatchRoutingRule_handles hx' List.mem_cons_self).conseq (fun _ hk => hk)
        fun _ _ hk hb => (hk hb).tail

/-! ## The pipeline -/

theorem quiet_pushWakeUp : Quiet fs (pushWakeUp cfg ctx) := by
  unfold pushWakeUp
  split
  · exact quiet_pure _
  · exact quiet_bind quiet_directory fun dir => quiet_ite (quiet_ask trivial) (quiet_pure _)

/-- Handlers that decline leave the facts to the next one. -/
theorem firstHandler_handles {handlers : List (CallProg Bool)}
    (h : ∀ handle ∈ handlers, Handles cfg rt req fs handle) :
    Handles cfg rt req fs (firstHandler handlers) := by
  induction handlers with
  | nil => exact handles_false
  | cons handle rest ih =>
    obtain ⟨hhead, htail⟩ := List.forall_mem_cons.mp h
    refine hhead.bind fun handled => ?_
    cases handled with
    | true => exact obeys_true
    | false => exact (ih htail).conseq (fun _ hk => hk rfl) fun _ _ hk => hk

/-- What the dial plan guarantees of a route. -/
structure RouteOk (cfg : Config) (req : Request) (route : DialResult) : Prop where
  emergency : route.type = .emergency → route.target ∈ cfg.emergencyNumbers
  internal : route.type = .internal → route.target = (resolve cfg.emergencyNumbers req.called).target

theorem inviteRoute_ok (cfg : Config) (rt : Runtime) (dir : Directory) (req : Request) :
    RouteOk cfg req (inviteRoute cfg rt dir req) := by
  have hplan : RouteOk cfg req ((resolveExternalSip rt.parseUri cfg.sipPeers (req.uri.getD "")).getD
      (resolve cfg.emergencyNumbers req.called)) := by
    cases hsip : resolveExternalSip rt.parseUri cfg.sipPeers (req.uri.getD "") with
    | none =>
      rw [Option.getD_none]
      exact ⟨resolve_emergency, fun _ => rfl⟩
    | some route =>
      -- an approved peer is neither an emergency nor an extension
      have htype := resolveExternalSip_type hsip
      refine ⟨fun h => ?_, fun h => ?_⟩ <;> rw [Option.getD_some, htype] at h <;> cases h
  unfold inviteRoute
  dsimp only
  split
  · exact ⟨nofun, nofun⟩
  · exact hplan

theorem routeHandlers_handle (hx : Routed cfg rt req ctx fs) {route : DialResult}
    (hroute : RouteOk cfg req route) :
    ∀ handle ∈ TrunkInboundHandler cfg rt ctx :: routeHandlers cfg rt ctx route,
      Handles cfg rt req fs handle := by
  simp only [routeHandlers, List.forall_mem_cons]
  refine ⟨TrunkInboundHandler_handles hx, WidgetHandler_handles hx _, TeamsMeetingHandler_handles hx,
    (quiet_ConferenceHandler hx _).handles, QueueHandler_handles hx _,
    EmergencyHandler_handles hx ?_, IvrHandler_handles hx _, InternalHandler_handles hx ?_,
    SipUriHandler_handles hx _, ExternalHandler_handles hx _, nofun⟩
  · intro r hr htype
    cases hr
    exact hroute.emergency htype
  · intro r hr htype
    cases hr
    rw [hroute.internal htype]
    exact .inr .dialed

theorem routeCallContext_obeys (hx : Routed cfg rt req ctx fs) {route : DialResult}
    (hroute : RouteOk cfg req route) :
    Obeys cfg rt req (Known fs) (routeCallContext cfg rt ctx route) fun _ _ => True := by
  refine (applyRoutingRule_handles hx).bind fun ruled => ?_
  cases ruled with
  | true => exact obeys_pure fun _ _ => trivial
  | false =>
    refine Obeys.conseq (quiet_then quiet_pushWakeUp fun _ => ?_) (fun _ hk => hk rfl)
      fun _ _ h => h
    refine (firstHandler_handles (routeHandlers_handle hx hroute)).bind fun handled => ?_
    cases handled with
    | true => exact obeys_pure fun _ _ => trivial
    | false =>
      refine Obeys.conseq (quiet_then (quiet_send _ _ _) fun _ => ?_) (fun _ hk => hk rfl)
        fun _ _ h => h
      exact Quiet.obeys (quiet_setStatus hx.started nofun) fun _ _ _ => trivial

end Handlers

theorem acceptInvite_obeys {claims : Option WidgetTokenClaims}
    (hclaims : claims.isSome → Trusted cfg rt req fs) {dir : Directory} {route : DialResult}
    (hroute : RouteOk cfg req route) :
    Obeys cfg rt req (Known fs) (acceptInvite cfg rt req claims dir route) fun _ _ => True := by
  refine ask_then (e := .randomUUID) trivial fun callId => ?_
  refine quiet_then (quiet_ask trivial) fun startTime => ?_
  refine quiet_then (quiet_ask ⟨List.mem_cons_self, rfl, rfl⟩) fun _ => ?_
  refine quiet_then (quiet_ask trivial) fun _ => ?_
  have htrusted : claims.isSome → Trusted cfg rt req (Effect.event .randomUUID callId :: fs) :=
    fun hs => (hclaims hs).mono (Facts.cons _ fs)
  have hx : Routed cfg rt req { req, calledNumber := req.called, callId, widget := claims
                                callingNumber := callerIdentity req claims }
      (Effect.event .randomUUID callId :: fs) := by
    refine ⟨rfl, rfl, List.mem_cons_self, ?_, htrusted⟩
    cases claims with
    | none => exact .inl rfl
    | some claims => exact .inr (htrusted rfl)
  exact routeCallContext_obeys hx hroute

/-- The claims of a widget token are trusted once it is verified. -/
theorem parseWidgetToken_obeys :
    Obeys cfg rt req (Known fs) (parseWidgetToken req) fun claims h =>
      ∃ gs, (claims.isSome → Trusted cfg rt req gs) ∧ Known gs h := by
  refine obeys_ite (fun _ => obeys_pure fun _ hk => ⟨fs, nofun, hk⟩) fun _ => ?_
  refine ask_then (e := .verifyWidgetToken req.widgetToken) trivial fun claims =>
    obeys_pure fun h hk => ⟨_, fun hsome => ?_, hk⟩
  obtain ⟨c, hc⟩ := Option.isSome_iff_exists.mp hsome
  exact .inr ⟨req.widgetToken, c, hc ▸ List.mem_cons_self⟩

theorem screenInvite_obeys :
    Obeys cfg rt req (Known fs) (screenInvite cfg rt req) fun _ _ => True := by
  unfold screenInvite
  refine parseWidgetToken_obeys.bind fun claims => obeys_exists fun gs hclaims => ?_
  refine quiet_then quiet_directory fun dir => ?_
  dsimp only
  split
  · refine quiet_then (quiet_ask trivial) fun _ => quiet_then (quiet_ask trivial) fun _ => ?_
    exact Quiet.obeys (quiet_send _ _ _) fun _ _ _ => trivial
  · exact acceptInvite_obeys hclaims (inviteRoute_ok cfg rt dir req)

theorem guardInvite_obeys :
    Obeys cfg rt req (Known fs) (guardInvite cfg rt req) fun _ _ => True := by
  refine quiet_then (quiet_ask trivial) fun banned => ?_
  split
  · exact Quiet.obeys (quiet_send _ _ _) fun _ _ _ => trivial
  · refine quiet_then (quiet_ask trivial) fun rates => quiet_then (quiet_ask trivial) fun now => ?_
    cases checkSipRate cfg rates req.sourceAddress now with
    | mk rates allowed =>
      refine quiet_then (quiet_ask trivial) fun _ => ?_
      cases allowed with
      | false => exact quiet_then (quiet_ask trivial) fun _ =>
          Quiet.obeys (quiet_send _ _ _) fun _ _ _ => trivial
      | true => exact screenInvite_obeys

/-- Whatever the environment answers, an INVITE is handled within the policy. -/
theorem handleInvite_obeys (cfg : Config) (rt : Runtime) (req : Request) :
    Obeys cfg rt req (· = []) (handleInvite cfg rt req) fun _ _ => True := by
  have hnil : ∀ h : History, Facts [] h := fun h e hmem => nomatch hmem
  unfold handleInvite
  refine Obeys.tryCatch ?_ (fun h _ => hnil h) fun _ => ?_
  · have hguard : Obeys cfg rt req (Known []) (guardInvite cfg rt req) fun _ _ => True :=
      guardInvite_obeys
    refine hguard.conseq (fun h hh => ?_) fun _ _ h => h
    subst hh
    exact ⟨fun _ _ => nofun, fun _ _ => nofun, hnil []⟩
  · exact Quiet.obeys_after (quiet_sendUnlessFinal _ _ _) fun _ _ _ => trivial

end CallNet
