import CallNet.Spec.LegSources

/-!
# What an INVITE may do

Whether some run performs an effect is settled on calm runs: the users are those of one
snapshot throughout, and no routing rule matches.
-/

namespace CallNet

/-- The users are those of `snap`, and no routing rule matches. -/
def Calm (snap : Snapshot) : Prog.Event effects → Prop
  | ⟨.snapshot, s⟩ => s = snap
  | ⟨.getRoutingRule _, rule⟩ => rule = none
  | _ => True

/-- Some calm run of the program performs `e`. -/
abbrev May (snap : Snapshot) {α : Type} (e : Effect) (p : CallProg α) : Prop :=
  Prog.May (Calm snap) e p

section May

variable {snap : Snapshot} {e : Effect} {α β : Type}

theorem exists_calm (snap : Snapshot) (e : Effect) : ∃ x, Calm snap (e.event x) := by
  refine ⟨calmWorld snap.dir snap.rater [] e, ?_⟩
  cases e <;> first | rfl | trivial

theorem may_self (f : e.Answer → CallProg α) : May snap e (ask e >>= f) :=
  Prog.may_here (S := effects) (o := e) (exists_calm snap) f

theorem may_directory {f : Directory → CallProg α} (h : May snap e (f snap.dir)) :
    May snap e (directory >>= f) := may_snapshot rfl h

theorem may_bind {p : CallProg α} (h : May snap e p) (f : α → CallProg β) :
    May snap e (p >>= f) := h.bind (exists_calm snap) f

theorem may_tryCatch {p : CallProg α} (h : May snap e p) (f : SipError → CallProg α) :
    May snap e (p.tryCatch f) := h.tryCatch (exists_calm snap) f

/-- After a program that never fails and returns nothing. -/
theorem may_then {p : CallProg Unit} {q : CallProg β} (hp : Unfailing p) (h : May snap e q) :
    May snap e (p >>= fun _ => q) := by
  obtain ⟨t, r, hr, ht⟩ := Prog.exists_run (S := effects) (exists_calm snap) p
  cases r with
  | ok a => exact Prog.May.after hr ht h
  | error err => exact (hp.total.run hr).elim

theorem unfailing_playSafe (endpoint : Leg) (file : String) : Unfailing (playSafe endpoint file) :=
  unfailing_ask (e := .play endpoint file) fun _ => unfailing_pure ()

theorem unfailing_prepareVoice (cfg : Config) (endpoint : Leg) :
    Unfailing (prepareVoice cfg endpoint) := unfailing_tryCatch fun _ => unfailing_pure ()

theorem unfailing_pushWakeUp (cfg : Config) (ctx : CallContext) :
    Unfailing (pushWakeUp cfg ctx) := by
  refine unfailing_ite (unfailing_pure _) (unfailing_bind ?_ fun dir => unfailing_ite ?_ ?_)
  · exact unfailing_ask (e := .snapshot) fun _ => unfailing_pure _
  · exact ⟨fun _ => trivial⟩
  · exact unfailing_pure ()

/-! ## Legs -/

variable {cfg : Config} {rt : Runtime} {req : Request}

theorem createOutboundLeg_may (henabled : cfg.trunk.enabled = true) (number localSdp : String)
    (callerId : Option String) :
    May snap (.createUAC (cfg.trunk.invite number localSdp callerId))
      (createOutboundLeg cfg number localSdp callerId) := by
  have hon : ¬ (!cfg.trunk.enabled) = true := by rw [henabled]; nofun
  unfold createOutboundLeg
  rw [if_neg hon]
  exact may_self (e := .createUAC _) _

theorem routeCall_may (henabled : cfg.trunk.enabled = true) (number : String)
    (callerId : Option String) :
    May snap (.createUAC (cfg.trunk.invite number req.body callerId))
      (routeCall cfg req number callerId) := by
  have hon : ¬ (!cfg.trunk.enabled) = true := by rw [henabled]; nofun
  unfold routeCall
  dsimp only
  rw [if_neg hon]
  exact may_tryCatch (may_bind (createOutboundLeg_may henabled _ _ _) _) _

/-- A meeting is dialed in to from the media server's endpoint. -/
theorem joinTeamsMeeting_may (henabled : cfg.trunk.enabled = true) (number conferenceId : String)
    (localSdp : String) :
    May snap (.createUAC (cfg.trunk.invite number localSdp none))
      (joinTeamsMeeting cfg number conferenceId) := by
  let aLeg : Leg := ⟨0, none, none⟩
  let bLeg : Leg := ⟨2, some localSdp, none⟩
  -- the media server is up and has an endpoint for the caller and one for the meeting
  refine may_ask (d := .ensureConnected) true trivial ?_
  refine may_ask (d := .connectCaller) (.ok (aLeg, ⟨1, none, none⟩)) trivial ?_
  refine may_then (unfailing_prepareVoice _ _) (may_then (unfailing_playSafe _ _) ?_)
  refine may_ask (d := .createEndpoint) (.ok bLeg) trivial ?_
  -- the meeting leg
  have hleg : May snap (.createUAC (cfg.trunk.invite number localSdp none))
      (createOutboundLeg cfg number (bLeg.localSdp.getD "")) := createOutboundLeg_may henabled _ _ _
  exact may_bind (may_tryCatch (may_bind hleg _) _) _

/-- A registered caller who asks for a meeting is dialed in to it. -/
theorem TeamsMeetingHandler_may (ctx : CallContext) (hjoins : JoinsMeeting cfg ctx.req)
    (hcaller : ctx.callingNumber ≠ "") (hreg : snap.dir.isRegistered ctx.callingNumber = true)
    (localSdp : String) :
    May snap (.createUAC (cfg.trunk.invite (ctx.req.dialIn cfg) localSdp none))
      (TeamsMeetingHandler cfg ctx) := by
  have hup : ¬ (!cfg.trunk.enabled ∨ !cfg.hasIvr) := by
    rw [hjoins.enabled, hjoins.media]
    nofun
  have hknown : ¬ ctx.unregistered snap.dir = true := by
    unfold CallContext.unregistered
    rw [hreg, Bool.not_true, Bool.or_false, decide_eq_true_eq]
    exact hcaller
  unfold TeamsMeetingHandler
  rw [if_neg hjoins.confId, if_neg hup, if_neg hjoins.dialIn]
  refine may_directory ?_
  rw [if_neg hknown]
  refine may_ask (d := .teamsAttempts) OrdMap.empty trivial ?_
  refine may_ask (d := .nowMs) (0 : Nat) trivial (may_ask (d := .setTeamsAttempts _) () trivial ?_)
  refine may_ask (d := .updateCall _ _) () trivial ?_
  exact may_bind (joinTeamsMeeting_may hjoins.enabled _ _ _) _

/-! ## Routing -/

/-- Without a token the call is first offered to the meeting handler. -/
theorem routeAdmitted_may_meeting {callId : String} {route : DialResult}
    (hsource : cfg.trunk.isFromTrunk rt req.sourceAddress = false) (hjoins : JoinsMeeting cfg req)
    (hcaller : callerIdentity req none ≠ "")
    (hreg : snap.dir.isRegistered (callerIdentity req none) = true) (localSdp : String) :
    May snap (.createUAC (cfg.trunk.invite (req.dialIn cfg) localSdp none))
      (routeAdmitted cfg rt (req.context none callId) route) := by
  have htrunk : TrunkInboundHandler cfg rt (req.context none callId) = pure false :=
    TrunkInboundHandler_declines hsource
  have hwidget : WidgetHandler cfg (req.context none callId) route = pure false :=
    WidgetHandler_declines rfl
  refine may_tryCatch ?_ _
  unfold routeCallContext
  rw [htrunk]
  -- no rule matches, and the callee may be woken up
  refine may_ask (d := .getRoutingRule _) none rfl (may_then (unfailing_pushWakeUp _ _) ?_)
  -- neither the trunk's handler nor the widgets' takes the call
  refine may_bind ?_ _
  unfold routeHandlers
  rw [hwidget, firstHandler_skip, firstHandler_skip]
  have hmeeting : May snap (.createUAC (cfg.trunk.invite (req.dialIn cfg) localSdp none))
      (TeamsMeetingHandler cfg (req.context none callId)) :=
    TeamsMeetingHandler_may (req.context none callId) hjoins hcaller hreg localSdp
  exact may_bind hmeeting _

/-- A token of the trunk kind dials its number. -/
theorem routeAdmitted_may_widget {callId : String} {route : DialResult} {c : WidgetTokenClaims}
    (hsource : cfg.trunk.isFromTrunk rt req.sourceAddress = false)
    (henabled : cfg.trunk.enabled = true) (hkind : c.routeType.getD .trunk = .trunk)
    (hmatch : digitsEqual (toDigits c.destination) (toDigits route.normalizedNumber) = true) :
    ∃ callerId, May snap (.createUAC (cfg.trunk.invite route.normalizedNumber req.body callerId))
      (routeAdmitted cfg rt (req.context (some c) callId) route) := by
  refine ⟨if c.callerId = "" then none else some c.callerId, may_tryCatch ?_ _⟩
  have hwidget : (req.context (some c) callId).widget = some c := rfl
  rw [routeCallContext_widget hwidget hsource]
  refine may_bind (may_bind ?_ _) _
  rw [WidgetHandler_trunk hwidget hkind henabled hmatch]
  unfold widgetNumber
  rw [if_pos hmatch]
  refine may_ask (d := .audit _ _ _ _) () trivial (may_bind ?_ _)
  exact routeCall_may henabled _ _

/-- Admission is calm: it looks at the users once and at no rule. -/
theorem Admission.calm (a : Admission) : ∀ ev ∈ a.trace cfg req, Calm a.snap ev := by
  have htoken : ∀ ev ∈ tokenTrace req a.claims, Calm a.snap ev := by
    unfold tokenTrace
    split
    · exact fun _ hev => absurd hev List.not_mem_nil
    · exact fun ev hev => by rw [List.mem_singleton.mp hev]; trivial
  simp only [Admission.trace, logTrace, List.forall_mem_cons, List.forall_mem_append]
  exact ⟨trivial, trivial, trivial, trivial, htoken, rfl, trivial, trivial, trivial, trivial,
    fun _ hev => absurd hev List.not_mem_nil⟩

/-- An admitted call may do what its routing may do, and all of it is calm. -/
theorem Admission.Ok.run_may {a : Admission} (ha : a.Ok cfg rt req)
    (h : May a.snap e (routeAdmitted cfg rt (a.ctx req) (a.route cfg rt req))) :
    ∃ pre x post r, Prog.Run (handleInvite cfg rt req) (pre ++ e.event x :: post) r ∧
      TokenClaims (pre ++ e.event x :: post) a.claims ∧
      ∀ ev ∈ pre ++ e.event x :: post, Calm a.snap ev := by
  obtain ⟨u, r, x, hu, hmem, hcalm⟩ := h.run
  obtain ⟨mid, post, rfl⟩ := List.append_of_mem hmem
  refine ⟨a.trace cfg req ++ mid, x, post, r, ?_, ?_, ?_⟩ <;> rw [List.append_assoc]
  · exact run_handleInvite_iff.mpr (.inr ⟨a, ha, _, rfl, hu⟩)
  · exact ha.tokenClaims hu
  · exact List.forall_mem_append.mpr ⟨a.calm, hcalm⟩

end May

end CallNet
