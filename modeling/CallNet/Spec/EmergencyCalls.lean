import CallNet.Engine.RoutingRules
import CallNet.Spec.WidgetScope
import CallNet.Spec.Calm

/-!
# Emergency calls

The emergency handler is the fifth in order and comes after the routing rules.  So an
emergency number reaches it only where no enabled rule takes the dialed string, the URI names
no approved peer and no header asks for a meeting (`emergency_handled_iff`).
-/

namespace CallNet

/-- What may happen before a call is handed to a handler: it is screened and logged, its rule is
    looked up, and the callee is woken up. -/
def Effect.Preliminary : Effect → Prop
  | .isBanned _ | .sipRates | .setSipRates _ | .nowMs | .verifyWidgetToken _ | .snapshot
  | .randomUUID | .timestamp | .logCall _ | .getRoutingRule _ | .sendIncomingCall _ _ _ _
  | .isConnected => True
  | .audit _ _ metadata _ => ("type", "emergency") ∉ metadata
  | _ => False

/-- The audit entry of an emergency call. -/
def Effect.MarksEmergency : Effect → Prop
  | .audit _ _ metadata _ => ("type", "emergency") ∈ metadata
  | _ => False

/-- The rule leaves the call to the handlers. -/
def PassesOn (cfg : Config) : Option RoutingRule → Prop
  | none => True
  | some r => r.destinationType = .aiAgent ∨
      r.destinationType = .ivr ∧ ¬ (cfg.hasIvr = true ∧ cfg.ivrEnabled = true)

/-- The engine's answer for a number, from this table. -/
def RoutingRules.ruleFor (table : RoutingRules) (number : String) : Option RoutingRule :=
  (table.loadRoutingRuleByNumber number).bind rowToRule

/-- Every lookup is answered from the table, or fails. -/
def RulesOf (table : RoutingRules) (t : History) : Prop :=
  ∀ number rule, Effect.event (.getRoutingRule number) rule ∈ t →
    rule = none ∨ rule = table.ruleFor number

/-- The INVITE passes the ban and the rate check. -/
def PassesGuard (cfg : Config) (req : Request) (t : History) : Prop :=
  ∃ rates now u, (checkSipRate cfg rates req.sourceAddress now).2 = true ∧
    t = Effect.event (.isBanned req.sourceAddress) false :: Effect.event .sipRates rates ::
      Effect.event .nowMs now ::
      Effect.event (.setSipRates (checkSipRate cfg rates req.sourceAddress now).1) () :: u

/-- After the preliminaries the emergency handler takes the call, and nothing else does. -/
def HandledAsEmergency (cfg : Config) (req : Request) (t : History) : Prop :=
  ∃ callId pre w, t = pre ++ w ∧ (∀ ev ∈ pre, ev.1.Preliminary) ∧
    Prog.Run (EmergencyHandler cfg (req.context none callId)
      (some (resolve cfg.emergencyNumbers req.called))) w (.ok true)

/-- Nothing takes the call before the emergency handler. -/
structure EmergencyFirst (cfg : Config) (rt : Runtime) (req : Request) (table : RoutingRules) :
    Prop where
  uri : resolveExternalSip rt.parseUri cfg.sipPeers (req.uri.getD "") = none
  meeting : req.confId = ""
  rule : PassesOn cfg (table.ruleFor req.called)

section Emergency

variable {cfg : Config} {rt : Runtime} {req : Request} {ctx : CallContext} {route : DialResult}
  {t u v w : History}

theorem Effect.Preliminary.not_marks {e : Effect} (h : e.Preliminary) : ¬ e.MarksEmergency := by
  cases e <;> first | exact h | exact id

/-! ## The emergency handler -/

theorem unfailing_routeCall (number : String) (callerId : Option String) :
    Unfailing (routeCall cfg req number callerId) := by
  have hno : Unfailing (do send 503; pure false : CallProg Bool) :=
    unfailing_ask (e := .send _ _ _) fun _ => unfailing_pure _
  exact unfailing_ite hno (unfailing_tryCatch fun _ => hno)

theorem unfailing_EmergencyHandler (route : Option DialResult) :
    Unfailing (EmergencyHandler cfg ctx route) := by
  unfold EmergencyHandler
  split
  · exact unfailing_pure _
  · refine unfailing_ask (e := .audit _ _ _ _) fun _ => unfailing_ite ?_ ?_
    · exact unfailing_bind (unfailing_routeCall _ _) fun _ =>
        unfailing_ask (e := .updateCall _ _) fun _ => unfailing_pure _
    · exact unfailing_ask (e := .send _ _ _) fun _ =>
        unfailing_ask (e := .updateCall _ _) fun _ => unfailing_pure _

theorem routeOf_self (h : route.type = type) : routeOf type (some route) = some route :=
  Option.filter_eq_some_iff.mpr ⟨rfl, decide_eq_true h⟩

theorem routeOf_ne {type : RouteType} (h : route.type ≠ type) : routeOf type (some route) = none :=
  Option.filter_eq_none_iff.mpr fun r hr => by
    cases hr
    exact fun heq => h (of_decide_eq_true heq)

theorem EmergencyHandler_takes (htype : route.type = .emergency) :
    Takes (EmergencyHandler cfg ctx (some route)) := by
  unfold EmergencyHandler
  rw [routeOf_self htype]
  refine takes_bind fun _ => takes_ite (fun _ => ?_) fun _ => ?_
  · exact takes_bind fun _ => takes_bind fun _ => takes_true
  · exact takes_bind fun _ => takes_bind fun _ => takes_true

/-- A run of a handler that takes every call and never fails. -/
theorem Takes.run {handle : CallProg Bool} (h : Takes handle) (hu : Unfailing handle)
    {r : Except SipError Bool} (hr : Prog.Run handle w r) : r = .ok true := by
  cases r with
  | error e => exact (hu.total.run hr).elim
  | ok b =>
    obtain ⟨p, rfl⟩ := h
    rcases Prog.run_bind_iff.mp hr with ⟨_, _, _, -, -, hend⟩ | ⟨e, -, he⟩
    · exact (run_pure_iff.mp hend).2
    · cases he

theorem EmergencyHandler_marks (htype : route.type = .emergency) {r : Except SipError Bool}
    (hr : Prog.Run (EmergencyHandler cfg ctx (some route)) w r) :
    ∃ ev ∈ w, ev.1.MarksEmergency := by
  unfold EmergencyHandler at hr
  rw [routeOf_self htype] at hr
  obtain ⟨x, u, rfl, -⟩ := (run_ask_iff (e := .audit _ _ _ _)).mp hr
  refine ⟨_, List.mem_cons_self, ?_⟩
  exact List.mem_cons_of_mem _ (List.mem_cons_of_mem _ List.mem_cons_self)

/-- On an emergency route without a meeting the handlers before the emergency handler decline. -/
theorem firstHandler_emergency (hw : ctx.widget = none)
    (hsource : cfg.trunk.isFromTrunk rt ctx.req.sourceAddress = false)
    (hconf : ctx.req.confId = "") (htype : route.type = .emergency) :
    firstHandler (TrunkInboundHandler cfg rt ctx :: routeHandlers cfg rt ctx route) =
      EmergencyHandler cfg ctx (some route) := by
  have hmeeting : TeamsMeetingHandler cfg ctx = pure false := if_pos hconf
  have hconference : ConferenceHandler cfg ctx (some route) = pure false := by
    unfold ConferenceHandler
    rw [routeOf_ne (by rw [htype]; nofun)]
  have hqueue : QueueHandler cfg rt ctx (some route) = pure false := by
    unfold QueueHandler
    rw [routeOf_ne (by rw [htype]; nofun)]
  unfold routeHandlers
  rw [TrunkInboundHandler_declines hsource, WidgetHandler_declines hw, hmeeting, hconference, hqueue]
  simp only [firstHandler_skip]
  exact firstHandler_takes (EmergencyHandler_takes htype) _

/-! ## Calls that get there -/

/-- A rule that passes the call on does nothing but ask whether the media server is up. -/
theorem run_dispatch_passed {r : RoutingRule} (h : PassesOn cfg (some r))
    {result : Except SipError Bool}
    (hr : Prog.Run (dispatchRoutingRule cfg rt ctx r) v result) :
    result = .ok false ∧ ∀ ev ∈ v, ev.1.Preliminary := by
  unfold dispatchRoutingRule at hr
  rcases h with htype | ⟨htype, hoff⟩
  · rw [htype] at hr
    obtain ⟨rfl, rfl⟩ := run_pure_iff.mp hr
    exact ⟨rfl, fun _ hev => absurd hev List.not_mem_nil⟩
  · rw [htype] at hr
    dsimp only at hr
    unfold IvrHandler at hr
    rw [routeOf_self (show (ruleRoute ctx .ivr r).type = .ivr from rfl)] at hr
    dsimp only at hr
    cases hivr : cfg.hasIvr with
    | false =>
      -- there is no media layer
      have hno : ivrConnected cfg = pure false := if_neg (by rw [hivr]; nofun)
      rw [hno] at hr
      obtain ⟨rfl, rfl⟩ := (run_pure_iff (a := false)).mp hr
      exact ⟨rfl, fun _ hev => absurd hev List.not_mem_nil⟩
    | true =>
      -- the IVR is switched off
      have hask : ivrConnected cfg = ask .isConnected := if_pos hivr
      have hdisabled : (!cfg.ivrEnabled) = true := by
        rw [Bool.not_eq_true', Bool.eq_false_iff]
        exact fun hon => hoff ⟨hivr, hon⟩
      rw [hask] at hr
      obtain ⟨connected, u, rfl, hrest⟩ := (run_ask_iff (e := .isConnected)).mp hr
      rw [if_pos (.inr hdisabled)] at hrest
      obtain ⟨rfl, rfl⟩ := run_pure_iff.mp hrest
      refine ⟨rfl, fun ev hev => ?_⟩
      rw [List.mem_singleton.mp hev]
      trivial

/-- The lookup of a rule that passes the call on. -/
theorem run_applyRoutingRule_passed (hw : ctx.widget = none) {result : Except SipError Bool}
    (hr : Prog.Run (applyRoutingRule cfg rt ctx) v result)
    (hrule : ∀ rule, Effect.event (.getRoutingRule ctx.calledNumber) rule ∈ v → PassesOn cfg rule) :
    result = .ok false ∧ ∀ ev ∈ v, ev.1.Preliminary := by
  unfold applyRoutingRule at hr
  rw [if_neg (by rw [hw]; nofun)] at hr
  obtain ⟨rule?, u, rfl, hrest⟩ := (run_ask_iff (e := .getRoutingRule _)).mp hr
  have hpass : PassesOn cfg rule? := hrule rule? List.mem_cons_self
  cases rule? with
  | none =>
    obtain ⟨rfl, rfl⟩ := (run_pure_iff (a := false)).mp hrest
    refine ⟨rfl, fun ev hev => ?_⟩
    rw [List.mem_singleton.mp hev]
    trivial
  | some r =>
    obtain ⟨_, u', rfl, hdispatch⟩ := (run_ask_iff (e := .audit _ _ _ _)).mp hrest
    obtain ⟨rfl, hquiet⟩ := run_dispatch_passed hpass hdispatch
    refine ⟨rfl, List.forall_mem_cons.mpr ⟨trivial, List.forall_mem_cons.mpr ⟨?_, hquiet⟩⟩⟩
    show ("type", "emergency") ∉ _
    simp

theorem pushWakeUp_preliminary :
    Performs (fun e => e.Preliminary ∧ e.kind ≠ .rule) (pushWakeUp cfg ctx) :=
  performs_ite (fun _ => performs_pure _) fun _ =>
    performs_bind (performs_directory ⟨trivial, nofun⟩) fun _ =>
      performs_ite (fun _ => performs_ask ⟨trivial, nofun⟩) fun _ => performs_pure _

/-- An emergency call that nothing takes before. -/
theorem run_routeAdmitted_emergency (hw : ctx.widget = none)
    (hsource : cfg.trunk.isFromTrunk rt ctx.req.sourceAddress = false)
    (hconf : ctx.req.confId = "") (htype : route.type = .emergency) {r : Except SipError Unit}
    (hr : Prog.Run (routeAdmitted cfg rt ctx route) u r)
    (hrule : ∀ rule, Effect.event (.getRoutingRule ctx.calledNumber) rule ∈ u → PassesOn cfg rule) :
    ∃ v w, u = v ++ w ∧ (∀ ev ∈ v, ev.1.Preliminary) ∧
      Prog.Run (EmergencyHandler cfg ctx (some route)) w (.ok true) := by
  have hinner : ∀ u r, Prog.Run (routeCallContext cfg rt ctx route) u r →
      (∀ rule, Effect.event (.getRoutingRule ctx.calledNumber) rule ∈ u → PassesOn cfg rule) →
      r = .ok () ∧ ∃ v w, u = v ++ w ∧ (∀ ev ∈ v, ev.1.Preliminary) ∧
        Prog.Run (EmergencyHandler cfg ctx (some route)) w (.ok true) := by
    clear hr hrule
    intro u r hr hrule
    unfold routeCallContext at hr
    rcases Prog.run_bind_iff.mp hr with ⟨ruled, v, u', rfl, happly, hr⟩ | ⟨e, happly, -⟩
    · obtain ⟨hruled, hv⟩ := run_applyRoutingRule_passed hw happly fun rule hmem =>
        hrule rule (List.mem_append_left _ hmem)
      cases hruled
      rcases Prog.run_bind_iff.mp hr with ⟨_, p, u'', rfl, hpush, hr⟩ | ⟨e, hpush, -⟩
      · rw [firstHandler_emergency hw hsource hconf htype] at hr
        rcases Prog.run_bind_iff.mp hr with ⟨handled, w, x, rfl, hhandle, hr⟩ | ⟨e, hhandle, -⟩
        · cases (EmergencyHandler_takes htype).run (unfailing_EmergencyHandler _) hhandle
          obtain ⟨rfl, rfl⟩ := run_pure_iff.mp hr
          refine ⟨rfl, v ++ p, w, ?_, ?_, hhandle⟩
          · rw [List.append_nil, List.append_assoc]
          · exact List.forall_mem_append.mpr ⟨hv, fun ev hev =>
              (pushWakeUp_preliminary.run hpush hev).1⟩
        · exact ((unfailing_EmergencyHandler _).total.run hhandle).elim
      · exact ((unfailing_pushWakeUp cfg ctx).total.run hpush).elim
    · cases (run_applyRoutingRule_passed hw happly hrule).1
  rcases Prog.run_tryCatch_iff.mp hr with ⟨_, hrun, -⟩ | ⟨e, v, x, rfl, hrun, -⟩
  · exact (hinner u _ hrun hrule).2
  · cases (hinner v _ hrun fun rule hmem => hrule rule (List.mem_append_left _ hmem)).1

/-- Admission is preliminary. -/
theorem Admission.preliminary (a : Admission) :
    ∀ ev ∈ a.trace cfg req, ev.1.Preliminary := by
  have htoken : ∀ ev ∈ tokenTrace req a.claims, ev.1.Preliminary := by
    unfold tokenTrace
    split
    · exact fun _ hev => absurd hev List.not_mem_nil
    · exact fun ev hev => by rw [List.mem_singleton.mp hev]; trivial
  simp only [Admission.trace, logTrace, List.forall_mem_cons, List.forall_mem_append]
  refine ⟨trivial, trivial, trivial, trivial, htoken, trivial, trivial, trivial, trivial, ?_,
    fun _ hev => absurd hev List.not_mem_nil⟩
  show ("type", "emergency") ∉ _
  simp

/-- An INVITE that passes the guard and is refused is not worth routing. -/
theorem PassesGuard.not_routable (hg : PassesGuard cfg req t)
    (hr : Prog.Run (admitInvite cfg rt req) t (.ok none)) :
    ∃ claims dir, ¬ req.routable cfg rt claims dir := by
  obtain ⟨rates, now, u, hrate, rfl⟩ := hg
  obtain ⟨_, _, heq, hr⟩ := (run_ask_iff (e := .isBanned _)).mp hr
  cases heq
  obtain ⟨_, _, heq, hr⟩ := (run_ask_iff (e := .sipRates)).mp hr
  cases heq
  obtain ⟨_, _, heq, hr⟩ := (run_ask_iff (e := .nowMs)).mp hr
  cases heq
  obtain ⟨_, _, heq, hr⟩ := (run_ask_iff (e := .setSipRates _)).mp hr
  cases heq
  rw [if_neg (by rw [hrate]; nofun), screenedInvite_eq] at hr
  rcases Prog.run_bind_iff.mp hr with ⟨claims, _, v, -, -, hr⟩ | ⟨e, -, he⟩
  · obtain ⟨snap, u', rfl, hscreen⟩ := run_directory_iff.mp hr
    refine ⟨claims, snap.dir, fun hroutable => ?_⟩
    dsimp only at hscreen
    rw [if_pos hroutable] at hscreen
    rcases Prog.run_bind_iff.mp hscreen with ⟨_, _, _, -, -, hend⟩ | ⟨e, -, he⟩
    · cases (run_pure_iff.mp hend).2
    · cases he
  · cases he

/-- The route of an emergency number. -/
theorem resolve_of_emergency (hdials : cleanDialed req.called ∈ cfg.emergencyNumbers) :
    (resolve cfg.emergencyNumbers req.called).type = .emergency := by
  unfold resolve
  dsimp only
  rw [if_pos hdials]

theorem inviteRoute_emergency (huri : resolveExternalSip rt.parseUri cfg.sipPeers
    (req.uri.getD "") = none) (hdials : cleanDialed req.called ∈ cfg.emergencyNumbers)
    (dir : Directory) :
    inviteRoute cfg rt dir req = resolve cfg.emergencyNumbers req.called := by
  unfold inviteRoute
  rw [huri, Option.getD_none]
  refine if_neg fun h => ?_
  rw [resolve_of_emergency hdials] at h
  cases h.1

/-- An emergency call is worth routing, whoever calls. -/
theorem routable_emergency (huri : resolveExternalSip rt.parseUri cfg.sipPeers
    (req.uri.getD "") = none) (hdials : cleanDialed req.called ∈ cfg.emergencyNumbers)
    (claims : Option WidgetTokenClaims) (dir : Directory) : req.routable cfg rt claims dir := by
  rintro ⟨-, -, hbad⟩
  rw [inviteRoute_emergency huri hdials] at hbad
  unfold isInviteLegitimate at hbad
  rw [resolve_of_emergency hdials] at hbad
  cases hbad

/-- Where nothing takes the call before, it is handled as an emergency. -/
theorem EmergencyFirst.handled {table : RoutingRules} (h : EmergencyFirst cfg rt req table)
    (hsource : cfg.trunk.isFromTrunk rt req.sourceAddress = false)
    (hdials : cleanDialed req.called ∈ cfg.emergencyNumbers) {r : Except SipError Unit}
    (hr : Prog.Run (handleInvite cfg rt req) t r) (hg : PassesGuard cfg req t)
    (hclaims : TokenClaims t none) (hrules : RulesOf table t) : HandledAsEmergency cfg req t := by
  rcases run_handleInvite_iff.mp hr with ⟨hrefused, -⟩ | ⟨a, ha, u, rfl, hrouted⟩
  · obtain ⟨claims, dir, hbad⟩ := hg.not_routable hrefused
    exact absurd (routable_emergency h.uri hdials claims dir) hbad
  · have hnone : a.claims = none := (ha.tokenClaims hrouted).unique hclaims
    have hroute : a.route cfg rt req = resolve cfg.emergencyNumbers req.called :=
      inviteRoute_emergency h.uri hdials _
    rw [hroute] at hrouted
    have hpass : ∀ rule, Effect.event (.getRoutingRule (a.ctx req).calledNumber) rule ∈ u →
        PassesOn cfg rule := by
      intro rule hmem
      rcases hrules _ rule (List.mem_append_right _ hmem) with rfl | rfl
      · trivial
      · exact h.rule
    obtain ⟨v, w, rfl, hv, hw⟩ := run_routeAdmitted_emergency (show (a.ctx req).widget = none from hnone)
      hsource h.meeting (resolve_of_emergency hdials) hrouted hpass
    refine ⟨a.callId, a.trace cfg req ++ v, w, ?_, ?_, ?_⟩
    · rw [List.append_assoc]
    · exact List.forall_mem_append.mpr ⟨a.preliminary, hv⟩
    · rw [← hnone]
      exact hw

/-! ## Calls that something takes before -/

/-- Nothing is marked as an emergency call. -/
def Unmarked (t : History) : Prop := ∀ ev ∈ t, ¬ ev.1.MarksEmergency

theorem unmarked_nil : Unmarked [] := fun _ hev => absurd hev List.not_mem_nil

theorem Unmarked.cons {e : Effect} {x : e.Answer} (he : ¬ e.MarksEmergency) (ht : Unmarked t) :
    Unmarked (e.event x :: t) := List.forall_mem_cons.mpr ⟨he, ht⟩

theorem Unmarked.append (ht : Unmarked t) (hu : Unmarked u) : Unmarked (t ++ u) :=
  List.forall_mem_append.mpr ⟨ht, hu⟩

theorem unmarked_of_preliminary (h : ∀ ev ∈ t, ev.1.Preliminary) : Unmarked t :=
  fun ev hev => (h ev hev).not_marks

/-- The emergency handler marks the call. -/
theorem Unmarked.not_handled (hdials : cleanDialed req.called ∈ cfg.emergencyNumbers)
    (h : Unmarked t) : ¬ HandledAsEmergency cfg req t := by
  rintro ⟨callId, pre, w, rfl, -, hw⟩
  obtain ⟨ev, hev, hmark⟩ := EmergencyHandler_marks (resolve_of_emergency hdials) hw
  exact h ev (List.mem_append_right _ hev) hmark

/-- A run that is refused, admitted or taken without the emergency handler. -/
structure Missed (cfg : Config) (rt : Runtime) (req : Request) (table : RoutingRules)
    (t : History) : Prop where
  run : ∃ r, Prog.Run (handleInvite cfg rt req) t r
  guard : PassesGuard cfg req t
  claims : TokenClaims t none
  rules : RulesOf table t
  unmarked : Unmarked t

/-- A call to an approved peer is refused when the caller is not registered. -/
theorem exists_missed_peer {table : RoutingRules}
    (huri : resolveExternalSip rt.parseUri cfg.sipPeers (req.uri.getD "") ≠ none)
    (hsource : cfg.trunk.isFromTrunk rt req.sourceAddress = false) :
    ∃ t, Missed cfg rt req table t := by
  obtain ⟨route, hroute⟩ := Option.ne_none_iff_exists'.mp huri
  have hsip : inviteRoute cfg rt .empty req = route := by
    unfold inviteRoute
    rw [hroute, Option.getD_some]
    refine if_neg fun h => ?_
    cases (resolveExternalSip_type hroute).symm.trans h.1
  have hbad : ¬ req.routable cfg rt none .empty := by
    refine not_not.mpr ⟨by rw [hsource]; rfl, rfl, ?_⟩
    rw [hsip]
    unfold isInviteLegitimate
    rw [resolveExternalSip_type hroute]
    rfl
  let refusal : History :=
    [Effect.event .snapshot ⟨.empty, none⟩,
     Effect.event (.recordOffense req.sourceAddress ("unroutable:" ++ route.type.text)) (),
     Effect.event (.audit "call_blocked" (callerIdentity req none)
      [("to", req.called), ("reason", "unroutable_or_spoofed"), ("route", route.type.text)]
      (some req.sourceAddress)) (),
     Effect.event (.send 403 none []) ()]
  have hscreen : Prog.Run (screenedWith cfg rt req none) refusal (.ok none) := by
    refine run_directory_iff.mpr ⟨⟨.empty, none⟩, _, rfl, ?_⟩
    dsimp only
    rw [if_neg hbad, hsip]
    exact run_ask (e := .recordOffense _ _) () (run_ask (e := .audit _ _ _ _) ()
      (run_ask (e := .send _ _ _) () (.pure none)))
  let verdict := checkSipRate cfg OrdMap.empty req.sourceAddress 0
  have hparse : Prog.Run (parseWidgetToken req) (tokenTrace req none) (.ok none) :=
    run_parseWidgetToken_iff.mpr ⟨none, rfl, fun _ => rfl, rfl⟩
  have hlimited : Prog.Run (limitedInvite cfg rt req verdict)
      (Effect.event (.setSipRates verdict.1) () :: (tokenTrace req none ++ refusal)) (.ok none) := by
    refine run_ask (e := .setSipRates _) () ?_
    rw [if_neg (show ¬ (!verdict.2) = true from nofun), screenedInvite_eq]
    exact hparse.bind hscreen
  let t : History :=
    Effect.event (.isBanned req.sourceAddress) false :: Effect.event .sipRates OrdMap.empty ::
      Effect.event .nowMs (0 : Nat) :: Effect.event (.setSipRates verdict.1) () ::
      (tokenTrace req none ++ refusal)
  have hentered : Prog.Run (admitInvite cfg rt req) t (.ok none) :=
    run_ask (e := .isBanned _) false (run_ask (e := .sipRates) OrdMap.empty
      (run_ask (e := .nowMs) (0 : Nat) hlimited))
  have htoken : ∀ ev ∈ tokenTrace req none, ¬ ev.1.MarksEmergency ∧
      ∀ token c, ev ≠ Effect.event (.verifyWidgetToken token) (some c) := by
    unfold tokenTrace
    split
    · exact fun _ hev => absurd hev List.not_mem_nil
    · intro ev hev
      rw [List.mem_singleton.mp hev]
      refine ⟨id, fun token c heq => ?_⟩
      have hnone : (none : Option WidgetTokenClaims) = some c := eq_of_heq (Sigma.mk.inj heq).2
      cases hnone
  refine ⟨t, ⟨_, run_handleInvite_iff.mpr (.inl ⟨hentered, rfl⟩)⟩,
    ⟨OrdMap.empty, 0, _, rfl, rfl⟩, fun c => ⟨nofun, ?_⟩, ?_, ?_⟩
  · -- the only token event has no claims
    rintro ⟨token, hmem⟩
    simp only [t, refusal, List.mem_cons, List.mem_append, List.not_mem_nil, or_false] at hmem
    rcases hmem with h | h | h | h | h | h | h | h | h
    case inr.inr.inr.inr.inl => exact ((htoken _ h).2 token c rfl).elim
    all_goals cases h
  · intro number rule hmem
    exact (admitInvite_screening.run hentered hmem).elim
  · have hrefusal : Unmarked refusal := by
      refine Unmarked.cons id (Unmarked.cons id (Unmarked.cons ?_ (Unmarked.cons id unmarked_nil)))
      show ("type", "emergency") ∉ _
      simp
    refine Unmarked.cons id (Unmarked.cons id (Unmarked.cons id (Unmarked.cons id ?_)))
    exact Unmarked.append (fun ev hev => (htoken ev hev).1) hrefusal

/-- An emergency number is admitted, and then the routing of the call decides. -/
theorem missed_of_routed {table : RoutingRules}
    (huri : resolveExternalSip rt.parseUri cfg.sipPeers (req.uri.getD "") = none)
    (hdials : cleanDialed req.called ∈ cfg.emergencyNumbers) {r : Except SipError Unit}
    (hr : Prog.Run (routeAdmitted cfg rt (req.context none "call")
      (resolve cfg.emergencyNumbers req.called)) u r)
    (hrules : RulesOf table u) (hu : Unmarked u) : ∃ t, Missed cfg rt req table t := by
  let a : Admission := ⟨.empty, 0, none, ⟨.empty, none⟩, "call", "t0"⟩
  have ha : a.Ok cfg rt req := ⟨rfl, fun _ => rfl, routable_emergency huri hdials _ _⟩
  have hroute : a.route cfg rt req = resolve cfg.emergencyNumbers req.called :=
    inviteRoute_emergency huri hdials _
  have hrouted : Prog.Run (routeAdmitted cfg rt (a.ctx req) (a.route cfg rt req)) u r := by
    rw [hroute]
    exact hr
  refine ⟨a.trace cfg req ++ u, ⟨r, run_handleInvite_iff.mpr (.inr ⟨a, ha, u, rfl, hrouted⟩)⟩,
    ⟨OrdMap.empty, 0, _, rfl, rfl⟩, ha.tokenClaims hrouted, fun number rule hmem => ?_, ?_⟩
  · rcases List.mem_append.mp hmem with hmem | hmem
    · exact (ha.screening hmem).elim
    · exact hrules number rule hmem
  · exact (unmarked_of_preliminary a.preliminary).append hu

/-- A rule that takes the call. -/
theorem run_routeAdmitted_ruled (hw : ctx.widget = none) {r : RoutingRule}
    (hr : Prog.Run (dispatchRoutingRule cfg rt ctx r) w (.ok true)) (hu : Unmarked w)
    (hno : ∀ number rule, Effect.event (.getRoutingRule number) rule ∉ w) :
    ∃ u, Prog.Run (routeAdmitted cfg rt ctx route) u (.ok ()) ∧ Unmarked u ∧
      ∀ number rule, Effect.event (.getRoutingRule number) rule ∈ u →
        number = ctx.calledNumber ∧ rule = some r := by
  let entry : Effect := .audit "call_routed" ctx.callingNumber
    [("to", ctx.calledNumber), ("callId", ctx.callId), ("destinationType", r.destinationType.text),
     ("destinationValue", if r.destinationValue = "" then r.ownerExtension else r.destinationValue)]
    (some ctx.req.sourceAddress)
  have happly : Prog.Run (applyRoutingRule cfg rt ctx)
      (Effect.event (.getRoutingRule ctx.calledNumber) (some r) :: entry.event () :: w)
      (.ok true) := by
    unfold applyRoutingRule
    rw [if_neg (by rw [hw]; nofun)]
    exact run_ask (e := .getRoutingRule _) (some r) (run_ask (e := .audit _ _ _ _) () hr)
  refine ⟨_, (happly.bind (.pure ())).tryCatch, ?_, fun number rule hmem => ?_⟩ <;>
    rw [List.append_nil] at *
  · refine Unmarked.cons id (Unmarked.cons ?_ hu)
    show ("type", "emergency") ∉ _
    simp
  · rcases List.mem_cons.mp hmem with heq | hmem
    · cases heq
      exact ⟨rfl, rfl⟩
    · rcases List.mem_cons.mp hmem with heq | hmem
      · have hkind : EffectKind.rule = EffectKind.note := congrArg (fun ev => ev.1.kind) heq
        cases hkind
      · exact absurd hmem (hno number rule)

/-- Events of other kinds than marks and lookups. -/
def Effect.Aside (e : Effect) : Prop := ¬ e.MarksEmergency ∧ e.kind ≠ .rule

theorem aside_of_kind {e : Effect} (h : e.kind ≠ .note) (h' : e.kind ≠ .rule) : e.Aside := by
  refine ⟨fun hmark => ?_, h'⟩
  cases e <;> first | exact h rfl | exact hmark

/-- A user who blocks the caller, and an extension that rings. -/
def blockedDirectory (req : Request) (target : String) : Directory where
  users := OrdMap.empty.set req.calledExt
    { extension := req.calledExt, username := req.calledExt, name := req.calledExt
      blockedNumbers := [req.caller] }
  phoneIndex := .empty
  registrations := OrdMap.empty.set target "sip:desk@198.51.100.8"
  ivrFlowExtensions := []

/-- An extension that is found takes the call. -/
theorem run_InternalHandler_blocked (cfg : Config) (ctx : CallContext) {r : DialResult}
    (htype : r.type = .internal) :
    ∃ w, Prog.Run (InternalHandler cfg ctx (some r)) w (.ok true) ∧ ∀ ev ∈ w, ev.1.Aside := by
  let snap : Snapshot := ⟨blockedDirectory ctx.req r.target, none⟩
  have hreg : snap.dir.getRegistration r.target = some "sip:desk@198.51.100.8" :=
    OrdMap.get?_set_self _ _ _
  have hdnd : ((snap.dir.getUser r.target).map SipUser.dnd).getD false = false := by
    show ((OrdMap.get? (OrdMap.set _ _ _) r.target).map SipUser.dnd).getD false = false
    rw [OrdMap.get?_set]
    split <;> rfl
  have hblocked : snap.dir.isBlocked ctx.req.calledExt ctx.req.caller = true := by
    have huser : ∃ user, snap.dir.users.get? ctx.req.calledExt = some user ∧
        ctx.req.caller ∈ user.blockedNumbers :=
      ⟨_, OrdMap.get?_set_self _ _ _, List.mem_cons_self⟩
    obtain ⟨user, hget, hmem⟩ := huser
    unfold Directory.isBlocked
    rw [hget]
    exact decide_eq_true hmem
  -- the schedule gate lets the call pass
  obtain ⟨g, hgate, hg⟩ : ∃ g, Prog.Run (scheduleGate cfg ctx r.target) g (.ok false) ∧
      ∀ ev ∈ g, ev.1.Aside := by
    unfold scheduleGate
    split
    · exact ⟨[], .pure false, fun _ hev => absurd hev List.not_mem_nil⟩
    · refine ⟨_, run_ask (e := .evaluate _) (.error {}) (.pure false), fun ev hev => ?_⟩
      rw [List.mem_singleton.mp hev]
      exact aside_of_kind nofun nofun
  let declined : History :=
    [Effect.event .snapshot snap, Effect.event .snapshot snap,
     Effect.event (.notify ctx.req.caller "declined"
      [("reason", "blocked"), ("callId", ctx.callId)]) (),
     Effect.event (.updateCall ctx.callId { status := some .missed }) (),
     Effect.event (.send 603 (some "Decline") []) ()]
  have hroute : Prog.Run (routeInternal cfg ctx r.target) declined (.ok true) := by
    refine run_directory_iff.mpr ⟨snap, _, rfl, ?_⟩
    rw [hreg]
    dsimp only
    rw [hdnd, if_neg nofun]
    have hring : Prog.Run (routeToExtension cfg ctx.req "sip:desk@198.51.100.8" ctx.callId)
        (declined.drop 1) (.ok ()) := by
      refine run_directory_iff.mpr ⟨snap, _, rfl, ?_⟩
      rw [if_pos hblocked]
      exact run_ask (e := .notify _ _ _) () (run_ask (e := .updateCall _ _) ()
        (run_ask (e := .send _ _ _) () (.pure ())))
    exact hring.bind (.pure true)
  refine ⟨g ++ declined, ?_, List.forall_mem_append.mpr ⟨hg, ?_⟩⟩
  · unfold InternalHandler
    rw [routeOf_self htype]
    exact hgate.bind hroute
  · simp only [declined, List.forall_mem_cons]
    refine ⟨aside_of_kind nofun nofun, aside_of_kind nofun nofun, ⟨id, nofun⟩,
      aside_of_kind nofun nofun, aside_of_kind nofun nofun, fun _ hev => absurd hev List.not_mem_nil⟩

/-- A rule to an IVR, where it is on, takes the call. -/
theorem run_IvrHandler_down (cfg : Config) (rt : Runtime) (ctx : CallContext) {r : DialResult}
    (htype : r.type = .ivr) (hivr : cfg.hasIvr = true) (hon : cfg.ivrEnabled = true) :
    ∃ w, Prog.Run (IvrHandler cfg rt ctx (some r)) w (.ok true) ∧ ∀ ev ∈ w, ev.1.Aside := by
  -- the media server goes down before the caller is answered
  let down : History :=
    [Effect.event .ensureConnected false, Effect.event (.send 503 none []) (),
     Effect.event (.updateCall ctx.callId { status := some .failed }) ()]
  have hserve : Prog.Run (handleIncomingCall cfg rt ctx.req (some (ctx.callId, r.target))) down
      (.ok ()) :=
    run_ask (e := .ensureConnected) false (run_ask (e := .send _ _ _) ()
      (Prog.run_perform_iff.mpr ⟨(), rfl, rfl⟩))
  let entry : Effect := .audit "call_start" ctx.callingNumber
    [("to", r.target), ("callId", ctx.callId), ("type", "ivr")] (some ctx.req.sourceAddress)
  have hrun : Prog.Run (IvrHandler cfg rt ctx (some r))
      (Effect.event .isConnected true :: entry.event () :: (down ++ [])) (.ok true) := by
    unfold IvrHandler
    rw [routeOf_self htype, show ivrConnected cfg = ask .isConnected from if_pos hivr]
    refine run_ask (e := .isConnected) true ?_
    rw [if_neg (by rw [hon]; nofun)]
    exact run_ask (e := .audit _ _ _ _) () (hserve.tryCatch.bind (.pure true))
  refine ⟨_, hrun, ?_⟩
  simp only [down, List.append_nil, List.forall_mem_cons]
  refine ⟨aside_of_kind nofun nofun, ⟨?_, nofun⟩, aside_of_kind nofun nofun,
    aside_of_kind nofun nofun, aside_of_kind nofun nofun, fun _ hev => absurd hev List.not_mem_nil⟩
  show ("type", "emergency") ∉ _
  simp

/-- An answered INVITE is not refused again. -/
theorem run_sendUnlessFinal_sent (status : Nat) (reason : Option String)
    (headers : List (String × String)) :
    Prog.Run (sendUnlessFinal status reason headers) [Effect.event .finalResponseSent true] (.ok ()) :=
  run_ask (e := .finalResponseSent) true (.pure ())

/-- A rule that does not pass the call on takes it, in some run without marks. -/
theorem exists_run_taken (cfg : Config) (rt : Runtime) (ctx : CallContext) {r : RoutingRule}
    (h : ¬ PassesOn cfg (some r)) :
    ∃ w, Prog.Run (dispatchRoutingRule cfg rt ctx r) w (.ok true) ∧ ∀ ev ∈ w, ev.1.Aside := by
  have hnil : ∀ ev ∈ ([] : History), ev.1.Aside := fun _ hev => absurd hev List.not_mem_nil
  have hanswered : Effect.Aside .finalResponseSent := aside_of_kind nofun nofun
  have hstatus (updates : CallUpdate) : Effect.Aside (.updateCall ctx.callId updates) :=
    aside_of_kind nofun nofun
  unfold dispatchRoutingRule
  cases hdest : r.destinationType with
  | ivr =>
    have hon : cfg.hasIvr = true ∧ cfg.ivrEnabled = true := by
      by_contra hoff
      exact h (.inr ⟨hdest, hoff⟩)
    exact run_IvrHandler_down cfg rt ctx rfl hon.1 hon.2
  | extension => exact run_InternalHandler_blocked cfg ctx rfl
  | pstn =>
    dsimp only
    by_cases henabled : cfg.trunk.enabled = true
    · rw [if_neg (by rw [henabled]; nofun)]
      let number := (resolve cfg.emergencyNumbers r.destinationValue).normalizedNumber
      refine ⟨_, (run_routeCall_failed henabled number none {}).bind
        (run_ask (e := .updateCall _ _) () (.pure true)), List.forall_mem_append.mpr ⟨?_, ?_⟩⟩
      · simp only [failedCall, List.forall_mem_cons]
        exact ⟨aside_of_kind nofun nofun, aside_of_kind nofun nofun, hnil⟩
      · exact List.forall_mem_cons.mpr ⟨hstatus _, hnil⟩
    · rw [if_pos (by rw [Bool.not_eq_true', Bool.eq_false_iff]; exact henabled)]
      refine ⟨_, (run_sendUnlessFinal_sent _ _ _).bind (run_ask (e := .updateCall _ _) ()
        (.pure true)), ?_⟩
      simp only [List.cons_append, List.nil_append, List.forall_mem_cons]
      exact ⟨hanswered, hstatus _, hnil⟩
  | voicemail =>
    dsimp only
    by_cases hon : cfg.voicemailEnabled ∧ cfg.hasIvr
    · rw [if_pos hon]
      let caller := ctx.callingNumber
      have hrecord (name : String) : Prog.Run (recordVoicemail cfg r.ownerExtension caller name)
          [Effect.event .ensureConnected false, Effect.event .finalResponseSent true]
          (.ok false) := by
        unfold recordVoicemail
        dsimp only
        rw [if_neg (by rw [hon.1]; nofun)]
        exact run_ask (e := .ensureConnected) false
          ((run_sendUnlessFinal_sent _ _ _).bind (.pure false))
      refine ⟨_, run_directory_iff.mpr ⟨⟨.empty, none⟩, _, rfl, (hrecord _).bind
        (run_ask (e := .updateCall _ _) () (.pure true))⟩, ?_⟩
      simp only [List.cons_append, List.nil_append, List.forall_mem_cons]
      exact ⟨aside_of_kind nofun nofun, aside_of_kind nofun nofun, hanswered, hstatus _, hnil⟩
    · rw [if_neg hon]
      refine ⟨_, (run_sendUnlessFinal_sent _ _ _).bind (run_ask (e := .updateCall _ _) ()
        (.pure true)), ?_⟩
      simp only [List.cons_append, List.nil_append, List.forall_mem_cons]
      exact ⟨hanswered, hstatus _, hnil⟩
  | aiAgent => exact absurd (.inl hdest) h

/-- A header that asks for a meeting takes the call, in some run without marks. -/
theorem exists_run_meeting (cfg : Config) (ctx : CallContext) (hconf : ctx.req.confId ≠ "") :
    ∃ w, Prog.Run (TeamsMeetingHandler cfg ctx) w (.ok true) ∧ ∀ ev ∈ w, ev.1.Aside := by
  have hnil : ∀ ev ∈ ([] : History), ev.1.Aside := fun _ hev => absurd hev List.not_mem_nil
  have hsend (status : Nat) (reason : Option String) : Effect.Aside (.send status reason []) :=
    aside_of_kind nofun nofun
  unfold TeamsMeetingHandler
  rw [if_neg hconf]
  by_cases hdown : !cfg.trunk.enabled ∨ !cfg.hasIvr
  · rw [if_pos hdown]
    exact ⟨_, run_ask (e := .send _ _ _) () (.pure true), List.forall_mem_cons.mpr ⟨hsend _ _, hnil⟩⟩
  · rw [if_neg hdown]
    by_cases hdial : ctx.req.dialIn cfg = ""
    · rw [if_pos hdial]
      exact ⟨_, run_ask (e := .send _ _ _) () (.pure true),
        List.forall_mem_cons.mpr ⟨hsend _ _, hnil⟩⟩
    · rw [if_neg hdial]
      -- the caller is not registered
      have hunknown : ctx.unregistered .empty = true := by
        unfold CallContext.unregistered
        exact Bool.or_true _
      have hrefuse : ∃ w, Prog.Run (refuseUnregistered ctx
          [("reason", "unregistered_teams"), ("confId", ctx.req.confId), ("callId", ctx.callId)])
          w (.ok true) ∧ ∀ ev ∈ w, ev.1.Aside := by
        refine ⟨_, run_ask (e := .audit _ _ _ _) () (run_ask (e := .updateCall _ _) ()
          (run_ask (e := .send _ _ _) () (.pure true))), ?_⟩
        simp only [List.forall_mem_cons]
        refine ⟨⟨?_, nofun⟩, aside_of_kind nofun nofun, hsend _ _, hnil⟩
        show ("type", "emergency") ∉ _
        simp
      obtain ⟨w, hw, haside⟩ := hrefuse
      refine ⟨_, run_directory_iff.mpr ⟨⟨.empty, none⟩, w, rfl, ?_⟩,
        List.forall_mem_cons.mpr ⟨aside_of_kind nofun nofun, haside⟩⟩
      dsimp only
      rw [if_pos hunknown]
      exact hw

/-- A call that asks for a meeting is joined into it, or refused. -/
theorem exists_missed_meeting {table : RoutingRules}
    (huri : resolveExternalSip rt.parseUri cfg.sipPeers (req.uri.getD "") = none)
    (hsource : cfg.trunk.isFromTrunk rt req.sourceAddress = false)
    (hdials : cleanDialed req.called ∈ cfg.emergencyNumbers) (hconf : req.confId ≠ "") :
    ∃ t, Missed cfg rt req table t := by
  let ctx := req.context none "call"
  let route := resolve cfg.emergencyNumbers req.called
  obtain ⟨w, hmeeting, hw⟩ := exists_run_meeting cfg ctx hconf
  have hfirst : Prog.Run (firstHandler (TrunkInboundHandler cfg rt ctx ::
      routeHandlers cfg rt ctx route)) w (.ok true) := by
    have htrunk : TrunkInboundHandler cfg rt ctx = pure false := TrunkInboundHandler_declines hsource
    have hwidget : WidgetHandler cfg ctx route = pure false := WidgetHandler_declines rfl
    unfold routeHandlers
    rw [htrunk, hwidget, firstHandler_skip, firstHandler_skip, ← List.append_nil w]
    exact hmeeting.bind (.pure true)
  -- no rule is found, and the callee may be woken up
  obtain ⟨p, r, hpush⟩ := run_any (pushWakeUp cfg ctx)
  cases r with
  | error e => exact ((unfailing_pushWakeUp cfg ctx).total.run hpush).elim
  | ok _ =>
    have happly : Prog.Run (applyRoutingRule cfg rt ctx)
        [Effect.event (.getRoutingRule ctx.calledNumber) none] (.ok false) :=
      run_ask (e := .getRoutingRule _) none (.pure false)
    have hrouted : Prog.Run (routeAdmitted cfg rt ctx route)
        ([Effect.event (.getRoutingRule ctx.calledNumber) none] ++ (p ++ (w ++ []))) (.ok ()) :=
      (happly.bind (hpush.bind (hfirst.bind (.pure ())))).tryCatch
    refine missed_of_routed huri hdials hrouted ?_ ?_
    · intro number rule hmem
      simp only [List.append_nil, List.cons_append, List.nil_append, List.mem_cons,
        List.mem_append] at hmem
      rcases hmem with heq | hmem | hmem
      · cases heq
        exact .inl rfl
      · exact absurd rfl (pushWakeUp_preliminary.run hpush hmem).2
      · exact absurd rfl (hw _ hmem).2
    · refine Unmarked.append (Unmarked.cons id unmarked_nil) (Unmarked.append ?_
        (Unmarked.append (fun ev hev => (hw ev hev).1) unmarked_nil))
      exact unmarked_of_preliminary fun ev hev => (pushWakeUp_preliminary.run hpush hev).1

/-- A rule that does not pass the call on takes it. -/
theorem exists_missed_rule {table : RoutingRules}
    (huri : resolveExternalSip rt.parseUri cfg.sipPeers (req.uri.getD "") = none)
    (hdials : cleanDialed req.called ∈ cfg.emergencyNumbers)
    (hrule : ¬ PassesOn cfg (table.ruleFor req.called)) : ∃ t, Missed cfg rt req table t := by
  cases hfound : table.ruleFor req.called with
  | none =>
    rw [hfound] at hrule
    exact absurd trivial hrule
  | some r =>
    rw [hfound] at hrule
    obtain ⟨w, htaken, hw⟩ := exists_run_taken cfg rt (req.context none "call") hrule
    obtain ⟨u, hrouted, hu, hrules⟩ := run_routeAdmitted_ruled rfl htaken
      (fun ev hev => (hw ev hev).1) fun number rule hmem => (hw _ hmem).2 rfl
    refine missed_of_routed huri hdials hrouted (fun number rule hmem => ?_) hu
    obtain ⟨rfl, rfl⟩ := hrules number rule hmem
    exact .inr hfound.symm

/-- For every configuration, every table of rules and every INVITE to an emergency number that
    does not come from the trunk: every run that passes the guard and carries no valid token is
    handled by the emergency handler, if and only if nothing takes the call before it. -/
theorem emergency_handled_iff (cfg : Config) (rt : Runtime) (req : Request) (table : RoutingRules)
    (hsource : cfg.trunk.isFromTrunk rt req.sourceAddress = false)
    (hdials : cleanDialed req.called ∈ cfg.emergencyNumbers) :
    (∀ t r, Prog.Run (handleInvite cfg rt req) t r → PassesGuard cfg req t → TokenClaims t none →
        RulesOf table t → HandledAsEmergency cfg req t) ↔ EmergencyFirst cfg rt req table := by
  constructor
  · intro h
    have hmissed : ¬ ∃ t, Missed cfg rt req table t := by
      rintro ⟨t, ht⟩
      obtain ⟨r, hr⟩ := ht.run
      exact ht.unmarked.not_handled hdials (h t r hr ht.guard ht.claims ht.rules)
    have huri : resolveExternalSip rt.parseUri cfg.sipPeers (req.uri.getD "") = none := by
      by_contra huri
      exact hmissed (exists_missed_peer huri hsource)
    refine ⟨huri, ?_, ?_⟩
    · by_contra hconf
      exact hmissed (exists_missed_meeting huri hsource hdials hconf)
    · by_contra hrule
      exact hmissed (exists_missed_rule huri hdials hrule)
  · exact fun h t r hr hg hclaims hrules => h.handled hsource hdials hr hg hclaims hrules

/-- Without rules an emergency number is handled as one, however it is written. -/
theorem emergency_handled_iff_hyphens :
    cleanDialed (inviteFrom "203.0.113.9" "1001" "9-1-1").called ∈ trunkOnly.emergencyNumbers ∧
      ∀ t r, Prog.Run (handleInvite trunkOnly bareRuntime
          (inviteFrom "203.0.113.9" "1001" "9-1-1")) t r →
        PassesGuard trunkOnly (inviteFrom "203.0.113.9" "1001" "9-1-1") t → TokenClaims t none →
        RulesOf .empty t →
        HandledAsEmergency trunkOnly (inviteFrom "203.0.113.9" "1001" "9-1-1") t := by
  have hdials : cleanDialed (inviteFrom "203.0.113.9" "1001" "9-1-1").called ∈
      trunkOnly.emergencyNumbers := by decide +kernel
  exact ⟨hdials, (emergency_handled_iff trunkOnly bareRuntime
    (inviteFrom "203.0.113.9" "1001" "9-1-1") .empty (by decide +kernel) hdials).mpr
      ⟨rfl, by decide +kernel, trivial⟩⟩

/-- A regular user routes the calls to 911 to an own extension. -/
def divertedTable : RoutingRules :=
  match RoutingRules.empty.create "1002"
    { matchType := some "number", matchNumber := some "911", destinationType := some "extension"
      destinationValue := some "1002" } true with
  | .ok table => table
  | .error _ => .empty

theorem not_handledAsEmergency_diverted :
    ¬ ∀ t r, Prog.Run (handleInvite trunkOnly bareRuntime
        (inviteFrom "203.0.113.9" "1001" "911")) t r →
      PassesGuard trunkOnly (inviteFrom "203.0.113.9" "1001" "911") t → TokenClaims t none →
      RulesOf divertedTable t →
      HandledAsEmergency trunkOnly (inviteFrom "203.0.113.9" "1001" "911") t := by
  intro h
  have hdials : cleanDialed (inviteFrom "203.0.113.9" "1001" "911").called ∈
      trunkOnly.emergencyNumbers := by decide +kernel
  have hrule : divertedTable.ruleFor (inviteFrom "203.0.113.9" "1001" "911").called =
      some ⟨"1002", .extension, "1002"⟩ := by decide +kernel
  have htaken : ¬ PassesOn trunkOnly
      (divertedTable.ruleFor (inviteFrom "203.0.113.9" "1001" "911").called) := by
    rw [hrule]
    rintro (hagent | ⟨hivr, -⟩)
    · cases hagent
    · cases hivr
  obtain ⟨t, ht⟩ : ∃ t, Missed trunkOnly bareRuntime _ divertedTable t :=
    exists_missed_rule rfl hdials htaken
  obtain ⟨r, hr⟩ := ht.run
  exact ht.unmarked.not_handled hdials (h t r hr ht.guard ht.claims ht.rules)

end Emergency

end CallNet
