import CallNet.Spec.Admission
import CallNet.Spec.Performs
import CallNet.Spec.TollFraud

/-!
# What a widget token may dial

A token of the trunk kind pins one destination.  The handler compares digits leniently and
then dials the string that matched, so the trunk is only held to the destination while the
dialed number has its digits in international form (`widget_trunk_pinned_iff`).
-/

namespace CallNet

/-! ## Handlers that always take the call -/

/-- A handler that takes every call. -/
def Takes (handle : CallProg Bool) : Prop :=
  ∃ p : CallProg Unit, handle = p.bind fun _ => pure true

theorem takes_true : Takes (pure true) := ⟨pure (), rfl⟩

theorem takes_bind {α : Type} {p : CallProg α} {f : α → CallProg Bool} (h : ∀ a, Takes (f a)) :
    Takes (p >>= f) := by
  choose q hq using h
  refine ⟨p.bind q, ?_⟩
  rw [Prog.bind_assoc]
  exact congrArg p.bind (funext hq)

theorem takes_ite {c : Prop} [Decidable c] {p q : CallProg Bool} (hp : c → Takes p)
    (hq : ¬ c → Takes q) : Takes (if c then p else q) := by
  split
  · exact hp ‹c›
  · exact hq ‹¬ c›

/-- Nobody is asked after a handler that takes every call. -/
theorem firstHandler_takes {handle : CallProg Bool} (h : Takes handle)
    (rest : List (CallProg Bool)) : firstHandler (handle :: rest) = handle := by
  obtain ⟨p, rfl⟩ := h
  show (p.bind fun _ => pure true).bind _ = _
  rw [Prog.bind_assoc]
  rfl

section Widget

variable {cfg : Config} {rt : Runtime} {req : Request} {ctx : CallContext} {route : DialResult}
  {claims : WidgetTokenClaims}

theorem takes_refuseWidget (metadata : List (String × String)) (direction : CallDirection) :
    Takes (refuseWidget ctx claims metadata direction) :=
  takes_bind fun _ => takes_bind fun _ => takes_bind fun _ => takes_true

theorem takes_widgetToTrunk (destination : String) :
    Takes (widgetToTrunk cfg ctx claims destination) :=
  takes_bind fun _ => takes_bind fun _ => takes_bind fun _ => takes_true

/-- A widget call of the trunk kind is never left to the handlers after it. -/
theorem takes_WidgetHandler (hw : ctx.widget = some claims)
    (hkind : claims.routeType.getD .trunk = .trunk) : Takes (WidgetHandler cfg ctx route) := by
  unfold WidgetHandler
  rw [hw]
  refine takes_ite (fun _ => takes_refuseWidget _ _) fun _ => takes_ite (fun hne => ?_) fun _ => ?_
  · exact absurd hkind hne
  · refine takes_ite (fun _ => ?_) fun _ => takes_widgetToTrunk _
    exact takes_bind fun _ => takes_bind fun _ => takes_true

/-! ## The number that is dialed -/

/-- The legs the effect originates are to `number`, through the enabled trunk, and no token
    is verified. -/
def Effect.DialsOnly (cfg : Config) (number : String) : Effect → Prop
  | .verifyWidgetToken _ => False
  | .createUAC invite => cfg.trunk.enabled = true ∧
      ∃ localSdp callerId, invite = cfg.trunk.invite number localSdp callerId
  | _ => True

theorem connectOutboundLeg_dialsOnly (number : String) (uac : Leg) :
    Performs (Effect.DialsOnly cfg number) (connectOutboundLeg uac) := by
  refine performs_then trivial fun answer => performs_bind (performs_ofExcept _) fun uas => ?_
  exact performs_then trivial fun _ => performs_then trivial fun _ => performs_pure _

theorem createOutboundLeg_dialsOnly (number localSdp : String) (callerId : Option String) :
    Performs (Effect.DialsOnly cfg number) (createOutboundLeg cfg number localSdp callerId) := by
  refine performs_ite (fun _ => performs_pure _) fun henabled => ?_
  have hon : cfg.trunk.enabled = true := by
    rwa [Bool.not_eq_true, Bool.not_eq_false'] at henabled
  refine performs_then ⟨hon, localSdp, callerId, rfl⟩ fun answer => ?_
  exact performs_bind (performs_ofExcept _) fun uac => performs_pure _

theorem routeCall_dialsOnly (number : String) (callerId : Option String) :
    Performs (Effect.DialsOnly cfg number) (routeCall cfg req number callerId) := by
  have hno : Performs (Effect.DialsOnly cfg number) (do send 503; pure false) :=
    performs_then trivial fun _ => performs_pure _
  refine performs_ite (fun _ => hno) fun _ => performs_tryCatch (performs_bind ?_ ?_) fun _ => hno
  · exact createOutboundLeg_dialsOnly _ _ _
  · intro uac?
    cases uac? with
    | none => exact hno
    | some uac => exact connectOutboundLeg_dialsOnly number uac

/-- The number a widget call of the trunk kind is put through to. -/
def widgetNumber (claims : WidgetTokenClaims) (route : DialResult) : String :=
  if digitsEqual (toDigits claims.destination) (toDigits route.normalizedNumber) then
    route.normalizedNumber
  else claims.destination

theorem refuseWidget_dialsOnly (number : String) (metadata : List (String × String))
    (direction : CallDirection) :
    Performs (Effect.DialsOnly cfg number) (refuseWidget ctx claims metadata direction) :=
  performs_then trivial fun _ => performs_then trivial fun _ => performs_then trivial fun _ =>
    performs_pure _

theorem WidgetHandler_dialsOnly (hw : ctx.widget = some claims)
    (hkind : claims.routeType.getD .trunk = .trunk) :
    Performs (Effect.DialsOnly cfg (widgetNumber claims route)) (WidgetHandler cfg ctx route) := by
  unfold WidgetHandler
  rw [hw]
  refine performs_ite (fun _ => refuseWidget_dialsOnly _ _ _) fun _ =>
    performs_ite (fun hne => absurd hkind hne) fun _ => performs_ite (fun _ => ?_) fun _ => ?_
  · exact performs_then trivial fun _ => performs_then trivial fun _ => performs_pure _
  · refine performs_then trivial fun _ => performs_bind (routeCall_dialsOnly _ _) fun ok => ?_
    exact performs_then trivial fun _ => performs_pure _

/-- What follows the handlers: a call that nobody took is refused. -/
def unhandled (ctx : CallContext) (handled : Bool) : CallProg Unit :=
  if handled then pure ()
  else do
    send 480
    setStatus ctx.callId .missed

/-- A widget call that is not from the trunk goes straight to the handlers after the trunk's:
    no routing rule is looked up and nobody is woken up. -/
theorem routeCallContext_widget (hw : ctx.widget = some claims)
    (hsource : cfg.trunk.isFromTrunk rt ctx.req.sourceAddress = false) :
    routeCallContext cfg rt ctx route =
      (firstHandler (routeHandlers cfg rt ctx route)).bind (unhandled ctx) := by
  have hrule : applyRoutingRule cfg rt ctx = pure false := if_pos (by rw [hw]; rfl)
  have hpush : pushWakeUp cfg ctx = pure () := if_pos (.inr (by rw [hw]; rfl))
  unfold routeCallContext
  rw [hrule, hpush, TrunkInboundHandler_declines hsource]
  rfl

/-! ## Token scope -/

/-- The token was verified with these claims. -/
def Verified (claims : WidgetTokenClaims) (t : History) : Prop :=
  ∀ token answer, Effect.event (.verifyWidgetToken token) answer ∈ t → answer = some claims

/-- Every leg is to a number that has, in the outbound format, the digits of the claimed
    destination. -/
def PinsNumber (cfg : Config) (claims : WidgetTokenClaims) (t : History) : Prop :=
  ∀ invite x, Effect.event (.createUAC invite) x ∈ t → ∃ number localSdp callerId,
    invite = cfg.trunk.invite number localSdp callerId ∧
    toDigits (internationalForm number) = toDigits (internationalForm claims.destination)

/-- The normalized form of the dialed number. -/
def normalizedDialed (cfg : Config) (rt : Runtime) (req : Request) : String :=
  ((resolveExternalSip rt.parseUri cfg.sipPeers (req.uri.getD "")).getD
    (resolve cfg.emergencyNumbers req.called)).normalizedNumber

theorem inviteRoute_normalizedNumber (dir : Directory) :
    (inviteRoute cfg rt dir req).normalizedNumber = normalizedDialed cfg rt req := by
  unfold inviteRoute normalizedDialed
  dsimp only
  split <;> rfl

/-- The lenient comparison accepts the dialed number only if it is the destination once both
    are in international form. -/
def MatchIsExact (cfg : Config) (rt : Runtime) (req : Request) (claims : WidgetTokenClaims) :
    Prop :=
  cfg.trunk.enabled = true →
    digitsEqual (toDigits claims.destination) (toDigits (normalizedDialed cfg rt req)) = true →
    toDigits (internationalForm (normalizedDialed cfg rt req)) =
      toDigits (internationalForm claims.destination)

/-- What is dialed is the destination, in the form that matched. -/
theorem MatchIsExact.digits (h : MatchIsExact cfg rt req claims) (henabled : cfg.trunk.enabled = true)
    (hroute : route.normalizedNumber = normalizedDialed cfg rt req) :
    toDigits (internationalForm (widgetNumber claims route)) =
      toDigits (internationalForm claims.destination) := by
  unfold widgetNumber
  rw [hroute]
  split
  · exact h henabled ‹_›
  · rfl

/-- A widget call of the trunk kind originates legs to its number only. -/
theorem routeAdmitted_dialsOnly (hw : ctx.widget = some claims)
    (hkind : claims.routeType.getD .trunk = .trunk)
    (hsource : cfg.trunk.isFromTrunk rt ctx.req.sourceAddress = false) :
    Performs (Effect.DialsOnly cfg (widgetNumber claims route)) (routeAdmitted cfg rt ctx route) := by
  unfold routeAdmitted
  rw [routeCallContext_widget hw hsource]
  have hfirst : firstHandler (routeHandlers cfg rt ctx route) = WidgetHandler cfg ctx route :=
    firstHandler_takes (takes_WidgetHandler hw hkind) _
  rw [hfirst]
  refine performs_tryCatch (performs_bind (WidgetHandler_dialsOnly hw hkind) fun handled => ?_)
    fun _ => performs_sendUnlessFinal trivial trivial
  refine performs_ite (fun _ => performs_pure _) fun _ => ?_
  exact performs_then trivial fun _ => performs_ask trivial

/-- The claims of an admitted widget call are the verified ones. -/
theorem Verified.claims_eq {a : Admission} {u : History} (htoken : req.widgetToken ≠ "")
    (hv : Verified claims (a.trace cfg req ++ u)) : a.claims = some claims := by
  have hmem : Effect.event (.verifyWidgetToken req.widgetToken) a.claims ∈
      tokenTrace req a.claims := by
    unfold tokenTrace
    rw [if_neg htoken]
    exact List.mem_singleton.mpr rfl
  refine hv req.widgetToken a.claims (List.mem_append_left _ ?_)
  exact List.mem_cons_of_mem _ (List.mem_cons_of_mem _ (List.mem_cons_of_mem _
    (List.mem_cons_of_mem _ (List.mem_append_left _ hmem))))

/-! ### A run that dials -/

/-- The trunk refuses the leg, and the caller is told so. -/
def failedCall (cfg : Config) (req : Request) (number : String) (callerId : Option String)
    (err : SipError) : History :=
  [Effect.event (.createUAC (cfg.trunk.invite number req.body callerId)) (.error err),
   Effect.event (.send 503 none []) ()]

theorem run_routeCall_failed (henabled : cfg.trunk.enabled = true) (number : String)
    (callerId : Option String) (err : SipError) :
    Prog.Run (routeCall cfg req number callerId) (failedCall cfg req number callerId err)
      (.ok false) := by
  have hon : ¬ (!cfg.trunk.enabled) = true := by rw [henabled]; nofun
  have hleg : Prog.Run (createOutboundLeg cfg number req.body callerId)
      [Effect.event (.createUAC (cfg.trunk.invite number req.body callerId)) (.error err)]
      (.error err) := by
    unfold createOutboundLeg
    rw [if_neg hon]
    exact run_ask (e := .createUAC _) (.error err) (Prog.Run.bind_throw (.throw err))
  unfold routeCall
  dsimp only
  rw [if_neg hon]
  exact hleg.bind_throw.tryCatch_throw (run_ask (e := .send 503 none []) () (.pure false))

theorem WidgetHandler_trunk (hw : ctx.widget = some claims)
    (hkind : claims.routeType.getD .trunk = .trunk) (henabled : cfg.trunk.enabled = true)
    (hmatch : digitsEqual (toDigits claims.destination) (toDigits route.normalizedNumber) = true) :
    WidgetHandler cfg ctx route = widgetToTrunk cfg ctx claims (widgetNumber claims route) := by
  have hmatches : ¬ (!(digitsEqual (toDigits claims.destination) (toDigits ctx.calledNumber) ||
      digitsEqual (toDigits claims.destination) (toDigits route.normalizedNumber))) = true := by
    rw [hmatch, Bool.or_true]
    nofun
  have hon : ¬ (!cfg.trunk.enabled) = true := by rw [henabled]; nofun
  unfold WidgetHandler
  rw [hw]
  dsimp only
  rw [if_neg hmatches, if_neg (not_not.mpr hkind), if_neg hon]
  rfl

/-- A matching widget call sends a leg to its number. -/
theorem run_widgetToTrunk (henabled : cfg.trunk.enabled = true) (ctx : CallContext)
    (claims : WidgetTokenClaims) (number : String) :
    ∃ callerId u, Prog.Run (widgetToTrunk cfg ctx claims number) u (.ok true) ∧
      Effect.event (.createUAC (cfg.trunk.invite number ctx.req.body callerId)) (.error {}) ∈ u := by
  refine ⟨if claims.callerId = "" then none else some claims.callerId, _, run_ask (e := .audit _ _ _ _) () ((run_routeCall_failed henabled number _ {}).bind
    (run_ask (e := .updateCall _ _) () (.pure true))), ?_⟩
  exact List.mem_cons_of_mem _ List.mem_cons_self

/-- A widget call that its handler took is over. -/
theorem run_routeAdmitted_widget {u : History} (hw : ctx.widget = some claims)
    (hkind : claims.routeType.getD .trunk = .trunk)
    (hsource : cfg.trunk.isFromTrunk rt ctx.req.sourceAddress = false)
    (hu : Prog.Run (WidgetHandler cfg ctx route) u (.ok true)) :
    Prog.Run (routeAdmitted cfg rt ctx route) u (.ok ()) := by
  have hfirst : firstHandler (routeHandlers cfg rt ctx route) = WidgetHandler cfg ctx route :=
    firstHandler_takes (takes_WidgetHandler hw hkind) _
  unfold routeAdmitted
  rw [routeCallContext_widget hw hsource, hfirst, ← List.append_nil u]
  exact (hu.bind (.pure ())).tryCatch

/-- The number of a leg can be read off its Request-URI. -/
theorem formatOutboundUri_inj (trunk : TrunkConfig) {a b : String}
    (h : trunk.formatOutboundUri a = trunk.formatOutboundUri b) :
    internationalForm a = internationalForm b := by
  unfold TrunkConfig.formatOutboundUri at h
  simpa only [String.append_left_inj, String.append_right_inj] using h

theorem verified_trace {a : Admission} (h : a.claims = some claims) :
    Verified claims (a.trace cfg req) := fun _ _ hmem => (a.verified_eq hmem).trans h

theorem verified_append {t u : History} (ht : Verified claims t) (hu : Verified claims u) :
    Verified claims (t ++ u) := fun token answer hmem =>
  (List.mem_append.mp hmem).elim (ht token answer) (hu token answer)

/-- For every configuration, every INVITE that does not come from the trunk and every valid
    token of the trunk kind: every run dials the destination, or nothing, if and only if the
    lenient comparison is exact there. -/
theorem widget_trunk_pinned_iff (cfg : Config) (rt : Runtime) (req : Request)
    (claims : WidgetTokenClaims) (hsource : cfg.trunk.isFromTrunk rt req.sourceAddress = false)
    (htoken : req.widgetToken ≠ "") (hkind : claims.routeType.getD .trunk = .trunk) :
    (∀ t r, Prog.Run (handleInvite cfg rt req) t r → Verified claims t → PinsNumber cfg claims t) ↔
      MatchIsExact cfg rt req claims := by
  constructor
  · intro h henabled hmatch
    let a : Admission := ⟨.empty, 0, some claims, ⟨.empty, none⟩, "call", "t0"⟩
    have ha : a.Ok cfg rt req := ⟨rfl, fun hnone => absurd hnone htoken, fun hbad => nomatch hbad.2.1⟩
    have hroute : (a.route cfg rt req).normalizedNumber = normalizedDialed cfg rt req :=
      inviteRoute_normalizedNumber _
    rw [← hroute] at hmatch
    obtain ⟨callerId, u, hu, hmem⟩ := run_widgetToTrunk henabled (a.ctx req) claims
      (widgetNumber claims (a.route cfg rt req))
    rw [← WidgetHandler_trunk rfl hkind henabled hmatch] at hu
    have hrouted : Prog.Run (routeAdmitted cfg rt (a.ctx req) (a.route cfg rt req)) u (.ok ()) :=
      run_routeAdmitted_widget rfl hkind hsource hu
    have hv : Verified claims (a.trace cfg req ++ u) := verified_append (verified_trace rfl)
      fun token answer hmem => ((routeAdmitted_dialsOnly rfl hkind hsource).run hrouted hmem).elim
    obtain ⟨number, localSdp, callerId', heq, hdigits⟩ :=
      h _ _ (run_handleInvite_iff.mpr (.inr ⟨a, ha, u, rfl, hrouted⟩)) hv _ _
        (List.mem_append_right _ hmem)
    have hform := formatOutboundUri_inj cfg.trunk (congrArg OutboundInvite.uri heq)
    unfold widgetNumber at hform
    rw [if_pos hmatch, hroute] at hform
    rw [hform, hdigits]
  · intro hexact t r hrun hv invite x hmem
    rcases run_handleInvite_iff.mp hrun with ⟨hrefused, -⟩ | ⟨a, ha, u, rfl, hrouted⟩
    · exact (admitInvite_screening.run hrefused hmem).elim
    · rcases List.mem_append.mp hmem with hmem | hmem
      · exact (ha.screening hmem).elim
      · have hw : (a.ctx req).widget = some claims := hv.claims_eq htoken
        obtain ⟨henabled, localSdp, callerId, rfl⟩ :=
          (routeAdmitted_dialsOnly hw hkind hsource).run hrouted hmem
        refine ⟨_, localSdp, callerId, rfl, hexact.digits henabled ?_⟩
        exact inviteRoute_normalizedNumber _

end Widget

/-! ### A click-to-call line -/

/-- The claims of a token for one PSTN number. -/
def salesLine : WidgetTokenClaims :=
  { keyId := 1, owner := "acme", destination := "+14155550123", callerId := "1001"
    routeType := some .trunk }

/-- The INVITE of a widget that dials `called`. -/
def widgetInvite (called : String) : Request :=
  { inviteFrom "203.0.113.9" "widget" called with
    get := fun name => if name = "X-Widget-Token" then some "token" else none }

/-- Every token is verified with these claims, and every request succeeds. -/
def widgetWorld (claims : WidgetTokenClaims) (dir : Directory) : CallWorld := fun h e =>
  match e with
  | .verifyWidgetToken _ => some claims
  | e => calmWorld dir none h e

theorem verified_widgetWorld (cfg : Config) (rt : Runtime) (req : Request)
    (claims : WidgetTokenClaims) (dir : Directory) :
    Verified claims (inviteTrace cfg rt req (widgetWorld claims dir)) := by
  intro token answer hmem
  obtain ⟨h, heq⟩ := Prog.mem_trace hmem
  exact heq

theorem mem_dialedUris {uri : String} {t : History} (h : uri ∈ dialedUris t) :
    ∃ invite x, Effect.event (.createUAC invite) x ∈ t ∧ invite.uri = uri := by
  obtain ⟨⟨e, x⟩, hmem, heq⟩ := List.mem_filterMap.mp h
  cases e <;> cases heq
  exact ⟨_, _, hmem, rfl⟩

/-- A token for the line does connect it when the browser dials it without its country code. -/
theorem widget_trunk_pinned_iff_national :
    (widgetInvite "415-555-0123").widgetToken ≠ "" ∧
      ∀ t r, Prog.Run (handleInvite trunkOnly bareRuntime (widgetInvite "415-555-0123")) t r →
        Verified salesLine t → PinsNumber trunkOnly salesLine t := by
  have htoken : (widgetInvite "415-555-0123").widgetToken ≠ "" := by decide +kernel
  refine ⟨htoken, (widget_trunk_pinned_iff trunkOnly bareRuntime (widgetInvite "415-555-0123")
    salesLine rfl htoken rfl).mpr ?_⟩
  intro _ _
  decide +kernel

/-- With a `9` in front of the same digits the trunk dials a subscriber in another country. -/
theorem not_pinsNumber_prefixed :
    ¬ ∀ t r, Prog.Run (handleInvite trunkOnly bareRuntime (widgetInvite "914155550123")) t r →
      Verified salesLine t → PinsNumber trunkOnly salesLine t := by
  intro h
  obtain ⟨r, hrun⟩ := Prog.run_trace (S := effects) (widgetWorld salesLine .empty) []
    (handleInvite trunkOnly bareRuntime (widgetInvite "914155550123"))
  have hdialed : "sip:+914155550123@198.51.100.1:5060" ∈ dialedUris (inviteTrace trunkOnly
      bareRuntime (widgetInvite "914155550123") (widgetWorld salesLine .empty)) := by
    decide +kernel
  obtain ⟨invite, x, hmem, huri⟩ := mem_dialedUris hdialed
  obtain ⟨number, localSdp, callerId, rfl, hdigits⟩ :=
    h _ r hrun (verified_widgetWorld _ _ _ _ _) invite x hmem
  have hform : internationalForm number = internationalForm "+914155550123" :=
    formatOutboundUri_inj trunkOnly.trunk (huri.trans (by decide +kernel))
  rw [hform] at hdigits
  revert hdigits
  decide +kernel

end CallNet
