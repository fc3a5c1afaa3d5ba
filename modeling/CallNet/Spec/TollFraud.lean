import CallNet.Spec.Admission
import CallNet.Spec.RoutePolicy

/-!
# Toll fraud

An INVITE that does not come from the trunk, carries no valid widget token and names a
caller that is not registered dials no number through the trunk but an emergency number, the
number of a matched routing rule and the stored mobile of a called user
(`UnknownCaller.lawful`).  But it also rings the devices of the called extensions, and a REGISTER
asks for no credentials: whoever registers a Contact at the trunk has the trunk called.  So an
unknown caller is kept off the trunk exactly where no Contact leads to it
(`unknown_caller_confined_iff`).
-/

namespace CallNet

/-- What answers the effects of a call, knowing everything that happened before. -/
abbrev CallWorld := History → (e : Effect) → e.Answer

/-- Everything that happens while an INVITE is handled. -/
def inviteTrace (cfg : Config) (rt : Runtime) (req : Request) (world : CallWorld) : History :=
  Prog.trace world [] (handleInvite cfg rt req)

/-! ## Unknown callers -/

/-- In this run the INVITE is not from the trunk, no token is found valid and the caller is
    never found registered. -/
structure UnknownCaller (cfg : Config) (rt : Runtime) (req : Request) (t : History) : Prop where
  source : cfg.trunk.isFromTrunk rt req.sourceAddress = false
  token : ∀ token claims, Effect.event (.verifyWidgetToken token) (some claims) ∉ t
  unregistered : ∀ snap, Effect.event .snapshot snap ∈ t →
    snap.dir.isRegistered req.caller = false

/-- The Contacts that are found registered in the run are among these. -/
def RegistersOnly (contacts : String → Prop) (t : History) : Prop :=
  ∀ snap ext contact, Effect.event .snapshot snap ∈ t →
    snap.dir.getRegistration ext = some contact → contacts contact

/-- What an unknown caller may cause after `h`: legs to granted numbers, rings that do not lead to
    a PSTN trunk or lead to a granted number there, and bridges to a target of a flow.  The agents
    of a queue are not rung.  Which URIs lead to a trunk is up to the SIP stack. -/
def Lawful (cfg : Config) (req : Request) (toTrunk : String → Prop) (h : History) : Effect → Prop
  | .createUAC invite => ∃ number localSdp callerId,
      invite = cfg.trunk.invite number localSdp callerId ∧ Granted cfg req h number
  | .createB2BUA uri _ _ => toTrunk uri → ∃ number,
      uri = cfg.trunk.formatOutboundUri number ∧ Granted cfg req h number
  | .execute _ app arg => app = "bridge" → FlowTarget h arg
  | .executeAsync _ app _ => app ≠ "bridge"
  | .enqueueCaller _ _ _ => False
  | _ => True

/-- No leg is sent to a PSTN trunk, other than to a granted number or a target of a flow. -/
def Confined (cfg : Config) (req : Request) (toTrunk : String → Prop) (t : History) : Prop :=
  ∀ pre e post, t = pre ++ e :: post → Lawful cfg req toTrunk pre e.1

/-- The screen may let the INVITE pass although its caller is not registered. -/
def AdmitsUnknown (cfg : Config) (rt : Runtime) (req : Request) : Prop :=
  cfg.trunk.isFromTrunk rt req.sourceAddress = false ∧ ∃ dir : Directory,
    dir.isRegistered req.caller = false ∧
    isInviteLegitimate dir (inviteRoute cfg rt dir req) req.caller = true

/-- The Contact leads to no PSTN trunk, or to an emergency number there. -/
def OffTrunk (cfg : Config) (toTrunk : String → Prop) (contact : String) : Prop :=
  toTrunk (contactUri contact) → ∃ number ∈ cfg.emergencyNumbers,
    contactUri contact = cfg.trunk.formatOutboundUri number

section UnknownCaller

variable {cfg : Config} {rt : Runtime} {req : Request} {toTrunk contacts : String → Prop}
  {t pre post : History} {e : Prog.Event effects} {r : Except SipError Unit}

theorem UnknownCaller.not_trusted (hu : UnknownCaller cfg rt req t) (hpre : ∀ ev ∈ pre, ev ∈ t) :
    ¬ Trusted cfg rt req pre := by
  rintro (hsource | ⟨token, claims, hmem⟩)
  · rw [hu.source] at hsource
    cases hsource
  · exact hu.token token claims (hpre _ hmem)

theorem UnknownCaller.not_vouched (hu : UnknownCaller cfg rt req t) (hpre : ∀ ev ∈ pre, ev ∈ t) :
    ¬ Vouched cfg rt req pre := by
  rintro (htrusted | ⟨snap, hmem, hreg⟩)
  · exact hu.not_trusted hpre htrusted
  · rw [hu.unregistered snap (hpre _ hmem)] at hreg
    cases hreg

/-- Every step of an INVITE is allowed by what happened before it. -/
theorem handleInvite_allowed (hr : Prog.Run (handleInvite cfg rt req) t r)
    (ht : t = pre ++ e :: post) : Allowed cfg rt req pre e.1 :=
  (((handleInvite_obeys cfg rt req).triple [] rfl).run hr).1 pre e post ht

/-- Every step of an unknown caller is lawful, as long as the Contacts of the called extensions
    may be rung. -/
theorem UnknownCaller.lawful (hu : UnknownCaller cfg rt req t)
    (hr : Prog.Run (handleInvite cfg rt req) t r) (ht : t = pre ++ e :: post)
    (hring : ∀ ext contact snap timeoutMs passFailure, Called cfg req pre ext →
      Effect.event .snapshot snap ∈ pre → snap.dir.getRegistration ext = some contact →
      e.1 = .createB2BUA (contactUri contact) timeoutMs passFailure →
      Lawful cfg req toTrunk pre e.1) :
    Lawful cfg req toTrunk pre e.1 := by
  have hpre : ∀ ev ∈ pre, ev ∈ t := fun ev hev => by
    rw [ht]
    exact List.mem_append_left _ hev
  have hallowed := handleInvite_allowed hr ht
  obtain ⟨effect, answer⟩ := e
  cases effect with
  | createUAC invite => exact hallowed.2.resolve_left (hu.not_vouched hpre)
  | createB2BUA uri timeoutMs passFailure =>
    obtain ⟨ext, contact, snap, hcalled, hmem, hreg, rfl⟩ :=
      Or.resolve_left hallowed (hu.not_trusted hpre)
    exact hring ext contact snap timeoutMs passFailure hcalled hmem hreg rfl
  | execute endpoint app arg => exact hallowed
  | executeAsync endpoint app arg => exact hallowed
  | enqueueCaller queueId callId opts => exact hu.not_vouched hpre hallowed
  | _ => trivial

/-- An unknown caller rings somebody only when the screen let the INVITE pass. -/
theorem UnknownCaller.admitsUnknown (hu : UnknownCaller cfg rt req t)
    (hr : Prog.Run (handleInvite cfg rt req) t r) {uri : String} {timeoutMs : Option Nat}
    {passFailure : Bool} {x : Except SipError (Leg × Leg)}
    (hmem : Effect.event (.createB2BUA uri timeoutMs passFailure) x ∈ t) :
    AdmitsUnknown cfg rt req := by
  rcases run_handleInvite_iff.mp hr with ⟨hrefused, -⟩ | ⟨a, ha, u, rfl, -⟩
  · exact (admitInvite_screening.run hrefused hmem).elim
  · have hsnap : Effect.event .snapshot a.snap ∈ a.trace cfg req ++ u := by
      unfold Admission.trace
      simp
    have hclaims : a.claims = none := by
      by_contra hne
      obtain ⟨c, hc⟩ := Option.ne_none_iff_exists'.mp hne
      have htoken : req.widgetToken ≠ "" := fun hempty => hne (ha.claims hempty)
      refine hu.token req.widgetToken c (List.mem_append_left _ ?_)
      unfold Admission.trace tokenTrace
      rw [if_neg htoken, hc]
      simp
    have hroutable := ha.routable
    rw [hclaims] at hroutable
    refine ⟨hu.source, a.snap.dir, hu.unregistered a.snap hsnap, ?_⟩
    by_contra hno
    refine hroutable ⟨by rw [hu.source]; rfl, rfl, ?_⟩
    rw [Bool.not_eq_true', ← Bool.not_eq_true]
    exact hno

/-- Where no Contact leads to the trunk, an unknown caller is confined. -/
theorem UnknownCaller.confined (hu : UnknownCaller cfg rt req t)
    (hr : Prog.Run (handleInvite cfg rt req) t r) (honly : RegistersOnly contacts t)
    (hoff : AdmitsUnknown cfg rt req → ∀ contact, contacts contact →
      OffTrunk cfg toTrunk contact) : Confined cfg req toTrunk t := by
  intro pre e post ht
  refine hu.lawful hr ht fun ext contact snap timeoutMs passFailure _ hmem hreg he => ?_
  have hin : ∀ ev ∈ pre ++ [e], ev ∈ t := fun ev hev => by
    rw [ht, List.append_cons]
    exact List.mem_append_left _ hev
  obtain ⟨effect, answer⟩ := e
  cases he
  have hadmits := hu.admitsUnknown hr (hin _ (List.mem_append_right _ List.mem_cons_self))
  have hcontact := honly snap ext contact (hin _ (List.mem_append_left _ hmem)) hreg
  intro htrunk
  obtain ⟨number, hnumber, heq⟩ := hoff hadmits contact hcontact htrunk
  exact ⟨number, heq, .emergency hnumber⟩

end UnknownCaller

/-! ## A small deployment -/

/-- A deployment with a trunk and without a media layer. -/
def trunkOnly : Config where
  emergencyNumbers := ["911", "112"]
  sipPeers := []
  trunk := { name := "trunk", host := "198.51.100.1", port := 5060, username := "acct"
             password := "secret", callerNumber := "+14155550100", enabled := true
             dialPrefix := "", inboundIps := [] }
  billing := { prepaidEnabled := true, currency := "USD" }
  serverDomain := "voice.local"
  sipRateLimit := 20
  sipRateWindowMs := 10000
  ivrEnabled := false
  voicemailEnabled := false
  voicemailFsDir := "/voicemail"
  voicemailMaxSec := 120
  soundsBasePath := "/sounds"
  holdMusic := "local_stream://moh"
  ttsEngine := "flite"
  ttsVoice := "slt"
  pushEnabled := false
  pushAlways := false
  teamsDefaultDialIn := ""
  teamsDtmfDelayMs := 0
  conferenceProfile := "default"
  conferenceMaxMembers := -1
  queueMoh := ""
  queueRingTimeoutSecs := 20
  queueMaxWaitSecs := 300
  hasIvr := false
  hasRouting := false

/-- A runtime that parses no URI and no number. -/
def bareRuntime : Runtime := ⟨fun _ => none, fun _ _ _ => none, fun _ => none, id⟩

/-- An INVITE of `caller` to `called`. -/
def inviteFrom (sourceAddress caller called : String) : Request where
  sourceAddress
  uri := some ("sip:" ++ called ++ "@voice.local")
  callingNumber := some caller
  callingName := none
  calledNumber := called
  get := fun _ => none
  headers := fun _ => none
  body := "offer"

/-- Every request succeeds, and the users are always those of `dir`. -/
def calmWorld (dir : Directory) (rater : Option RatingService) : CallWorld := fun h e =>
  match e with
  | .isBanned _ | .finalResponseSent | .ensureConnected | .isConnected | .isHungUp _ => false
  | .sipRates | .teamsAttempts => OrdMap.empty
  | .snapshot => ⟨dir, rater⟩
  | .getRoutingRule _ | .getIvrFlow _ | .getConnector _ | .verifyWidgetToken _ => none
  | .randomUUID => "call-1"
  | .timestamp => "t0"
  | .dateDir => "day"
  | .nowMs => (0 : Nat)
  | .hoursAndDay => (12, 1)
  | .fetch _ _ => none
  | .createB2BUA _ _ _ | .connectCaller => .ok (⟨h.length, none, none⟩, ⟨h.length + 1, none, none⟩)
  | .createUAC _ | .createUAS _ | .createEndpoint => .ok ⟨h.length, none, none⟩
  | .execute _ _ _ | .play _ _ | .modify _ _ | .bridge _ _ | .join _ _ _
  | .sendConnectorEmail _ _ _ _ => .ok ()
  | .playAndWait _ _ _ => none
  | .record _ _ _ => .ok none
  | .evaluate _ => .error {}
  | .announcement _ => none
  | .queues => ⟨.empty⟩
  | .enqueueCaller _ _ _ => .failed
  | .getRoom _ => none
  | .ensureRoom _ _ _ => []
  | .recordOffense _ _ | .setSipRates _ | .setTeamsAttempts _ | .logCall _ | .updateCall _ _
  | .audit _ _ _ _ | .notify _ _ _ | .sendIncomingCall _ _ _ _ | .addVoicemail _
  | .send _ _ _ | .onDestroy _ _ | .destroy _ | .executeAsync _ _ _ | .sleep _
  | .queue _ | .markRinging _ _ | .markJoined _ _ _ | .markLeft _ _ => ()

/-- The Request-URIs of the legs that were originated. -/
def dialedUris (h : History) : List String :=
  h.filterMap fun e => match e.1 with
    | .createUAC invite => some invite.uri
    | _ => none

/-- A user who is not registered and has a mobile. -/
def awayUser : Directory := Directory.empty.upsertUser "1001" "alice" "Alice" "+14155550123"

/-- A stranger calls the user, and is put through to the mobile. -/
example : dialedUris (inviteTrace trunkOnly bareRuntime (inviteFrom "203.0.113.9" "9999" "1001")
    (calmWorld awayUser none)) = ["sip:+14155550123@198.51.100.1:5060"] := by decide +kernel

/-! ## A Contact at the trunk -/

/-- The users are those of `snap`, the rule of the dialed number is `rule`, and no token is
    valid. -/
def Diverted (snap : Snapshot) (rule : RoutingRule) : Prog.Event effects → Prop
  | ⟨.snapshot, s⟩ => s = snap
  | ⟨.getRoutingRule _, found⟩ => found = some rule
  | ⟨.verifyWidgetToken _, claims⟩ => claims = none
  | _ => True

section Diverted

variable {cfg : Config} {rt : Runtime} {req : Request} {ctx : CallContext} {snap : Snapshot}
  {rule : RoutingRule} {e : Effect}

theorem exists_diverted (snap : Snapshot) (rule : RoutingRule) (e : Effect) :
    ∃ x, Diverted snap rule (e.event x) := by
  cases e with
  | getRoutingRule number => exact ⟨some rule, rfl⟩
  | _ => exact ⟨calmWorld snap.dir snap.rater [] _, by first | rfl | trivial⟩

/-- The device is rung, whatever comes of it. -/
theorem routeToExtension_may {contact callId : String}
    (hfree : snap.dir.isBlocked req.calledExt req.caller = false) :
    Prog.May (Diverted snap rule) (.createB2BUA (contactUri contact) (some 15000) false)
      (routeToExtension cfg req contact callId) := by
  refine may_snapshot rfl ?_
  rw [if_neg (by rw [hfree]; exact Bool.false_ne_true)]
  refine may_ask (d := .notify _ _ _) () trivial ?_
  exact Prog.may_here (S := effects) (exists_diverted snap rule) _

theorem InternalHandler_may {extension contact : String} {route : DialResult}
    (htype : route.type = .internal) (htarget : route.target = extension)
    (hreg : snap.dir.getRegistration extension = some contact)
    (hdnd : ((snap.dir.getUser extension).map SipUser.dnd).getD false = false)
    (hfree : snap.dir.isBlocked ctx.req.calledExt ctx.req.caller = false) :
    Prog.May (Diverted snap rule) (.createB2BUA (contactUri contact) (some 15000) false)
      (InternalHandler cfg ctx (some route)) := by
  have hroute : routeOf .internal (some route) = some route := by
    unfold routeOf
    exact Option.filter_eq_some_iff.mpr ⟨rfl, decide_eq_true htype⟩
  unfold InternalHandler
  rw [hroute]
  dsimp only
  rw [htarget]
  -- the schedule is not known, and the device may be disturbed
  have hgate : ∃ u, Prog.Run (scheduleGate cfg ctx extension) u (.ok false) ∧
      ∀ ev ∈ u, Diverted snap rule ev := by
    unfold scheduleGate
    split
    · exact ⟨[], .pure false, fun _ hev => absurd hev List.not_mem_nil⟩
    · refine ⟨_, run_ask (e := .evaluate _) (.error {}) (.pure false), fun ev hev => ?_⟩
      rw [List.mem_singleton.mp hev]
      trivial
  obtain ⟨u, hu, hdiverted⟩ := hgate
  refine Prog.May.after hu hdiverted (may_snapshot rfl ?_)
  rw [hreg]
  dsimp only
  rw [hdnd]
  exact Prog.May.bind (exists_diverted snap rule) (routeToExtension_may hfree) _

/-- A rule that sends the call to an extension has its device rung. -/
theorem routeAdmitted_may_ring {callId contact : String} {route : DialResult}
    (htype : rule.destinationType = .extension)
    (hreg : snap.dir.getRegistration rule.destinationValue = some contact)
    (hdnd : ((snap.dir.getUser rule.destinationValue).map SipUser.dnd).getD false = false)
    (hfree : snap.dir.isBlocked req.calledExt req.caller = false) :
    Prog.May (Diverted snap rule) (.createB2BUA (contactUri contact) (some 15000) false)
      (routeAdmitted cfg rt (req.context none callId) route) := by
  refine Prog.May.tryCatch (exists_diverted snap rule) ?_ _
  refine Prog.May.bind (exists_diverted snap rule) ?_ _
  refine may_ask (d := .getRoutingRule _) (some rule) rfl ?_
  refine may_ask (d := .audit _ _ _ _) () trivial ?_
  unfold dispatchRoutingRule
  rw [htype]
  exact InternalHandler_may rfl rfl hreg hdnd hfree

/-- Admission without a token is diverted by any rule. -/
theorem Admission.diverted {a : Admission} (hclaims : a.claims = none) :
    ∀ ev ∈ a.trace cfg req, Diverted a.snap rule ev := by
  have htoken : ∀ ev ∈ tokenTrace req a.claims, Diverted a.snap rule ev := by
    unfold tokenTrace
    split
    · exact fun _ hev => absurd hev List.not_mem_nil
    · intro ev hev
      rw [List.mem_singleton.mp hev]
      exact hclaims
  simp only [Admission.trace, logTrace, List.forall_mem_cons, List.forall_mem_append]
  exact ⟨trivial, trivial, trivial, trivial, htoken, rfl, trivial, trivial, trivial, trivial,
    fun _ hev => absurd hev List.not_mem_nil⟩

/-- Nothing vouches for the caller of a diverted run. -/
theorem UnknownCaller.of_diverted {t : History}
    (hsource : cfg.trunk.isFromTrunk rt req.sourceAddress = false)
    (hcaller : snap.dir.isRegistered req.caller = false) (hall : ∀ ev ∈ t, Diverted snap rule ev) :
    UnknownCaller cfg rt req t where
  source := hsource
  token token claims htoken := by
    have hnone : some claims = none := hall _ htoken
    cases hnone
  unregistered s hs := by
    rw [show s = snap from hall _ hs]
    exact hcaller

/-- A call that is diverted to an extension is granted the emergency numbers only, where nobody
    has a mobile. -/
theorem emergency_of_granted {pre : History} {number : String}
    (htype : rule.destinationType = .extension)
    (hmobile : ∀ ext user, snap.dir.getUser ext = some user → user.mobile = none)
    (hpre : ∀ ev ∈ pre, Diverted snap rule ev) (hg : Granted cfg req pre number) :
    number ∈ cfg.emergencyNumbers := by
  cases hg with
  | emergency hnumber => exact hnumber
  | rule hrule hpstn =>
    cases show some _ = some rule from hpre _ hrule
    rw [htype] at hpstn
    cases hpstn
  | mobile _ hs huser hstored =>
    rw [show _ = snap from hpre _ hs] at huser
    rw [hmobile _ _ huser] at hstored
    cases hstored

end Diverted

/-- The dialed user has no mobile, and one extension has registered a Contact. -/
def contactDirectory (dialed extension contact : String) : Directory where
  users := OrdMap.empty.set dialed { extension := dialed, username := dialed, name := dialed }
  phoneIndex := .empty
  registrations := OrdMap.empty.set extension contact
  ivrFlowExtensions := []

section ContactDirectory

variable {dialed extension contact : String}

theorem contactDirectory_getUser {ext : String} {user : SipUser}
    (h : (contactDirectory dialed extension contact).getUser ext = some user) :
    user = { extension := dialed, username := dialed, name := dialed } := by
  unfold Directory.getUser contactDirectory at h
  rw [OrdMap.get?_set] at h
  split at h
  · exact (Option.some.inj h).symm
  · cases h

theorem contactDirectory_getRegistration {ext found : String}
    (h : (contactDirectory dialed extension contact).getRegistration ext = some found) :
    ext = extension ∧ found = contact := by
  unfold Directory.getRegistration contactDirectory at h
  rw [OrdMap.get?_set] at h
  split at h
  · exact ⟨‹_›, (Option.some.inj h).symm⟩
  · cases h

theorem contactDirectory_unregistered {caller : String} (h : caller ≠ extension) :
    (contactDirectory dialed extension contact).isRegistered caller = false := by
  unfold Directory.isRegistered OrdMap.has contactDirectory
  rw [OrdMap.get?_set_ne _ _ h]
  rfl

theorem contactDirectory_isBlocked (callee caller : String) :
    (contactDirectory dialed extension contact).isBlocked callee caller = false := by
  unfold Directory.isBlocked
  split
  · rename_i user huser
    rw [contactDirectory_getUser huser]
    rfl
  · rfl

/-- An INVITE that the screen lets pass for some users passes when the dialed one is known. -/
theorem contactDirectory_legitimate {cfg : Config} {rt : Runtime} {req : Request} {dir : Directory}
    (hunregistered : dir.isRegistered req.caller = false)
    (hlegitimate : isInviteLegitimate dir (inviteRoute cfg rt dir req) req.caller = true)
    (hdialed : dialed = ((resolveExternalSip rt.parseUri cfg.sipPeers (req.uri.getD "")).getD
      (resolve cfg.emergencyNumbers req.called)).target) :
    isInviteLegitimate (contactDirectory dialed extension contact)
      (inviteRoute cfg rt (contactDirectory dialed extension contact) req) req.caller = true := by
  have hknown : ((contactDirectory dialed extension contact).getUser dialed).isSome = true := by
    unfold Directory.getUser contactDirectory
    rw [OrdMap.get?_set_self]
    rfl
  unfold inviteRoute at hlegitimate ⊢
  dsimp only at hlegitimate ⊢
  generalize (resolveExternalSip rt.parseUri cfg.sipPeers (req.uri.getD "")).getD
    (resolve cfg.emergencyNumbers req.called) = plan at hlegitimate hdialed ⊢
  subst hdialed
  have hflow : ¬ (plan.type = .internal ∧
      ((contactDirectory plan.target extension contact).getUser plan.target).isNone ∧
      (contactDirectory plan.target extension contact).isIvrFlowExtension plan.target) :=
    fun h => absurd h.2.1 (by rw [← Option.not_isSome, hknown]; exact Bool.false_ne_true)
  have hplan : plan.type ≠ .internal → isInviteLegitimate dir plan req.caller = true :=
    fun hne => by rwa [if_neg fun h => hne h.1] at hlegitimate
  rw [if_neg hflow]
  unfold isInviteLegitimate at hplan ⊢
  cases htype : plan.type with
  | internal => exact hknown
  | ivr => rfl
  | emergency => rfl
  | blocked =>
    rw [htype] at hplan
    cases hplan (by decide)
  | _ =>
    -- the screen asks for a registered caller
    rw [htype] at hplan
    have hregistered := hplan (by decide)
    dsimp only at hregistered
    rw [hunregistered] at hregistered
    cases hregistered

end ContactDirectory

/-- A Contact that leads to the trunk is rung for an unknown caller, in some run where no other
    one is registered. -/
theorem exists_unconfined {cfg : Config} {rt : Runtime} {req : Request}
    {toTrunk : String → Prop} {contact : String} (hadmits : AdmitsUnknown cfg rt req)
    (hoff : ¬ OffTrunk cfg toTrunk contact) :
    ∃ t r, Prog.Run (handleInvite cfg rt req) t r ∧ UnknownCaller cfg rt req t ∧
      RegistersOnly (· = contact) t ∧ ¬ Confined cfg req toTrunk t := by
  obtain ⟨hsource, dir, hunregistered, hlegitimate⟩ := hadmits
  -- another extension than the caller's has registered the Contact, and a rule leads to it
  let extension := req.caller ++ "0"
  have hne : req.caller ≠ extension := fun h => by
    have hlength := congrArg String.length h
    rw [String.length_append] at hlength
    exact absurd hlength (by simp)
  let dialed := ((resolveExternalSip rt.parseUri cfg.sipPeers (req.uri.getD "")).getD
    (resolve cfg.emergencyNumbers req.called)).target
  let snap : Snapshot := ⟨contactDirectory dialed extension contact, none⟩
  let rule : RoutingRule := ⟨dialed, .extension, extension⟩
  let a : Admission := ⟨.empty, 0, none, snap, "call", "t0"⟩
  have hlegitimate' : isInviteLegitimate snap.dir (inviteRoute cfg rt snap.dir req) req.caller =
      true := contactDirectory_legitimate hunregistered hlegitimate rfl
  have ha : a.Ok cfg rt req := ⟨rfl, fun _ => rfl, fun h => by
    have hrefused := h.2.2
    rw [show isInviteLegitimate a.snap.dir _ (callerIdentity req none) = true from hlegitimate']
      at hrefused
    cases hrefused⟩
  have hdnd : ((snap.dir.getUser rule.destinationValue).map SipUser.dnd).getD false = false := by
    cases huser : snap.dir.getUser rule.destinationValue with
    | none => rfl
    | some user =>
      rw [contactDirectory_getUser huser]
      rfl
  have hreg : snap.dir.getRegistration rule.destinationValue = some contact :=
    OrdMap.get?_set_self _ _ _
  have hmay : Prog.May (Diverted snap rule) (.createB2BUA (contactUri contact) (some 15000) false)
      (routeAdmitted cfg rt (a.ctx req) (a.route cfg rt req)) :=
    routeAdmitted_may_ring rfl hreg hdnd (contactDirectory_isBlocked _ _)
  obtain ⟨u, r, x, hu, hmem, hdiverted⟩ := hmay.run
  obtain ⟨mid, post, rfl⟩ := List.append_of_mem hmem
  have hadmission : ∀ ev ∈ a.trace cfg req, Diverted snap rule ev := Admission.diverted rfl
  have hall := List.forall_mem_append.mpr ⟨hadmission, hdiverted⟩
  refine ⟨_, r, run_handleInvite_iff.mpr (.inr ⟨a, ha, _, rfl, hu⟩),
    .of_diverted hsource (contactDirectory_unregistered hne) hall, ?_, ?_⟩
  · intro s ext found hs hreg
    rw [show s = snap from hall _ hs] at hreg
    exact (contactDirectory_getRegistration hreg).2
  · -- nothing in the run grants a number but the emergency numbers
    intro hconfined
    refine hoff fun htrunk => ?_
    have hlawful : Lawful cfg req toTrunk (a.trace cfg req ++ mid)
        (.createB2BUA (contactUri contact) (some 15000) false) :=
      hconfined (a.trace cfg req ++ mid) _ post (List.append_assoc _ _ _).symm
    obtain ⟨number, heq, hgranted⟩ := hlawful htrunk
    have hpre : ∀ ev ∈ a.trace cfg req ++ mid, Diverted snap rule ev := fun ev hev => by
      refine hall ev ?_
      rw [← List.append_assoc]
      exact List.mem_append_left _ hev
    have hmobile : ∀ ext user, snap.dir.getUser ext = some user → user.mobile = none := by
      intro ext user huser
      rw [contactDirectory_getUser huser]
    exact ⟨number, emergency_of_granted rfl hmobile hpre hgranted, heq⟩

/-- For every INVITE and all Contacts that may be registered while it is handled, and whatever the
    users, the routing rules, the flows and the answers of the SIP stack and the media server are:
    an unknown caller is confined if and only if the screen admits none with this INVITE or each
    of the Contacts leads to no trunk, or to an emergency number there. -/
theorem unknown_caller_confined_iff (cfg : Config) (rt : Runtime) (req : Request)
    (toTrunk contacts : String → Prop) :
    (∀ t r, Prog.Run (handleInvite cfg rt req) t r → UnknownCaller cfg rt req t →
        RegistersOnly contacts t → Confined cfg req toTrunk t) ↔
      (AdmitsUnknown cfg rt req → ∀ contact, contacts contact → OffTrunk cfg toTrunk contact) := by
  constructor
  · intro h hadmits contact hcontact
    by_contra hoff
    obtain ⟨t, r, hr, hu, honly, hno⟩ := exists_unconfined hadmits hoff
    refine hno (h t r hr hu fun snap ext found hmem hreg => ?_)
    rw [honly snap ext found hmem hreg]
    exact hcontact
  · exact fun hoff t r hr hu honly => hu.confined hr honly hoff

/-! ### A Contact of a stranger's choice -/

/-- URIs at the host and port of the trunk, written as `formatOutboundUri` writes them. -/
def TrunkConfig.Addresses (trunk : TrunkConfig) (uri : String) : Prop :=
  ∃ user, uri = "sip:" ++ user ++ "@" ++ trunk.host ++ ":" ++ toString trunk.port

/-- A user whose extension was registered with a premium number at the trunk for its Contact. -/
def hijackedUser : Directory :=
  { Directory.empty.upsertUser "1001" "alice" "Alice" "" with
    registrations := OrdMap.empty.set "1001" "<sip:+19005550199@198.51.100.1:5060>" }

theorem hijackedUser_mobile {ext : String} {user : SipUser}
    (h : hijackedUser.getUser ext = some user) : user.mobile = some "" := by
  let alice : SipUser :=
    { extension := "1001", username := "alice", name := "Alice", mobile := some "" }
  have husers : hijackedUser.users = (OrdMap.empty.set "1001" alice).set "alice" alice := rfl
  unfold Directory.getUser at h
  rw [husers, OrdMap.get?_set, OrdMap.get?_set] at h
  split at h
  · rw [← Option.some.inj h]
  · split at h
    · rw [← Option.some.inj h]
    · cases h

/-- The URIs of the devices that were rung. -/
def rungUris (h : History) : List String :=
  h.filterMap fun e => match e.1 with
    | .createB2BUA uri _ _ => some uri
    | _ => none

/-- A stranger calls the extension. -/
def hijackedCall : History :=
  inviteTrace trunkOnly bareRuntime (inviteFrom "203.0.113.9" "9999" "1001")
    (calmWorld hijackedUser none)

theorem hijackedCall_snapshot {snap : Snapshot}
    (hmem : Effect.event .snapshot snap ∈ hijackedCall) : snap = ⟨hijackedUser, none⟩ := by
  obtain ⟨h, heq⟩ := Prog.mem_trace hmem
  exact heq

theorem hijackedCall_unknown :
    UnknownCaller trunkOnly bareRuntime (inviteFrom "203.0.113.9" "9999" "1001") hijackedCall := by
  refine ⟨rfl, fun token claims hmem => ?_, fun snap hmem => ?_⟩
  · obtain ⟨h, heq⟩ := Prog.mem_trace hmem
    cases heq
  · rw [hijackedCall_snapshot hmem]
    decide +kernel

/-- Only the emergency numbers and the user's empty mobile are granted. -/
theorem hijackedCall_granted {pre : History} (hpre : ∀ ev ∈ pre, ev ∈ hijackedCall)
    {number : String} (hg : Granted trunkOnly (inviteFrom "203.0.113.9" "9999" "1001") pre number) :
    number ∈ ["911", "112", ""] := by
  cases hg with
  | emergency hnumber => exact List.mem_append_left [""] hnumber
  | rule hrule htype =>
    obtain ⟨h, hnone⟩ := Prog.mem_trace (hpre _ hrule)
    cases hnone
  | @mobile ext _ snap user _ hs huser hmobile =>
    rw [hijackedCall_snapshot (hpre _ hs)] at huser
    cases (hijackedUser_mobile huser).symm.trans hmobile
    exact List.mem_cons_of_mem _ (List.mem_cons_of_mem _ List.mem_cons_self)

/-- The stranger has the premium number dialed. -/
theorem not_unknown_caller_confined :
    ¬ ∀ t r, Prog.Run (handleInvite trunkOnly bareRuntime
          (inviteFrom "203.0.113.9" "9999" "1001")) t r →
        UnknownCaller trunkOnly bareRuntime (inviteFrom "203.0.113.9" "9999" "1001") t →
        Confined trunkOnly (inviteFrom "203.0.113.9" "9999" "1001")
          trunkOnly.trunk.Addresses t := by
  intro h
  obtain ⟨r, hr⟩ := Prog.run_trace (S := effects) (calmWorld hijackedUser none) []
    (handleInvite trunkOnly bareRuntime (inviteFrom "203.0.113.9" "9999" "1001"))
  have hrung : "sip:+19005550199@198.51.100.1:5060" ∈ rungUris hijackedCall := by decide +kernel
  obtain ⟨⟨effect, answer⟩, hmem, huri⟩ := List.mem_filterMap.mp hrung
  obtain ⟨pre, post, ht⟩ := List.append_of_mem hmem
  have hlawful := h hijackedCall r hr hijackedCall_unknown pre _ post ht
  cases effect with
  | createB2BUA uri timeoutMs passFailure =>
    cases Option.some.inj huri
    obtain ⟨number, heq, hgranted⟩ := hlawful ⟨"+19005550199", rfl⟩
    have hnumber := hijackedCall_granted (fun ev hev => by
      rw [ht]
      exact List.mem_append_left _ hev) hgranted
    have hother : ∀ number ∈ ["911", "112", ""],
        "sip:+19005550199@198.51.100.1:5060" ≠ trunkOnly.trunk.formatOutboundUri number := by
      decide +kernel
    exact hother number hnumber heq
  | _ => cases huri

end CallNet
